import FerrisOnAir.Rsn.KeyInstallation
import FerrisOnAir.Tx.BufferManagement

/-! # In-order frames and the two places of the replay check

The access point numbers its protected unicast frames in the order in which they
arrive. `RoutingRunner::run` checks the number of a data frame on the spot, but puts
an EAPOL key frame into the background queue of the router; the connection task
takes it out, waits for a scratch buffer in `handle_eapol_retry` and checks its
number only then.
-/
namespace FerrisOnAir.Rsn
variable {F : Type*}

/-- The connection task between two receives. -/
inductive ConnectionTask (F : Type*)
  | receiving
  | awaitingScratch (frame : F) (packetNumber : Option ℕ)
  | replying

structure ReplaySystem (F : Type*) where
  rsn : CryptoRun
  queue : List (F × Option ℕ)
  task : ConnectionTask F
  lastNumber : ℕ
  delivered : List ℕ
  checked : List (ℕ × Bool)

inductive ReplayOp (F : Type*)
  | receiveData (packetNumber : ℕ)
  | receiveGroupData (keyId packetNumber : ℕ)
  | receiveKeyFrame (frame : F) (packetNumber : Option ℕ)
  | takeKeyFrame
  | checkKeyFrame
  | replySent

namespace ReplaySystem

def start (rsn : CryptoRun) : ReplaySystem F := ⟨rsn,[],.receiving,0,[],[]⟩

/-- Protected key frames whose number has not been checked, oldest first. -/
def pendingNumbers (s : ReplaySystem F) : List ℕ :=
  (match s.task with
    | .awaitingScratch _ (some pn) => [pn]
    | _ => []) ++ s.queue.filterMap Prod.snd

/-- The access point never repeats or reorders numbers. -/
def inOrder (s : ReplaySystem F) : Option ℕ → Bool
  | none => true
  | some pn => s.lastNumber < pn

def step (depth : ℕ) (d : KeyFrameDecoder F) (bssid : Bytes 6) (s : ReplaySystem F) :
    ReplayOp F → Option (ReplaySystem F)
  | .receiveData pn =>
    if s.inOrder (some pn) then
      (s.rsn.step d bssid (.data false 0 pn)).toOption.map (fun rsn => { s with
        rsn := rsn
        lastNumber := pn
        delivered := s.delivered ++ [pn]
        checked := s.checked ++ [(pn,(s.rsn.state.validateData false 0 pn).1)] })
    else none
  | .receiveGroupData keyId pn =>
    (s.rsn.step d bssid (.data true keyId pn)).toOption.map (fun rsn => { s with rsn := rsn })
  | .receiveKeyFrame frame pn =>
    if s.inOrder pn then
      match Tx.trySend depth s.queue (frame,pn) with
      | .error _ => some { s with lastNumber := pn.getD s.lastNumber }
      | .ok queue => some { s with
          queue := queue
          lastNumber := pn.getD s.lastNumber
          delivered := s.delivered ++ pn.toList }
    else none
  | .takeKeyFrame =>
    match s.task,s.queue with
    | .receiving,(frame,pn) :: queue =>
      some { s with queue := queue, task := .awaitingScratch frame pn }
    | _,_ => none
  | .checkKeyFrame =>
    match s.task with
    | .awaitingScratch frame pn =>
      (s.rsn.step d bssid (.eapol frame pn)).toOption.map (fun rsn => { s with
        rsn := rsn
        task := .replying
        checked := s.checked ++ pn.toList.map (fun n => (n,(s.rsn.state.validateOuter pn).1)) })
    | _ => none
  | .replySent =>
    match s.task with
    | .replying => some { s with task := .receiving }
    | _ => none

def Step (depth : ℕ) (d : KeyFrameDecoder F) (bssid : Bytes 6) (s : ReplaySystem F)
    (op : ReplayOp F) (t : ReplaySystem F) : Prop :=
  s.step depth d bssid op = some t

/-- No data frame overtakes a protected key frame on its way to the check. -/
def NoOvertaking (s : ReplaySystem F) (op : ReplayOp F) : Prop :=
  ∀ pn, op = .receiveData pn → s.pendingNumbers = []

/-- The replay counter of the PTK. -/
def counter (s : ReplaySystem F) : ℕ := s.rsn.state.securityAssociations.ptksa.replayCounter

structure Ordered (s : ReplaySystem F) : Prop where
  pending_sorted : s.pendingNumbers.Pairwise (· < ·)
  pending_gt : ∀ pn ∈ s.pendingNumbers, s.counter < pn
  pending_le : ∀ pn ∈ s.pendingNumbers, pn ≤ s.lastNumber
  counter_le : s.counter ≤ s.lastNumber
  delivered_le : ∀ pn ∈ s.delivered, pn ≤ s.lastNumber
  delivered_nodup : s.delivered.Nodup
  delivered_perm : s.delivered.Perm (s.checked.map Prod.fst ++ s.pendingNumbers)
  passed : ∀ p ∈ s.checked, p.2 = true

section Preservation
variable {depth : ℕ} {d : KeyFrameDecoder F} {bssid : Bytes 6} {s t : ReplaySystem F}

theorem validateData_pairwise {c : CryptoState} {pn : ℕ}
    (h : c.securityAssociations.ptksa.replayCounter < pn) :
    (c.validateData false 0 pn).1 = true ∧
      (c.validateData false 0 pn).2.securityAssociations.ptksa.replayCounter = pn := by
  simp only [CryptoState.validateData,Bool.false_eq_true,if_false,if_true,
    TransientKeySecurityAssociation.updateAndValidate_of_lt h]
  exact ⟨trivial,rfl⟩

theorem validateOuter_some {c : CryptoState} {pn : ℕ}
    (h : c.securityAssociations.ptksa.replayCounter < pn) :
    (c.validateOuter (some pn)).1 = true ∧
      (c.validateOuter (some pn)).2.securityAssociations.ptksa.replayCounter = pn := by
  simp only [CryptoState.validateOuter,
    TransientKeySecurityAssociation.updateAndValidate_of_lt h]
  exact ⟨trivial,rfl⟩

theorem validateData_group (c : CryptoState) (k pn : ℕ) :
    (c.validateData true k pn).2.securityAssociations.ptksa = c.securityAssociations.ptksa := by
  simp only [CryptoState.validateData,if_true]
  split
  · split <;> rfl
  · rfl

namespace Ordered

theorem start_ordered {rsn : CryptoRun}
    (h : rsn.state.securityAssociations.ptksa.replayCounter = 0) :
    (start rsn : ReplaySystem F).Ordered :=
  ⟨.nil,nofun,nofun,h.le,nofun,List.nodup_nil,.nil,nofun⟩

/-- A number above all that were seen. -/
theorem delivered_append_le (hs : s.Ordered) {pn : ℕ} (hlt : s.lastNumber < pn) :
    ∀ n ∈ s.delivered ++ [pn], n ≤ pn := by
  intro n hn
  rcases List.mem_append.mp hn with h | h
  · exact (hs.delivered_le n h).trans hlt.le
  · exact (List.mem_singleton.mp h).le

theorem delivered_append_nodup (hs : s.Ordered) {pn : ℕ} (hlt : s.lastNumber < pn) :
    (s.delivered ++ [pn]).Nodup := by
  have hnew : pn ∉ s.delivered := fun h => absurd (hs.delivered_le pn h) (not_le.mpr hlt)
  exact List.nodup_append.mpr ⟨hs.delivered_nodup,List.nodup_singleton pn,
    fun a ha b hb hab => hnew (List.mem_singleton.mp hb ▸ hab ▸ ha)⟩

theorem receiveData_ordered (hs : s.Ordered) {pn : ℕ} (hno : s.pendingNumbers = [])
    (he : Step depth d bssid s (.receiveData pn) t) : t.Ordered := by
  simp only [Step,step] at he
  cases hord : s.inOrder (some pn) with
  | false =>
    simp only [hord,Bool.false_eq_true,if_false] at he
    cases he
  | true =>
    simp only [hord,if_true] at he
    cases he
    have hlt : s.lastNumber < pn := of_decide_eq_true hord
    obtain ⟨hval,hcounter⟩ := validateData_pairwise (hs.counter_le.trans_lt hlt)
    have hpend : ∀ {rsn n dl ch}, pendingNumbers (⟨rsn,s.queue,s.task,n,dl,ch⟩ : ReplaySystem F) =
        [] := hno
    refine ⟨by rw [hpend]; exact .nil,by simp [hpend],by simp [hpend],hcounter.le,
      hs.delivered_append_le hlt,hs.delivered_append_nodup hlt,?_,?_⟩
    · have h := hs.delivered_perm
      rw [hno,List.append_nil] at h
      rw [hpend,List.append_nil,List.map_append]
      exact h.append_right [pn]
    · intro p hp
      rcases List.mem_append.mp hp with h | h
      · exact hs.passed p h
      · rw [List.mem_singleton.mp h]
        exact hval

/-- A key frame that reaches the queue waits behind all earlier ones. -/
theorem enqueue_ordered (hs : s.Ordered) {frame : F} {pn : Option ℕ}
    (hord : s.inOrder pn = true) : Ordered { s with
      queue := s.queue ++ [(frame,pn)]
      lastNumber := pn.getD s.lastNumber
      delivered := s.delivered ++ pn.toList } := by
  have hpend : ∀ {n dl}, pendingNumbers { s with
      queue := s.queue ++ [(frame,pn)], lastNumber := n, delivered := dl } =
      s.pendingNumbers ++ pn.toList := by
    intro n dl
    cases pn <;> simp [pendingNumbers]
  cases pn with
  | none =>
    simp only [Option.toList_none,List.append_nil,Option.getD_none] at hpend ⊢
    exact ⟨by rw [hpend]; exact hs.pending_sorted,by rw [hpend]; exact hs.pending_gt,
      by rw [hpend]; exact hs.pending_le,hs.counter_le,hs.delivered_le,hs.delivered_nodup,
      by rw [hpend]; exact hs.delivered_perm,hs.passed⟩
  | some pn =>
    have hlt : s.lastNumber < pn := of_decide_eq_true hord
    simp only [Option.toList_some,Option.getD_some] at hpend ⊢
    refine ⟨?_,?_,?_,hs.counter_le.trans hlt.le,hs.delivered_append_le hlt,
      hs.delivered_append_nodup hlt,?_,hs.passed⟩
    · rw [hpend]
      refine List.pairwise_append.mpr ⟨hs.pending_sorted,List.pairwise_singleton ..,?_⟩
      intro a ha b hb
      rw [List.mem_singleton.mp hb]
      exact (hs.pending_le a ha).trans_lt hlt
    · rw [hpend]
      intro n hn
      rcases List.mem_append.mp hn with h | h
      · exact hs.pending_gt n h
      · rw [List.mem_singleton.mp h]
        exact hs.counter_le.trans_lt hlt
    · rw [hpend]
      intro n hn
      rcases List.mem_append.mp hn with h | h
      · exact (hs.pending_le n h).trans hlt.le
      · exact (List.mem_singleton.mp h).le
    · rw [hpend,← List.append_assoc]
      exact hs.delivered_perm.append_right [pn]

/-- Steps that keep the numbers to check and the counter. -/
theorem of_eq (hs : s.Ordered) (hpend : t.pendingNumbers = s.pendingNumbers)
    (hcounter : t.counter = s.counter) (hlast : s.lastNumber ≤ t.lastNumber)
    (hdel : t.delivered = s.delivered) (hchecked : t.checked = s.checked) : t.Ordered where
  pending_sorted := by rw [hpend]; exact hs.pending_sorted
  pending_gt := by rw [hpend,hcounter]; exact hs.pending_gt
  pending_le := by rw [hpend]; exact fun pn h => (hs.pending_le pn h).trans hlast
  counter_le := by rw [hcounter]; exact hs.counter_le.trans hlast
  delivered_le := by rw [hdel]; exact fun pn h => (hs.delivered_le pn h).trans hlast
  delivered_nodup := by rw [hdel]; exact hs.delivered_nodup
  delivered_perm := by rw [hdel,hchecked,hpend]; exact hs.delivered_perm
  passed := by rw [hchecked]; exact hs.passed

theorem receiveKeyFrame_ordered (hs : s.Ordered) {frame : F} {pn : Option ℕ}
    (he : Step depth d bssid s (.receiveKeyFrame frame pn) t) : t.Ordered := by
  simp only [Step,step] at he
  cases hord : s.inOrder pn with
  | false =>
    simp only [hord,Bool.false_eq_true,if_false] at he
    cases he
  | true =>
    simp only [hord,if_true] at he
    by_cases hroom : s.queue.length < depth
    · simp only [Tx.trySend,if_pos hroom] at he
      cases he
      exact hs.enqueue_ordered hord
    · simp only [Tx.trySend,if_neg hroom] at he
      cases he
      refine hs.of_eq rfl rfl ?_ rfl rfl
      cases pn with
      | none => exact le_rfl
      | some pn => exact (of_decide_eq_true hord : s.lastNumber < pn).le

theorem checkKeyFrame_ordered (hs : s.Ordered) (he : Step depth d bssid s .checkKeyFrame t) :
    t.Ordered := by
  simp only [Step,step] at he
  split at he
  · rename_i frame pn htask
    obtain ⟨rsn,hrsn,rfl⟩ := Option.map_eq_some_iff.mp he
    obtain ⟨_,_,hc,_⟩ := CryptoRun.step_eapol (ok_of_toOption hrsn)
    obtain ⟨_,hptk,_⟩ := CryptoState.handleEapolRetry_ok hc
    have hpend : s.pendingNumbers = pn.toList ++ s.queue.filterMap Prod.snd := by
      cases pn <;> simp [pendingNumbers,htask]
    cases pn with
    | none =>
      refine hs.of_eq ?_ ?_ le_rfl rfl (by simp)
      · simp [pendingNumbers,htask]
      · rw [counter,hptk]
        rfl
    | some pn =>
      rw [Option.toList_some,List.singleton_append] at hpend
      have hlt : s.counter < pn := hs.pending_gt pn (by rw [hpend]; exact List.mem_cons_self)
      obtain ⟨hval,hcounter⟩ := validateOuter_some hlt
      have hsorted := hs.pending_sorted
      rw [hpend] at hsorted
      obtain ⟨hfirst,hrest⟩ := List.pairwise_cons.mp hsorted
      have hnew : rsn.state.securityAssociations.ptksa.replayCounter = pn := by
        rw [hptk]
        exact hcounter
      refine ⟨hrest,?_,?_,?_,hs.delivered_le,hs.delivered_nodup,?_,?_⟩
      · intro n hn
        rw [counter,hnew]
        exact hfirst n hn
      · intro n hn
        exact hs.pending_le n (by rw [hpend]; exact List.mem_cons_of_mem _ hn)
      · rw [counter,hnew]
        exact hs.pending_le pn (by rw [hpend]; exact List.mem_cons_self)
      · have h := hs.delivered_perm
        rw [hpend] at h
        simpa [pendingNumbers] using h
      · intro p hp
        rcases List.mem_append.mp hp with h | h
        · exact hs.passed p h
        · rw [List.mem_singleton.mp h]
          exact hval
  · cases he

theorem step_ordered (hs : s.Ordered) {op : ReplayOp F} (hno : s.NoOvertaking op)
    (he : Step depth d bssid s op t) : t.Ordered := by
  cases op with
  | receiveData pn => exact hs.receiveData_ordered (hno pn rfl) he
  | receiveGroupData keyId pn =>
    simp only [Step,step] at he
    obtain ⟨rsn,hrsn,rfl⟩ := Option.map_eq_some_iff.mp he
    cases ok_of_toOption hrsn
    have hptk := validateData_group s.rsn.state keyId pn
    exact hs.of_eq rfl (congrArg (fun a => a.replayCounter) hptk) le_rfl rfl rfl
  | receiveKeyFrame frame pn => exact hs.receiveKeyFrame_ordered he
  | takeKeyFrame =>
    simp only [Step,step] at he
    split at he
    · rename_i frame pn queue htask hqueue
      cases he
      refine hs.of_eq ?_ rfl le_rfl rfl rfl
      cases pn <;> simp [pendingNumbers,htask,hqueue]
    · cases he
  | checkKeyFrame => exact hs.checkKeyFrame_ordered he
  | replySent =>
    simp only [Step,step] at he
    split at he
    · rename_i htask
      cases he
      exact hs.of_eq (by simp [pendingNumbers,htask]) rfl le_rfl rfl rfl
    · cases he

end Ordered

/-- Without overtaking, every delivered frame is checked exactly once, or is still on its
way to the check, and every check passes. -/
theorem in_order_frames_pass_once {slots : KeySlots} {ptk : Bytes 48} {gtk : Bytes 16}
    {gtkId : Fin 4} {m : Message3Replay} {rsn : CryptoRun} {ops : List (ReplayOp F)}
    (hrsn : CryptoRun.start slots bssid ptk gtk gtkId m = .ok rsn)
    (hr : Runs (Guarded NoOvertaking (Step depth d bssid)) (start rsn) ops s) :
    (∀ p ∈ s.checked, p.2 = true) ∧ (s.checked.map Prod.fst ++ s.pendingNumbers).Nodup ∧
      s.delivered.Perm (s.checked.map Prod.fst ++ s.pendingNumbers) := by
  have hs : s.Ordered := hr.invariant (I := Ordered) (fun _ _ _ h he => h.step_ordered he.1 he.2)
    (Ordered.start_ordered (by rw [(CryptoRun.start_ptk hrsn).2]; rfl))
  exact ⟨hs.passed,hs.delivered_perm.nodup hs.delivered_nodup,hs.delivered_perm⟩

/-- Data frame 6 is checked while key frame 5 waits for a scratch buffer, so the check
of frame 5 fails although both arrived in order. -/
theorem in_order_key_frame_rejected :
    let d : KeyFrameDecoder GroupMessage1 := ⟨fun _ => true,fun m _ _ => some m,fun _ _ _ => none⟩
    ∃ rsn, CryptoRun.start .lowest 0 0 0 1 ⟨0,0,2⟩ = .ok rsn ∧
    ∃ s : ReplaySystem GroupMessage1, Runs (Step 4 d 0) (start rsn)
      [.receiveKeyFrame ⟨3,0,1,2,0⟩ (some 5),.takeKeyFrame,.receiveData 6,.checkKeyFrame] s ∧
    s.delivered = [5,6] ∧ s.checked = [(6,true),(5,false)] ∧ s.pendingNumbers = [] := by
  intro d
  refine ⟨_,rfl,?_⟩
  apply Runs.exists_of_execute (fun _ _ _ h => h) (fun s => s.delivered = [5,6] ∧
    s.checked = [(6,true),(5,false)] ∧ s.pendingNumbers = [])
  · decide
  · exact fun _ _ h => h

instance (s : ReplaySystem F) (op : ReplayOp F) : Decidable (s.NoOvertaking op) :=
  match op with
  | .receiveData _ => decidable_of_iff (s.pendingNumbers = [])
      ⟨fun h _ _ => h,fun h => h _ rfl⟩
  | .receiveGroupData _ _ => .isTrue nofun
  | .receiveKeyFrame _ _ => .isTrue nofun
  | .takeKeyFrame => .isTrue nofun
  | .checkKeyFrame => .isTrue nofun
  | .replySent => .isTrue nofun

/-- The same frames, with the key frame checked before the data frame arrives. -/
theorem in_order_frames_pass_once_drained :
    let d : KeyFrameDecoder GroupMessage1 := ⟨fun _ => true,fun m _ _ => some m,fun _ _ _ => none⟩
    ∃ rsn, CryptoRun.start .lowest 0 0 0 1 ⟨0,0,2⟩ = .ok rsn ∧
    ∃ s : ReplaySystem GroupMessage1, Runs (Guarded NoOvertaking (Step 4 d 0)) (start rsn)
      [.receiveKeyFrame ⟨3,0,1,2,0⟩ (some 5),.takeKeyFrame,.checkKeyFrame,.receiveData 6] s ∧
    s.checked.map Prod.fst = [5,6] ∧ ∀ p ∈ s.checked, p.2 = true := by
  intro d
  have hstart : CryptoRun.start .lowest 0 0 0 1 ⟨0,0,2⟩ = .ok _ := rfl
  refine ⟨_,hstart,?_⟩
  apply Runs.exists_of_execute (Runs.guarded_of_nextGuarded (fun _ _ _ h => h))
    (fun s => s.checked.map Prod.fst = [5,6])
  · decide
  · intro s hr hchecked
    exact ⟨hchecked,(in_order_frames_pass_once hstart hr).1⟩

end Preservation
end ReplaySystem
end FerrisOnAir.Rsn

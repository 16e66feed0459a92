import FerrisOnAir.Sta.ConnectionAtomicity

/-! # Attempts as steps of the station

Seen from the station an attempt stutters from await to await. What it does in between is
the start of its operation, the end of the connection setup or its failure, each of them
one step of `StaSystem`: leaving the scope of `run` at any of its awaits is `abort`.
-/
namespace FerrisOnAir.Sta.ConnectSystem
open Lmac Rsn Util Tx
variable {n N : ℕ} {F C P E : Type*} [Zero C] [NeZero N]
variable {k : ConnectConfig n F} {s t u : ConnectSystem n N F C P E}

theorem txDrop_sta (op : TxOp N C P E) : (s.txDrop op).sta = s.sta := by
  rw [txDrop_frame]

theorem drop_ofTx_sta {g : ScopeGuard N} (hg : ofTx g = true) : (s.drop k g).sta = s.sta := by
  cases g with
  | txBuffer i => exact txDrop_sta _
  | pendingTransmission g => exact txDrop_sta _
  | _ => cases hg

theorem unwind_ofTx_sta {inner : List (ScopeGuard N)} (h : inner.all ofTx = true) :
    (unwind (drop k) s inner).sta = s.sta := by
  induction inner with
  | nil => rfl
  | cons g inner ih =>
    obtain ⟨hg,hinner⟩ := Bool.and_eq_true_iff.mp h
    rw [unwind_cons,drop_ofTx_sta hg]
    exact ih hinner

theorem unwind_keySlots_sta (slots : List ℕ) :
    (unwind (drop k) s (slots.map .keySlot)).sta =
      { s.sta with keySlots := s.sta.keySlots.releaseAll slots } := by
  induction slots with
  | nil => rfl
  | cons i slots ih =>
    rw [List.map_cons,unwind_cons]
    change { (unwind (drop k) s (slots.map .keySlot)).sta with
      keySlots := (unwind (drop k) s (slots.map .keySlot)).sta.keySlots.releaseKeySlot i } = _
    rw [ih,← KeySlotManager.releaseKeySlot_releaseAll]

/-- The station behind the scope of `run`. -/
theorem leave_sta (s : ConnectSystem n N F C P E) (result : AttemptResult) {g : ScopeGuard N}
    (hg : g = .startOperation ∨ g = .routerOperation) (slots : List ℕ)
    (inner : List (ScopeGuard N)) (hinner : inner.all ofTx = true) :
    (s.leave k result ([.connectionOperation,.bringupOperation,g] ++ slots.map .keySlot ++
      inner)).sta = { s.sta.clearFilters with
        channelState := s.sta.channelState.unlockChannel k.interface
        keySlots := s.sta.keySlots.releaseAll slots
        control := .idle } := by
  have hslots : (unwind (drop k) s (slots.map .keySlot ++ inner)).sta =
      { s.sta with keySlots := s.sta.keySlots.releaseAll slots } := by
    rw [unwind_append,unwind_keySlots_sta,unwind_ofTx_sta hinner]
  have hg' : (unwind (drop k) s (g :: (slots.map .keySlot ++ inner))).sta =
      { s.sta with keySlots := s.sta.keySlots.releaseAll slots } := by
    rw [← hslots]
    rcases hg with rfl | rfl <;> rfl
  rw [leave,List.append_assoc]
  simp only [List.cons_append,List.nil_append,unwind_cons,drop] at hg' ⊢
  rw [hg']
  rfl

/-- The station takes a step or none. -/
def Refines (k : ConnectConfig n F) (s t : ConnectSystem n N F C P E) : Prop :=
  t.sta = s.sta ∨ ∃ op, StaSystem.Step k.toStaConfig s.sta op t.sta

omit [Zero C] [NeZero N] in
theorem Refines.of_sta (hu : u.sta = s.sta) (h : Refines k u t) : Refines k s t := by
  unfold Refines at h ⊢
  rwa [hu] at h

section Attempts

/-- `run` is left behind its `join`. -/
theorem leave_refines {attempt : Attempt} {slots : Option KeySlots} {result : AttemptResult}
    {inner : List (ScopeGuard N)} (hctl : s.sta.control = .handshaking attempt slots)
    (hinner : inner.all ofTx = true) :
    Refines k s (s.leave k result (s.runGuards ++ inner)) := by
  refine Or.inr ⟨.failConnect,?_⟩
  rw [runGuards,leave_sta s result (Or.inr rfl) _ inner hinner,StaSystem.attemptSlots_handshaking hctl]
  simp only [StaSystem.Step,StaSystem.step,hctl]
  rfl

/-- `run` is left in its `join`. -/
theorem leave_join_refines {attempt : Attempt} {started completed : Bool} {result : AttemptResult}
    (hctl : s.sta.control = .starting attempt) :
    Refines k s (s.leave k result (s.guards (.join started completed))) := by
  refine Or.inr ⟨.failConnect,?_⟩
  have hsta : (s.leave k result (s.guards (.join started completed))).sta =
      s.sta.abort k.toStaConfig none := by
    cases started with
    | true => exact leave_sta s result (Or.inr rfl) [] [] rfl
    | false => exact leave_sta s result (Or.inl rfl) [] [] rfl
  rw [hsta]
  simp only [StaSystem.Step,StaSystem.step,hctl]

/-- The key slots of an attempt that fails before its filters are set are free as before. -/
theorem failStart_sta {attempt : Attempt} (hctl : s.sta.control = .starting attempt) (count : ℕ)
    (error : StaError) : ({ s with
      sta := { s.sta with keySlots := (s.sta.keySlots.acquireEach count 5).2 }
      acquired := (s.sta.keySlots.acquireEach count 5).1 }.fail k error
        ((s.sta.keySlots.acquireEach count 5).1.map .keySlot)).sta =
          s.sta.abort k.toStaConfig none := by
  have hnone : s.sta.attemptSlots = [] := by simp only [StaSystem.attemptSlots,hctl]
  unfold fail runGuards
  change (leave k _ _ ([.connectionOperation,.bringupOperation,.routerOperation] ++
    s.sta.attemptSlots.map .keySlot ++ _)).sta = _
  rw [hnone,List.map_nil,List.append_nil]
  have h := leave_sta (k := k) { s with
      sta := { s.sta with keySlots := (s.sta.keySlots.acquireEach count 5).2 }
      acquired := (s.sta.keySlots.acquireEach count 5).1 } (.failed error)
    (g := .routerOperation) (Or.inr rfl) (s.sta.keySlots.acquireEach count 5).1 [] rfl
  rw [List.append_nil] at h
  rw [h]
  simp only [KeySlotManager.acquireEach_released]
  rfl

theorem startOperation_refines {pskValid : Bool} (he : s.startOperation k pskValid = some t) :
    Refines k s t := by
  unfold ConnectSystem.startOperation at he
  split at he
  · rename_i attempt hctl
    refine Or.inr ⟨.startOperation pskValid,?_⟩
    simp only [StaSystem.Step,StaSystem.step,hctl,StaSystem.startOperation]
    by_cases hsecured : attempt.bss.securityConfig ≠ .openNetwork ∧ attempt.credentials = true
    · rw [if_pos hsecured] at he ⊢
      cases pskValid with
      | false =>
        cases he
        rw [failStart_sta hctl]
        cases s.sta.keySlots.acquireKeySlots k.keySlotCount 5 <;> rfl
      | true =>
        cases ha : s.sta.keySlots.acquireKeySlots k.keySlotCount 5 with
        | none =>
          simp only [ha,if_true] at he ⊢
          cases he
          rw [failStart_sta hctl]
        | some a =>
          simp only [ha,if_true] at he ⊢
          cases he
          simp only [configureRxFilters,await,StaSystem.configureRxFilters,
            KeySlotManager.acquireEach_of_acquired ha]
    · rw [if_neg hsecured] at he ⊢
      cases he
      rfl
  · cases he

theorem finish_refines {handshake : Handshake} (he : s.finish k handshake = some t) :
    Refines k s t := by
  unfold ConnectSystem.finish at he
  split at he
  · rename_i attempt slots hctl
    split at he
    · cases he
    · rename_i sta hsta
      cases he
      refine Or.inr ⟨.finishConnect handshake,?_⟩
      simp only [StaSystem.Step,StaSystem.step,hctl,hsta]
      rfl
  · cases he

omit [Zero C] [NeZero N] in
theorem receive_sta (he : s.receive k = some t) : t.sta = s.sta := by
  obtain ⟨router,_,rfl⟩ := Option.map_eq_some_iff.mp he
  rfl

omit [Zero C] [NeZero N] in
theorem transition_sta {operation : StaRxRouterOperation}
    (he : s.transition k operation = some t) : t.sta = s.sta := by
  unfold ConnectSystem.transition at he
  split at he
  · obtain ⟨router,_,rfl⟩ := Option.map_eq_some_iff.mp he
    rfl
  · cases he

theorem txStep_sta {op : TxOp N C P E} (he : s.txStep op = some t) : t.sta = s.sta := by
  obtain ⟨tx,_,rfl⟩ := Option.map_eq_some_iff.mp he
  rfl

theorem allocTxBuf_sta {i : Fin N} (he : s.allocTxBuf = some (i,t)) : t.sta = s.sta := by
  unfold ConnectSystem.allocTxBuf at he
  split at he
  · cases he
  · obtain ⟨u,hu,hiu⟩ := Option.map_eq_some_iff.mp he
    cases hiu
    exact txStep_sta hu

theorem transmitEdca_sta {i : Fin N} {length g : ℕ} {p : P}
    (he : s.transmitEdca k i length p = some (g,t)) : t.sta = s.sta := by
  obtain ⟨u,hu,hiu⟩ := Option.map_eq_some_iff.mp he
  cases hiu
  exact txStep_sta hu

theorem sendFrame_sta {frame : C × ℕ} {p : P} {g : ℕ}
    (he : s.sendFrame k frame p = some (g,t)) : t.sta = s.sta := by
  obtain ⟨r,hr,he⟩ := Option.bind_eq_some_iff.mp he
  obtain ⟨u,hu,he⟩ := Option.bind_eq_some_iff.mp he
  exact (transmitEdca_sta he).trans ((txStep_sta hu).trans (allocTxBuf_sta hr))

theorem pollCompletion_sta {g : ℕ} {w : Waker} {poll : Poll (Option (TxReturnData N C E))}
    (he : s.pollCompletion k g w = some (poll,t)) : t.sta = s.sta := by
  obtain ⟨u,hu,hiu⟩ := Option.map_eq_some_iff.mp he
  split at hiu
  · cases hiu
    exact txStep_sta hu
  · cases hiu
    exact (txDrop_sta _).trans (txStep_sta hu)

/-- Behind the `join`, what a poll calls keeps the station until the attempt ends. -/
theorem sta_pollRule {attempt : Attempt} {slots : Option KeySlots}
    (hctl : s.sta.control = .handshaking attempt slots) :
    PollRule k (fun _ u => u.sta = s.sta) (Refines k s) where
  receive hu he := (receive_sta he).trans hu
  transition hu he := (transition_sta he).trans hu
  allocTxBuf hu he := (allocTxBuf_sta he).trans hu
  sendFrame hu he := (sendFrame_sta he).trans hu
  transmitEdca hu he := (transmitEdca_sta he).trans hu
  pollCompletion hu he := (pollCompletion_sta he).trans hu
  dropBuffer hu := (drop_ofTx_sta rfl).trans hu
  await _ hu := Or.inl hu
  fail hu hinner :=
    Refines.of_sta hu (leave_refines ((congrArg StaSystem.control hu).trans hctl) hinner)
  finish hu he := Refines.of_sta hu (finish_refines he)

end Attempts

section Steps
variable {op : ConnectOp n N F C P E} {ops : List (ConnectOp n N F C P E)} {channel : ℕ}

theorem pollJoin_refines {started completed offChannelCompleted pskValid : Bool}
    (he : s.pollJoin k started completed offChannelCompleted pskValid = some t) :
    Refines k s t := by
  obtain ⟨router,_,he⟩ := Option.bind_eq_some_iff.mp he
  dsimp only at he
  split at he
  · have hstarted := startOperation_refines he
    exact Refines.of_sta rfl hstarted
  · cases he
    exact Or.inl rfl

omit [Zero C] [NeZero N] in
/-- An operation of the station is one of `StaSystem`, whether or not an attempt begins. -/
theorem staStep_refines {op : StaOp n F} (he : s.staStep k op = some t) : Refines k s t := by
  obtain ⟨sta,hsta,he⟩ := Option.bind_eq_some_iff.mp he
  refine Or.inr ⟨op,?_⟩
  unfold ConnectSystem.begin at he
  split at he
  · obtain ⟨router,_,rfl⟩ := Option.map_eq_some_iff.mp he
    exact hsta
  · cases he
    exact hsta

/-- Where the future is suspended, the station is bringing its interface up. -/
theorem Sound.control (hs : s.Sound) {a : ConnectAwait N} (htask : s.task = some a) :
    if a.isJoin then ∃ attempt, s.sta.control = .starting attempt
    else ∃ attempt slots, s.sta.control = .handshaking attempt slots := by
  unfold Sound at hs
  rw [htask] at hs
  cases a with
  | join started completed => exact hs.starting
  | _ => exact hs.handshaking

theorem poll_refines {a : ConnectAwait N} {event : ConnectEvent C P} (hs : s.Sound)
    (htask : s.task = some a) (he : s.resume k a event = some t) : Refines k s t := by
  have hctl := hs.control htask
  cases a with
  | join started completed =>
    cases event with
    | join offChannelCompleted pskValid => exact pollJoin_refines he
    | _ => cases he
  | _ =>
    obtain ⟨attempt,slots,hctl⟩ := hctl
    exact (sta_pollRule hctl).resume rfl rfl htask he

theorem cancel_refines {a : ConnectAwait N} (hs : s.Sound) (htask : s.task = some a) :
    Refines k s (s.leave k .cancelled (s.guards a)) := by
  have hctl := hs.control htask
  cases a with
  | join started completed =>
    obtain ⟨attempt,hctl⟩ := hctl
    exact leave_join_refines hctl
  | _ =>
    obtain ⟨attempt,slots,hctl⟩ := hctl
    exact leave_refines hctl (guards_ofTx rfl)

/-- The owners of the other key slots, which `StaSystem` does not know. -/
def takesKeySlots : ConnectOp n N F C P E → Bool
  | .otherAcquire => true
  | .otherRelease _ => true
  | _ => false

/-- Every step that leaves the other key slots alone. -/
theorem step_refines (hs : s.Sound) (hop : takesKeySlots op = false) (he : Step k s op t) :
    Refines k s t := by
  unfold Step at he
  cases op with
  | connect attempt r =>
    simp only [step] at he
    split at he
    · have hconnect := staStep_refines he
      exact Refines.of_sta rfl hconnect
    · cases he
  | poll event =>
    obtain ⟨a,ha,he⟩ := Option.bind_eq_some_iff.mp he
    exact poll_refines hs ha he
  | cancel =>
    obtain ⟨a,ha,rfl⟩ := Option.map_eq_some_iff.mp he
    exact cancel_refines hs ha
  | sta op =>
    simp only [step] at he
    split at he
    · exact staStep_refines he
    · cases he
  | router op =>
    simp only [step] at he
    split at he
    · cases he
    · obtain ⟨router,_,rfl⟩ := Option.map_eq_some_iff.mp he
      exact Or.inl rfl
  | tx op =>
    simp only [step] at he
    split at he
    · obtain ⟨tx,_,rfl⟩ := Option.map_eq_some_iff.mp he
      exact Or.inl rfl
    · cases he
  | otherSetKey i =>
    simp only [step] at he
    split at he
    · cases he
      exact Or.inl rfl
    · cases he
  | otherAcquire => cases hop
  | otherRelease i => cases hop

/-- With nobody else at the key slots the station takes a run of `StaSystem`, whatever its
attempts do between their awaits and wherever they are dropped. -/
theorem runs_refine (hr : Runs (Guarded (fun _ op => takesKeySlots op = false) (Step k))
    (new channel) ops s) :
    ∃ staOps, Runs (StaSystem.Step k.toStaConfig) (StaSystem.new channel) staOps s.sta := by
  refine hr.refined (f := ConnectSystem.sta) (I := Sound) ?_ ?_ new_sound
  · rintro s op t hs ⟨_,he⟩
    exact (step_concluded hs he).1
  · rintro s op t hs ⟨hop,he⟩
    exact step_refines hs hop he

/-- The attempt for a secured network is dropped while it awaits its authentication frame, with
all five key slots taken. -/
theorem runs_refine_cancelled :
    let k : ConnectConfig 2 Unit := ⟨⟨0,0,fun _ => true,10,
      ⟨fun _ => false,fun _ _ _ => none,fun _ _ _ => none⟩⟩,fun _ => none,1,0⟩
    ∃ s : ConnectSystem 2 1 Unit Unit Unit Unit, Runs
      (Guarded (fun _ op => takesKeySlots op = false) (Step k)) (new 1)
      [.connect ⟨⟨0,1,.wpa2⟩,true⟩ 3,.poll (.join true true),.poll (.buffer (some ((),0)) ()),
        .cancel] s ∧
      s.acquired = [0,1,2,3,4] ∧ ∃ staOps,
        Runs (StaSystem.Step k.toStaConfig) (StaSystem.new 1) staOps s.sta := by
  intro k
  apply Runs.exists_of_execute (Runs.guarded_of_nextGuarded fun _ _ _ h => h)
    (fun s => s.acquired = [0,1,2,3,4])
  · decide
  · exact fun s hr hacquired => ⟨hacquired,runs_refine hr⟩

end Steps

end FerrisOnAir.Sta.ConnectSystem

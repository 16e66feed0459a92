import FerrisOnAir.Foundation.Runs
import FerrisOnAir.Rsn.SecurityAssociation

/-! # Installed keys and their receive floors over whole runs

The receive side of one `CryptoState`: protected data frames checked by the routing
task and EAPOL frames handled by the connection task, in any order. Each step does
at most one of two things to a key: it accepts a packet number above the floor, or
it puts other key bytes in its place and programs the slot.
-/
namespace FerrisOnAir.Rsn
variable {F : Type*}

structure CryptoRun where
  state : CryptoState
  accepted : List (KeyRef × ℕ)
  programmed : List SetKey

inductive RxEvent (F : Type*)
  | data (isGroup : Bool) (keyId packetNumber : ℕ)
  | eapol (frame : F) (packetNumber : Option ℕ)

/-- The association a protected data frame is checked against. -/
def dataRef (isGroup : Bool) (keyId : ℕ) : KeyRef :=
  if isGroup then .group (Fin.ofNat 4 keyId) else .pairwise

namespace CryptoRun

/-- The state `connect` inserts after the 4-way handshake. -/
def start (slots : KeySlots) (bssid : Bytes 6) (ptk : Bytes 48) (gtk : Bytes 16) (gtkId : Fin 4)
    (message3Replay : Message3Replay) : Except RsnPanic CryptoRun :=
  match CryptoState.new slots bssid (.established ptk gtk gtkId) message3Replay with
  | .error e => .error e
  | .ok (s,commands) => .ok ⟨s,[],commands⟩

/-- The packet number an EAPOL frame gets accepted under the PTK. -/
def outerAccepted (c : CryptoState) : Option ℕ → List (KeyRef × ℕ)
  | none => []
  | some pn => if (c.validateOuter (some pn)).1 then [(.pairwise,pn)] else []

def step (d : KeyFrameDecoder F) (bssid : Bytes 6) (s : CryptoRun) :
    RxEvent F → Except RsnPanic CryptoRun
  | .data isGroup keyId pn =>
    let r := s.state.validateData isGroup keyId pn
    .ok { s with
      state := r.2
      accepted := s.accepted ++ if r.1 then [(dataRef isGroup keyId,pn)] else [] }
  | .eapol frame packetNumber =>
    match s.state.handleEapolRetry d bssid frame packetNumber with
    | .error e => .error e
    | .ok (state,commands,_) => .ok {
        state := state
        accepted := s.accepted ++ outerAccepted s.state packetNumber
        programmed := s.programmed ++ commands }

def Step (d : KeyFrameDecoder F) (bssid : Bytes 6) (s : CryptoRun) (e : RxEvent F)
    (t : CryptoRun) : Prop :=
  s.step d bssid e = .ok t

def association (s : CryptoRun) (r : KeyRef) : Option (TransientKeySecurityAssociation r.length) :=
  s.state.securityAssociations.association r

/-- The packet numbers accepted under a key reference. -/
def acceptedFor (s : CryptoRun) (r : KeyRef) : List ℕ :=
  (s.accepted.filter (fun p => p.1 = r)).map Prod.snd

/-- The keys written to the hardware slot of a key reference. -/
def programmedFor (s : CryptoRun) (r : KeyRef) : List (Bytes 16) :=
  (s.programmed.filter (fun c => c.keySlot = s.state.slots.keySlot r)).map SetKey.key

/-- The key bytes `key` are installed. -/
def Installed (r : KeyRef) (key : Bytes r.length) (s : CryptoRun) : Prop :=
  ∃ a, s.association r = some a ∧ a.key = key

instance (r : KeyRef) (key : Bytes r.length) : DecidablePred (Installed r key) := fun s =>
  decidable_of_iff ((s.association r).any (fun a => decide (a.key = key)) = true) (by
    simp [Installed,Option.any_eq_true])

/-- The replay counter of an installed key. -/
def floor (s : CryptoRun) (r : KeyRef) : ℕ := (s.association r).elim 0 (fun a => a.replayCounter)

/-- What a step may do to one association. -/
inductive Change (r : KeyRef) (s t : CryptoRun) : Prop
  | kept (hassoc : t.association r = s.association r) (hacc : t.acceptedFor r = s.acceptedFor r)
      (hprog : t.programmedFor r = s.programmedFor r)
  | advanced (pn : ℕ) (a : TransientKeySecurityAssociation r.length)
      (hassoc : s.association r = some a) (hlt : a.replayCounter < pn)
      (hnew : t.association r = some { a with replayCounter := pn })
      (hacc : t.acceptedFor r = s.acceptedFor r ++ [pn])
      (hprog : t.programmedFor r = s.programmedFor r)
  | installed (a : TransientKeySecurityAssociation r.length) (hnew : t.association r = some a)
      (hother : ¬ Installed r a.key s) (hacc : t.acceptedFor r = s.acceptedFor r)
      (hprog : t.programmedFor r = s.programmedFor r ++ [tk a.key])

section Step
variable {d : KeyFrameDecoder F} {bssid : Bytes 6} {s t u : CryptoRun}

theorem acceptedFor_append {r' : KeyRef} {pn : ℕ} (h : t.accepted = s.accepted ++ [(r',pn)])
    (r : KeyRef) : t.acceptedFor r = s.acceptedFor r ++ if r' = r then [pn] else [] := by
  unfold acceptedFor
  by_cases hr : r' = r <;> simp [h,hr]

/-- A packet number checked against one association does not concern the others. -/
theorem checked_change {q : KeyRef} {pn : ℕ} {a : TransientKeySecurityAssociation q.length}
    (ha : s.association q = some a)
    (hnew : t.association q = some (a.updateAndValidateReplayCounter pn).2)
    (hacc : t.accepted = s.accepted ++
      if (a.updateAndValidateReplayCounter pn).1 then [(q,pn)] else []) {r : KeyRef}
    (hframe : r ≠ q → t.association r = s.association r)
    (hprog : t.programmedFor r = s.programmedFor r) : Change r s t := by
  by_cases hlt : a.replayCounter < pn
  · rw [TransientKeySecurityAssociation.updateAndValidate_of_lt hlt] at hnew hacc
    have happ := acceptedFor_append (by simpa using hacc) r
    by_cases hr : r = q
    · subst hr
      exact .advanced pn a ha hlt hnew (by rw [happ,if_pos rfl]) hprog
    · exact .kept (hframe hr) (by rw [happ,if_neg (Ne.symm hr),List.append_nil]) hprog
  · rw [TransientKeySecurityAssociation.updateAndValidate_of_le (Nat.not_lt.mp hlt)] at hnew hacc
    have hsame : t.accepted = s.accepted := by simpa using hacc
    refine .kept ?_ (by rw [acceptedFor,acceptedFor,hsame]) hprog
    by_cases hr : r = q
    · subst hr
      rw [hnew,ha]
    · exact hframe hr

theorem setGroupKey_association {c : CryptoState} {i : Fin 4}
    {a : TransientKeySecurityAssociation 16} {r : KeyRef} (hr : r ≠ .group i) :
    (c.setGroupKey i a).securityAssociations.association r =
      c.securityAssociations.association r := by
  cases r with
  | pairwise => rfl
  | group j =>
    have hj : j ≠ i := fun h => hr (by rw [h])
    exact Function.update_of_ne hj _ _

theorem data_change {g : Bool} {k pn : ℕ} (he : Step d bssid s (.data g k pn) t) (r : KeyRef) :
    Change r s t := by
  cases he
  unfold CryptoState.validateData
  cases g with
  | true =>
    by_cases hk : k < 4
    · simp only [if_true,dif_pos hk]
      have href : dataRef true k = .group ⟨k,hk⟩ := by
        simp only [dataRef,if_true]
        exact congrArg _ (Fin.ext (Nat.mod_eq_of_lt hk))
      cases ha : s.state.securityAssociations.groupKeys ⟨k,hk⟩ with
      | none => exact .kept rfl (by simp [acceptedFor]) rfl
      | some a =>
        rw [href]
        refine checked_change (q := .group ⟨k,hk⟩) (a := a) ha ?_ rfl setGroupKey_association rfl
        exact Function.update_self ..
    · simp only [if_true,dif_neg hk]
      exact .kept rfl (by simp [acceptedFor]) rfl
  | false =>
    by_cases hk : k = 0
    · simp only [Bool.false_eq_true,if_false,if_pos hk]
      refine checked_change (q := .pairwise) (a := s.state.securityAssociations.ptksa)
        rfl rfl rfl ?_ rfl
      intro hr
      cases r with
      | pairwise => exact absurd rfl hr
      | group i => rfl
    · simp only [Bool.false_eq_true,if_false,if_neg hk]
      exact .kept rfl (by simp [acceptedFor]) rfl

theorem programmedFor_append {commands : List SetKey} (r : KeyRef)
    (hslots : t.state.slots = s.state.slots) (h : t.programmed = s.programmed ++ commands) :
    t.programmedFor r = s.programmedFor r ++
      (commands.filter (fun c => c.keySlot = s.state.slots.keySlot r)).map SetKey.key := by
  simp only [programmedFor,hslots,h,List.filter_append,List.map_append]

theorem step_eapol {frame : F} {packetNumber : Option ℕ}
    (he : Step d bssid s (.eapol frame packetNumber) t) : ∃ commands reply,
      s.state.handleEapolRetry d bssid frame packetNumber = .ok (t.state,commands,reply) ∧
      t.programmed = s.programmed ++ commands ∧
      t.accepted = s.accepted ++ outerAccepted s.state packetNumber := by
  simp only [Step,step] at he
  split at he
  · cases he
  · rename_i hc
    cases he
    exact ⟨_,_,hc,rfl,rfl⟩

theorem eapol_change {frame : F} {packetNumber : Option ℕ}
    (he : Step d bssid s (.eapol frame packetNumber) t) (r : KeyRef) : Change r s t := by
  obtain ⟨commands,reply,hc,hp,hacc⟩ := step_eapol he
  obtain ⟨hslots,hptk,_,htable⟩ := CryptoState.handleEapolRetry_ok hc
  have hprog := programmedFor_append r hslots hp
  have hinj := s.state.slots.keySlot_injective
  cases r with
  | pairwise =>
    have hnone : commands.filter (fun c => c.keySlot = s.state.slots.keySlot .pairwise) = [] := by
      cases htable with
      | kept _ => rfl
      | installed id m _ _ => simp [hinj.ne (show KeyRef.group id ≠ .pairwise by simp)]
    rw [hnone,List.map_nil,List.append_nil] at hprog
    cases packetNumber with
    | none =>
      refine .kept (congrArg some hptk) ?_ hprog
      rw [acceptedFor,hacc,outerAccepted,List.append_nil,acceptedFor]
    | some pn =>
      exact checked_change (q := .pairwise) (a := s.state.securityAssociations.ptksa) rfl
        (congrArg some hptk) hacc (fun h => absurd rfl h) hprog
  | group i =>
    have hsame : t.acceptedFor (.group i) = s.acceptedFor (.group i) := by
      have hnone : (outerAccepted s.state packetNumber).filter (fun p => p.1 = .group i) = [] := by
        cases packetNumber with
        | none => rfl
        | some pn =>
          unfold outerAccepted
          split <;> simp
      rw [acceptedFor,hacc,List.filter_append,hnone,List.append_nil,acceptedFor]
    cases htable with
    | kept hkeys => exact .kept (congrFun hkeys i) hsame (by simpa using hprog)
    | installed id m hother hkeys =>
      by_cases hi : i = id
      · subst hi
        refine .installed _ ((congrFun hkeys i).trans (Function.update_self ..)) ?_ hsame ?_
        · rintro ⟨b,hb,hkey⟩
          change s.state.securityAssociations.groupKeys i = some b at hb
          change b.key = m.key at hkey
          have htrue : s.state.alreadyInstalled i m.key = true := by
            rw [CryptoState.alreadyInstalled,hb]
            exact decide_eq_true hkey
          rw [hother] at htrue
          cases htrue
        · rw [hprog]
          simp [tk,TransientKeySecurityAssociation.new,
            TransientKeySecurityAssociation.withReceiveFloor]
      · have hne : KeyRef.group id ≠ .group i := by simpa using Ne.symm hi
        refine .kept ?_ hsame ?_
        · exact (congrFun hkeys i).trans (Function.update_of_ne hi _ _)
        · rw [hprog]
          simp [hinj.ne hne]

/-- The receive side leaves the key slots and the transmit packet number alone. -/
theorem step_ptk {e : RxEvent F} (he : s.step d bssid e = .ok t) :
    t.state.slots = s.state.slots ∧ t.state.securityAssociations.ptksa.packetNumber =
      s.state.securityAssociations.ptksa.packetNumber := by
  cases e with
  | data g k pn =>
    cases he
    obtain ⟨hslots,_,_,hpn⟩ := s.state.validateData_frame g k pn
    exact ⟨hslots,hpn⟩
  | eapol frame packetNumber =>
    obtain ⟨_,_,hc,_⟩ := step_eapol he
    obtain ⟨hslots,hptk,_⟩ := CryptoState.handleEapolRetry_ok hc
    refine ⟨hslots,?_⟩
    rw [hptk]
    exact (s.state.validateOuter_key packetNumber).2

theorem step_change {e : RxEvent F} (he : Step d bssid s e t) (r : KeyRef) : Change r s t := by
  cases e with
  | data g k pn => exact data_change he r
  | eapol frame packetNumber => exact eapol_change he r

end Step

/-- From `s` to `t` the floor only grows, through packet numbers accepted in increasing
order above it, and the slot is not written. -/
def Advances (r : KeyRef) (s t : CryptoRun) : Prop :=
  s.floor r ≤ t.floor r ∧ t.programmedFor r = s.programmedFor r ∧
    ∃ acc, t.acceptedFor r = s.acceptedFor r ++ acc ∧ acc.Pairwise (· < ·) ∧
      ∀ pn ∈ acc, s.floor r < pn ∧ pn ≤ t.floor r

theorem Advances.refl (r : KeyRef) (s : CryptoRun) : Advances r s s :=
  ⟨le_rfl,rfl,[],(List.append_nil _).symm,.nil,by simp⟩

theorem Advances.trans {r : KeyRef} {s t u : CryptoRun} (h₁ : Advances r s t)
    (h₂ : Advances r t u) : Advances r s u := by
  obtain ⟨hle₁,hp₁,acc₁,ha₁,hs₁,hb₁⟩ := h₁
  obtain ⟨hle₂,hp₂,acc₂,ha₂,hs₂,hb₂⟩ := h₂
  refine ⟨hle₁.trans hle₂,hp₂.trans hp₁,acc₁ ++ acc₂,by rw [ha₂,ha₁,List.append_assoc],?_,?_⟩
  · refine List.pairwise_append.mpr ⟨hs₁,hs₂,?_⟩
    intro x hx y hy
    exact (hb₁ x hx).2.trans_lt (hb₂ y hy).1
  · intro pn hpn
    rcases List.mem_append.mp hpn with h | h
    · exact ⟨(hb₁ pn h).1,(hb₁ pn h).2.trans hle₂⟩
    · exact ⟨hle₁.trans_lt (hb₂ pn h).1,(hb₂ pn h).2⟩

/-- `key` comes into place in state `s`, whose slot had been written with `before`. -/
inductive Installs (d : KeyFrameDecoder F) (bssid : Bytes 6) (r : KeyRef) (key : Bytes r.length) :
    CryptoRun → List (Bytes 16) → Prop
  | start {slots : KeySlots} {ptk : Bytes 48} {gtk : Bytes 16} {gtkId : Fin 4}
      {m : Message3Replay} {s : CryptoRun} (h : CryptoRun.start slots bssid ptk gtk gtkId m = .ok s)
      (hs : Installed r key s) : Installs d bssid r key s []
  | step {s t : CryptoRun} {e : RxEvent F} (h : Step d bssid s e t) (hs : ¬ Installed r key s)
      (ht : Installed r key t) : Installs d bssid r key t (s.programmedFor r)

section Segment
variable {d : KeyFrameDecoder F} {bssid : Bytes 6} {r : KeyRef} {key : Bytes r.length}
  {s t : CryptoRun} {e : RxEvent F} {es : List (RxEvent F)}

theorem Installed.change (hs : Installed r key s) (ht : Installed r key t)
    (he : Step d bssid s e t) :
    (t.association r = s.association r ∧ t.acceptedFor r = s.acceptedFor r ∧
      t.programmedFor r = s.programmedFor r) ∨
    ∃ pn, s.floor r < pn ∧ t.floor r = pn ∧ t.acceptedFor r = s.acceptedFor r ++ [pn] ∧
      t.programmedFor r = s.programmedFor r := by
  cases step_change he r with
  | kept hassoc hacc hprog => exact Or.inl ⟨hassoc,hacc,hprog⟩
  | advanced pn a hassoc hlt hnew hacc hprog =>
    refine Or.inr ⟨pn,?_,?_,hacc,hprog⟩
    · rwa [floor,hassoc]
    · rw [floor,hnew]
      rfl
  | installed a hnew hother hacc hprog =>
    obtain ⟨b,hb,hkey⟩ := ht
    rw [hnew] at hb
    cases hb
    rw [hkey] at hother
    exact absurd hs hother

theorem Installed.advances (hs : Installed r key s) (ht : Installed r key t)
    (he : Step d bssid s e t) : Advances r s t := by
  rcases hs.change ht he with ⟨hassoc,hacc,hprog⟩ | ⟨pn,hlt,hpn,hacc,hprog⟩
  · exact ⟨by rw [floor,floor,hassoc],hprog,[],by rw [hacc,List.append_nil],.nil,by simp⟩
  · refine ⟨by omega,hprog,[pn],hacc,List.pairwise_singleton ..,?_⟩
    rintro n hn
    obtain rfl := List.mem_singleton.mp hn
    exact ⟨hlt,hpn.ge⟩

theorem start_ptk {slots : KeySlots} {ptk : Bytes 48} {gtk : Bytes 16} {gtkId : Fin 4}
    {m : Message3Replay} (h : CryptoRun.start slots bssid ptk gtk gtkId m = .ok s) :
    s.state.slots = slots ∧ s.state.securityAssociations.ptksa = .new ptk 0 := by
  simp only [CryptoRun.start,CryptoState.new_established] at h
  cases h
  exact ⟨rfl,rfl⟩

theorem start_programmedFor {slots : KeySlots} {ptk : Bytes 48} {gtk : Bytes 16} {gtkId : Fin 4}
    {m : Message3Replay} (h : CryptoRun.start slots bssid ptk gtk gtkId m = .ok s)
    (hs : Installed r key s) : s.programmedFor r = [tk key] := by
  simp only [CryptoRun.start,CryptoState.new_established] at h
  cases h
  obtain ⟨a,ha,rfl⟩ := hs
  have hinj := slots.keySlot_injective
  cases r with
  | pairwise =>
    cases ha
    have hne := hinj.ne (show KeyRef.group gtkId ≠ .pairwise by simp)
    simp [programmedFor,hne,SecurityAssociations.established,TransientKeySecurityAssociation.new]
  | group i =>
    change Function.update (fun _ => none) gtkId _ i = some a at ha
    by_cases hi : i = gtkId
    · subst hi
      have hne := hinj.ne (show KeyRef.pairwise ≠ .group i by simp)
      rw [Function.update_self] at ha
      cases ha
      simp [programmedFor,hne,tk,TransientKeySecurityAssociation.new]
    · rw [Function.update_of_ne hi] at ha
      cases ha

theorem Installs.programmedFor {before : List (Bytes 16)} (h : Installs d bssid r key s before) :
    s.programmedFor r = before ++ [tk key] := by
  cases h with
  | start h hs => exact start_programmedFor h hs
  | step h hs ht =>
    cases step_change h r with
    | kept hassoc hacc hprog =>
      obtain ⟨a,ha,hkey⟩ := ht
      exact absurd ⟨a,hassoc.symm.trans ha,hkey⟩ hs
    | advanced pn a hassoc hlt hnew hacc hprog =>
      obtain ⟨b,hb,hkey⟩ := ht
      rw [hnew] at hb
      cases hb
      exact absurd ⟨a,hassoc,hkey⟩ hs
    | installed a hnew hother hacc hprog =>
      obtain ⟨b,hb,hkey⟩ := ht
      rw [hnew] at hb
      cases hb
      rw [hprog,hkey]

/-- While the same key bytes stay installed, their replay counter never drops, packet
numbers are accepted in strictly increasing order above the receive floor and never
twice, a rejection changes nothing, and the hardware slot has been written once. -/
theorem no_key_reinstallation (hr : Runs (Within (Installed r key) (Step d bssid)) s es t) :
    s.floor r ≤ t.floor r ∧
    (∃ acc, t.acceptedFor r = s.acceptedFor r ++ acc ∧ acc.Pairwise (· < ·) ∧
      ∀ pn ∈ acc, s.floor r < pn ∧ ∀ a, t.association r = some a →
        (a.updateAndValidateReplayCounter pn).1 = false) ∧
    (∀ e u, Within (Installed r key) (Step d bssid) t e u →
      (u.acceptedFor r = t.acceptedFor r ∧ u.association r = t.association r) ∨
      ∃ pn, u.acceptedFor r = t.acceptedFor r ++ [pn] ∧ t.floor r < pn ∧ u.floor r = pn) ∧
    t.programmedFor r = s.programmedFor r ∧
    ∀ before, Installs d bssid r key s before → t.programmedFor r = before ++ [tk key] := by
  obtain ⟨hle,hprog,acc,hacc,hsorted,hbound⟩ : Advances r s t :=
    hr.related (Advances.refl r) (fun _ _ _ => Advances.trans)
      (fun _ _ _ h => h.1.advances h.2.2 h.2.1)
  refine ⟨hle,⟨acc,hacc,hsorted,?_⟩,?_,hprog,?_⟩
  · intro pn hpn
    refine ⟨(hbound pn hpn).1,?_⟩
    intro a ha
    have hpn' := (hbound pn hpn).2
    rw [floor,ha] at hpn'
    rw [TransientKeySecurityAssociation.updateAndValidate_of_le hpn']
  · rintro e u ⟨ht,he,hu⟩
    rcases ht.change hu he with ⟨hassoc,hacc,_⟩ | ⟨pn,hlt,hpn,hacc,_⟩
    · exact Or.inl ⟨hacc,hassoc⟩
    · exact Or.inr ⟨pn,hacc,hlt,hpn⟩
  · intro before hb
    rw [hprog,hb.programmedFor]

/-- A second G1 for the installed GTK, with a higher counter and a lower RSC, does not
make packet number 5 acceptable again. -/
theorem no_key_reinstallation_group_retry :
    let d : KeyFrameDecoder GroupMessage1 := ⟨fun _ => true,fun m _ _ => some m,fun _ _ _ => none⟩
    let gtk : Bytes 16 := fun _ => 9
    ∃ s, CryptoRun.start .lowest 0 0 gtk 1 ⟨0,0,2⟩ = .ok s ∧
    ∃ t, Runs (Within (Installed (.group 1) gtk) (Step d 0)) s
      [.data true 1 5,.eapol ⟨3,0,gtk,1,0⟩ (some 1),.data true 1 5] t ∧
    t.programmedFor (.group 1) = [gtk] ∧ t.acceptedFor (.group 1) = [5] := by
  intro d gtk
  have hstart : CryptoRun.start .lowest 0 0 gtk 1 ⟨0,0,2⟩ = .ok _ := rfl
  refine ⟨_,hstart,?_⟩
  apply Runs.exists_of_execute (Runs.within_of_nextWithin (fun _ _ _ => ok_of_toOption))
    (fun t => t.acceptedFor (.group 1) = [5])
  · decide
  · intro t hr hacc
    refine ⟨(no_key_reinstallation hr).2.2.2.2 [] (.start hstart ?_),hacc⟩
    exact ⟨_,rfl,rfl⟩

end Segment
end CryptoRun
end FerrisOnAir.Rsn

import Mathlib

/-! # The channel lock shared by all interfaces

`ChannelState` of `foa/src/lmac/mod.rs` for any number of interfaces. Which channels
the driver accepts is a parameter; an accepted channel is stored. An error does not
undo what happened before it, so every operation returns the state it leaves.
-/
namespace FerrisOnAir.Lmac
variable {n : ℕ}

inductive LMacError
  | invalidChannel
  | channelLockedByOtherInterface
  | offChannelRequestRejected
  | offChannelOperationAlreadyInProgress
deriving DecidableEq

structure ChannelState (n : ℕ) where
  locks : Option ((Fin n → Bool) × ℕ)
  offChannelOperationInterface : Option (Fin n)
  channel : ℕ

namespace ChannelState
variable (valid : ℕ → Bool) (s : ChannelState n)

def new (channel : ℕ) : ChannelState n := ⟨none,none,channel⟩

/-- `ChannelController::set_channel`. -/
def setChannel (channel : ℕ) : Except LMacError Unit × ChannelState n :=
  if valid channel then (.ok (),{ s with channel := channel }) else (.error .invalidChannel,s)

/-- The first half of `lock_channel`: whether the channel changed, and the new locks. -/
def acquireLock (interface : Fin n) (channel : ℕ) :
    Except LMacError (Bool × Option ((Fin n → Bool) × ℕ)) :=
  match s.locks with
  | some (interfaces,lockedChannel) =>
    let alreadyLockedByInterface := interfaces interface
    let sameChannel := lockedChannel == channel
    let interfaceLockCount := (Finset.univ.filter (fun i => interfaces i = true)).card
    if !sameChannel && (!alreadyLockedByInterface || interfaceLockCount > 1) then
      .error .channelLockedByOtherInterface
    else if alreadyLockedByInterface && interfaceLockCount == 1 then
      .ok (true,some (interfaces,channel))
    else if !alreadyLockedByInterface && sameChannel then
      .ok (false,some (Function.update interfaces interface true,lockedChannel))
    else .ok (false,s.locks)
  | none => .ok (true,some (fun i => i == interface,channel))

/-- `ChannelState::lock_channel`. The locks stay changed when the channel is invalid. -/
def lockChannel (interface : Fin n) (channel : ℕ) : Except LMacError Bool × ChannelState n :=
  match s.acquireLock interface channel with
  | .error e => (.error e,s)
  | .ok (changed,locks) =>
    if changed then
      let r := { s with locks := locks }.setChannel valid channel
      (r.1.map (fun _ => true),r.2)
    else (.ok false,{ s with locks := locks })

def unlockChannel (interface : Fin n) : ChannelState n :=
  match s.locks with
  | some (interfaces,channel) =>
    if interfaces interface then
      if ∀ i, Function.update interfaces interface false i = false then { s with locks := none }
      else { s with locks := some (Function.update interfaces interface false,channel) }
    else s
  | none => s

/-- `lock_channel_internal`: a changed channel is set once more. -/
def lockChannelInternal (interface : Fin n) (channel : ℕ) :
    Except LMacError Unit × ChannelState n :=
  let r := s.lockChannel valid interface channel
  match r.1 with
  | .error e => (.error e,r.2)
  | .ok false => (.ok (),r.2)
  | .ok true =>
    let r' := r.2.setChannel valid channel
    match r'.1 with
    | .ok _ => (.ok (),r'.2)
    | .error _ => (.error .invalidChannel,r'.2.unlockChannel interface)

def homeChannel : Option ℕ := s.locks.map Prod.snd

def offChannelOperationInProgress : Bool := s.offChannelOperationInterface.isSome

/-- The interface holds the lock on the channel. -/
def Holds (interface : Fin n) (channel : ℕ) : Prop :=
  ∃ interfaces, s.locks = some (interfaces,channel) ∧ interfaces interface = true

section Lemmas
variable {s}

theorem setChannel_offChannel (c : ℕ) :
    (s.setChannel valid c).2.offChannelOperationInterface = s.offChannelOperationInterface := by
  unfold setChannel
  split <;> rfl

theorem setChannel_locks (c : ℕ) : (s.setChannel valid c).2.locks = s.locks := by
  unfold setChannel
  split <;> rfl

theorem unlockChannel_offChannel (i : Fin n) :
    (s.unlockChannel i).offChannelOperationInterface = s.offChannelOperationInterface := by
  unfold unlockChannel
  split
  · split
    · split <;> rfl
    · rfl
  · rfl

theorem lockChannel_offChannel (i : Fin n) (c : ℕ) :
    (s.lockChannel valid i c).2.offChannelOperationInterface =
      s.offChannelOperationInterface := by
  unfold lockChannel
  split
  · rfl
  · split
    · exact setChannel_offChannel valid c
    · rfl

theorem lockChannelInternal_offChannel (i : Fin n) (c : ℕ) :
    (s.lockChannelInternal valid i c).2.offChannelOperationInterface =
      s.offChannelOperationInterface := by
  have hlock := lockChannel_offChannel valid (s := s) i c
  have hset := (setChannel_offChannel valid c).trans hlock
  unfold lockChannelInternal
  simp only
  split
  · exact hlock
  · exact hlock
  · split
    · exact hset
    · exact (unlockChannel_offChannel i).trans hset

variable {i j : Fin n} {c c' : ℕ}

theorem setChannel_holds (h : s.Holds i c) : (s.setChannel valid c').2.Holds i c := by
  obtain ⟨held,hl,hi⟩ := h
  exact ⟨held,(setChannel_locks valid c').trans hl,hi⟩

omit valid in
theorem lockCount_pos {held : Fin n → Bool} (hi : held i = true) :
    0 < (Finset.univ.filter (fun j => held j = true)).card :=
  Finset.card_pos.mpr ⟨i,by simpa using hi⟩

theorem acquireLock_holds {changed : Bool} {locks : Option ((Fin n → Bool) × ℕ)}
    (h : s.acquireLock i c = .ok (changed,locks)) :
    ∃ held, locks = some (held,c) ∧ held i = true := by
  unfold acquireLock at h
  cases hl : s.locks with
  | none =>
    simp only [hl] at h
    cases h
    exact ⟨_,rfl,by simp⟩
  | some l =>
    obtain ⟨held,locked⟩ := l
    simp only [hl] at h
    cases hi : held i with
    | false =>
      by_cases hc : locked = c
      · have hlocks : changed = false ∧ some (Function.update held i true,c) = locks := by
          simpa [hi,hc] using h
        exact ⟨_,hlocks.2.symm,Function.update_self ..⟩
      · simp [hi,hc] at h
    | true =>
      have hpos := lockCount_pos hi
      by_cases hone : (Finset.univ.filter (fun j => held j = true)).card = 1
      · have hlocks : changed = true ∧ some (held,c) = locks := by simpa [hi,hone] using h
        exact ⟨_,hlocks.2.symm,hi⟩
      · by_cases hc : locked = c
        · have hlocks : changed = false ∧ some (held,c) = locks := by
            simpa [hi,hc,hone] using h
          exact ⟨_,hlocks.2.symm,hi⟩
        · have hmany : 1 < (Finset.univ.filter (fun j => held j = true)).card := by omega
          simp [hi,hc,hmany] at h

/-- Another interface can join the lock, but not move or release it. -/
theorem acquireLock_frame (hne : j ≠ i) (hs : s.Holds i c) {changed : Bool}
    {locks : Option ((Fin n → Bool) × ℕ)} (h : s.acquireLock j c' = .ok (changed,locks)) :
    changed = false ∧ ∃ held, locks = some (held,c) ∧ held i = true := by
  obtain ⟨held,hl,hi⟩ := hs
  unfold acquireLock at h
  simp only [hl] at h
  cases hj : held j with
  | false =>
    by_cases hc : c = c'
    · have hlocks : changed = false ∧ some (Function.update held j true,c') = locks := by
        simpa [hj,hc] using h
      refine ⟨hlocks.1,_,hc ▸ hlocks.2.symm,?_⟩
      rw [Function.update_of_ne (Ne.symm hne)]
      exact hi
    · simp [hj,hc] at h
  | true =>
    have hmany : 1 < (Finset.univ.filter (fun k => held k = true)).card :=
      Finset.one_lt_card.mpr ⟨i,by simpa using hi,j,by simpa using hj,Ne.symm hne⟩
    by_cases hc : c = c'
    · have hlocks : changed = false ∧ some (held,c') = locks := by
        simpa [hj,hc,hmany.ne'] using h
      exact ⟨hlocks.1,held,hc ▸ hlocks.2.symm,hi⟩
    · simp [hj,hc,hmany] at h

theorem lockChannel_holds {changed : Bool} (h : (s.lockChannel valid i c).1 = .ok changed) :
    (s.lockChannel valid i c).2.Holds i c := by
  unfold lockChannel at h ⊢
  split
  · rename_i he
    rw [he] at h
    cases h
  · rename_i locks he
    obtain ⟨held,rfl,hi⟩ := acquireLock_holds he
    split
    · exact setChannel_holds valid ⟨held,rfl,hi⟩
    · exact ⟨held,rfl,hi⟩

theorem lockChannelInternal_holds (h : (s.lockChannelInternal valid i c).1 = .ok ()) :
    (s.lockChannelInternal valid i c).2.Holds i c := by
  unfold lockChannelInternal at h ⊢
  simp only at h ⊢
  split
  · rename_i he
    rw [he] at h
    cases h
  · rename_i he
    exact lockChannel_holds valid he
  · rename_i he
    rw [he] at h
    split
    · exact setChannel_holds valid (lockChannel_holds valid he)
    · rename_i he'
      simp only [he'] at h
      cases h

theorem lockChannel_frame (hne : j ≠ i) (hs : s.Holds i c) :
    (s.lockChannel valid j c').2.Holds i c ∧ (s.lockChannel valid j c').1 ≠ .ok true := by
  unfold lockChannel
  split
  · exact ⟨hs,nofun⟩
  · rename_i he
    obtain ⟨rfl,held,rfl,hi⟩ := acquireLock_frame hne hs he
    exact ⟨⟨held,rfl,hi⟩,by simp⟩

theorem lockChannelInternal_frame (hne : j ≠ i) (hs : s.Holds i c) :
    (s.lockChannelInternal valid j c').2.Holds i c := by
  obtain ⟨hheld,hchanged⟩ := lockChannel_frame valid hne hs
  unfold lockChannelInternal
  simp only
  split
  · exact hheld
  · exact hheld
  · rename_i he
    exact absurd he hchanged

omit valid in
theorem unlockChannel_releases : ¬ (s.unlockChannel i).Holds i c := by
  rintro ⟨held,hl,hi⟩
  unfold unlockChannel at hl
  split at hl
  · split at hl
    · split at hl
      · cases hl
      · cases hl
        rw [Function.update_self] at hi
        cases hi
    · rename_i hlocks hfree
      rw [hlocks] at hl
      cases hl
      exact hfree hi
  · rename_i hlocks
    rw [hlocks] at hl
    cases hl

theorem unlockChannel_frame (hne : j ≠ i) (hs : s.Holds i c) : (s.unlockChannel j).Holds i c := by
  obtain ⟨held,hl,hi⟩ := hs
  have hi' : Function.update held j false i = true := by
    rw [Function.update_of_ne (Ne.symm hne)]
    exact hi
  unfold unlockChannel
  simp only [hl]
  split
  · split
    · rename_i hall
      rw [hall i] at hi'
      cases hi'
    · exact ⟨_,rfl,hi'⟩
  · exact ⟨held,hl,hi⟩

end Lemmas
end ChannelState
end FerrisOnAir.Lmac

import FerrisOnAir.Lmac.OffChannel

/-! # The channel lock over whole runs

Locks, bringup operations, off channel operations and resets of all interfaces in any
order. The lock names the home channel; the hardware may leave it only while an off
channel operation is alive, whose drop brings it back.
-/
namespace FerrisOnAir.Lmac
variable {n : ℕ}

structure ChannelSystem (n : ℕ) where
  offChannel : OffChannelSystem n
  bringups : List (Fin n)

inductive ChannelOp (n : ℕ)
  | offChannel (op : OffChannelOp n)
  | beginBringup (interface : Fin n) (channel : ℕ)
  | completeBringup (k : ℕ)
  | dropBringup (k : ℕ)
  | reset (interface : Fin n)

namespace ChannelState
variable {valid : ℕ → Bool} {s : ChannelState n} {i j : Fin n} {c : ℕ}

/-- A lock keeps the channel unless it reports a change. -/
theorem acquireLock_unchanged {locks : Option ((Fin n → Bool) × ℕ)}
    (h : s.acquireLock i c = .ok (false,locks)) : s.homeChannel = some c := by
  unfold acquireLock at h
  unfold homeChannel
  cases hl : s.locks with
  | none =>
    simp only [hl] at h
    cases h
  | some l =>
    obtain ⟨held,locked⟩ := l
    simp only [hl] at h
    by_cases hc : locked = c
    · rw [hc]
      rfl
    · cases hi : held i with
      | false => simp [hi,hc] at h
      | true =>
        have hpos := lockCount_pos hi
        by_cases hone : (Finset.univ.filter (fun j => held j = true)).card = 1
        · simp [hi,hone] at h
        · have hmany : 1 < (Finset.univ.filter (fun j => held j = true)).card := by omega
          simp [hi,hc,hmany] at h

/-- A lock is refused exactly if another interface holds it on another channel. -/
theorem acquireLock_ok_iff (hs : ∀ held ch, s.locks = some (held,ch) → ∃ i, held i = true) :
    (∃ r, s.acquireLock i c = .ok r) ↔
      (∀ j ch, j ≠ i → ¬ s.Holds j ch) ∨ s.homeChannel = some c := by
  unfold acquireLock homeChannel Holds
  cases hl : s.locks with
  | none => simp
  | some l =>
    obtain ⟨held,locked⟩ := l
    obtain ⟨k,hk⟩ := hs held locked hl
    have hother : (∀ j ch, j ≠ i → ¬ ∃ interfaces, some (held,locked) = some (interfaces,ch) ∧
        interfaces j = true) ↔ ∀ j, j ≠ i → held j = false := by
      constructor
      · intro h j hj
        cases hb : held j with
        | false => rfl
        | true => exact absurd ⟨held,rfl,hb⟩ (h j locked hj)
      · rintro h j ch hj ⟨_,⟨⟩,hb⟩
        rw [h j hj] at hb
        cases hb
    rw [hother]
    simp only [Option.map_some,Option.some.injEq]
    by_cases hc : locked = c
    · subst hc
      cases hi : held i with
      | false => simp
      | true =>
        by_cases hone : (Finset.univ.filter (fun j => held j = true)).card = 1
        · simp [hone]
        · simp [hone]
    · simp only [hc,or_false]
      constructor
      · rintro ⟨r,h⟩ j hj
        cases hb : held j with
        | false => rfl
        | true =>
          cases hi : held i with
          | false => simp [hi,hc] at h
          | true =>
            have hmany : 1 < (Finset.univ.filter (fun k => held k = true)).card :=
              Finset.one_lt_card.mpr ⟨i,by simpa using hi,j,by simpa using hb,Ne.symm hj⟩
            simp [hi,hc,hmany] at h
      · intro h
        have hki : k = i := by
          by_contra hne
          rw [h k hne] at hk
          cases hk
        rw [hki] at hk
        have hone : (Finset.univ.filter (fun j => held j = true)) = {i} := by
          ext j
          simp only [Finset.mem_filter,Finset.mem_univ,true_and,Finset.mem_singleton]
          constructor
          · intro hj
            by_contra hne
            rw [h j hne] at hj
            cases hj
          · rintro rfl
            exact hk
        simp [hone,hk]

/-- A lock on a channel that the driver accepts. -/
theorem lockChannelInternal_valid (hv : valid c = true) :
    (∃ e, s.acquireLock i c = .error e ∧ s.lockChannelInternal valid i c = (.error e,s)) ∨
    ∃ changed locks, s.acquireLock i c = .ok (changed,locks) ∧
      s.lockChannelInternal valid i c = (.ok (),{ s with
        locks := locks
        channel := if changed then c else s.channel }) := by
  unfold lockChannelInternal lockChannel
  cases h : s.acquireLock i c with
  | error e => exact Or.inl ⟨e,rfl,rfl⟩
  | ok r =>
    obtain ⟨changed,locks⟩ := r
    refine Or.inr ⟨changed,locks,rfl,?_⟩
    cases changed with
    | true => simp [setChannel,hv,Except.map]
    | false => simp

theorem unlockChannel_locks {held : Fin n → Bool} {ch : ℕ}
    (hs : ∀ held ch, s.locks = some (held,ch) → ∃ i, held i = true)
    (h : (s.unlockChannel i).locks = some (held,ch)) :
    (∃ i, held i = true) ∧ s.homeChannel = some ch := by
  unfold unlockChannel at h
  unfold homeChannel
  cases hl : s.locks with
  | none => simp [hl] at h
  | some l =>
    obtain ⟨held',ch'⟩ := l
    simp only [hl] at h
    split at h
    · split at h
      · cases h
      · rename_i hall
        cases h
        refine ⟨?_,rfl⟩
        by_contra hnone
        apply hall
        intro k
        by_contra hk
        exact hnone ⟨k,by simpa using hk⟩
    · rw [hl] at h
      cases h
      exact ⟨hs _ _ hl,rfl⟩

theorem unlockChannel_channel : (s.unlockChannel i).channel = s.channel := by
  unfold unlockChannel
  split
  · split
    · split <;> rfl
    · rfl
  · rfl

end ChannelState

namespace OffChannelSystem
variable {valid : ℕ → Bool} {s t : OffChannelSystem n} {op : OffChannelOp n}

/-- A lock has a holder and an accepted channel, on which the hardware is while no off
channel operation is alive. -/
def LockValid (valid : ℕ → Bool) (s : OffChannelSystem n) : Prop :=
  ∀ held ch, s.channelState.locks = some (held,ch) →
    (∃ i, held i = true) ∧ valid ch = true ∧ (s.live = [] → s.channelState.channel = ch)

theorem LockValid.held (hs : LockValid valid s) (held : Fin n → Bool) (ch : ℕ)
    (h : s.channelState.locks = some (held,ch)) : ∃ i, held i = true := (hs held ch h).1

theorem LockValid.congr (hs : LockValid valid s)
    (hlocks : t.channelState.locks = s.channelState.locks)
    (hlive : t.live = [] → s.live = [] ∧ t.channelState.channel = s.channelState.channel) :
    LockValid valid t := by
  intro held ch h
  rw [hlocks] at h
  obtain ⟨hheld,hvalid,hchannel⟩ := hs held ch h
  refine ⟨hheld,hvalid,?_⟩
  intro ht
  obtain ⟨hs,hc⟩ := hlive ht
  rw [hc]
  exact hchannel hs

theorem LockValid.lock (hs : LockValid valid s) {i : Fin n} {c : ℕ} (hv : valid c = true) :
    LockValid valid { s with
      channelState := (s.channelState.lockChannelInternal valid i c).2 } := by
  rcases ChannelState.lockChannelInternal_valid (s := s.channelState) (i := i) hv with
    ⟨e,_,hlock⟩ | ⟨changed,locks,hacq,hlock⟩
  · rw [hlock]
    exact hs
  · rw [hlock]
    intro held ch h
    obtain ⟨held',hlocks,hi⟩ := ChannelState.acquireLock_holds hacq
    change locks = some (held,ch) at h
    rw [hlocks] at h
    cases h
    refine ⟨⟨i,hi⟩,hv,?_⟩
    intro hlive
    cases changed with
    | true => rfl
    | false =>
      obtain ⟨⟨held,locked⟩,hl,rfl⟩ :=
        Option.map_eq_some_iff.mp (ChannelState.acquireLock_unchanged hacq)
      exact (hs held locked hl).2.2 hlive

theorem LockValid.unlock (hs : LockValid valid s) (i : Fin n) :
    LockValid valid { s with channelState := s.channelState.unlockChannel i } := by
  intro held ch h
  obtain ⟨hheld,hhome⟩ := ChannelState.unlockChannel_locks hs.held h
  obtain ⟨⟨held',ch'⟩,hl,rfl⟩ := Option.map_eq_some_iff.mp hhome
  obtain ⟨_,hvalid,hchannel⟩ := hs held' ch' hl
  refine ⟨hheld,hvalid,?_⟩
  intro hlive
  exact ChannelState.unlockChannel_channel.trans (hchannel hlive)

/-- The end of an off channel operation returns to the home channel. -/
theorem LockValid.drop (hs : LockValid valid s) {k : ℕ} (he : s.dropOperation valid k = some t) :
    LockValid valid t := by
  unfold dropOperation at he
  cases ho : s.live[k]? with
  | none => simp only [ho] at he; cases he
  | some o =>
    simp only [ho] at he
    cases he
    intro held ch h
    have hlocks : s.channelState.locks = some (held,ch) := by
      rw [← h]
      split
      · exact (ChannelState.setChannel_locks valid _).symm
      · rfl
    obtain ⟨hheld,hvalid,_⟩ := hs held ch hlocks
    refine ⟨hheld,hvalid,?_⟩
    intro _
    simp [ChannelState.homeChannel,hlocks,ChannelState.setChannel,hvalid]

/-- Operations that only begin, request or answer leave the lock and the channel alone. -/
theorem step_quiet (he : Step valid s op t) (hlock : ∀ i c, op ≠ .lockChannel i c)
    (hunlock : ∀ i, op ≠ .unlockChannel i) (hset : ∀ k c, op ≠ .setChannel k c)
    (hdrop : ∀ k, op ≠ .dropOperation k) :
    t.channelState.locks = s.channelState.locks ∧
      t.channelState.channel = s.channelState.channel ∧ (t.live = [] → s.live = []) := by
  unfold Step at he
  cases op with
  | lockChannel i c => exact absurd rfl (hlock i c)
  | unlockChannel i => exact absurd rfl (hunlock i)
  | setChannel k c => exact absurd rfl (hset k c)
  | dropOperation k => exact absurd rfl (hdrop k)
  | tryBegin i =>
    cases he
    unfold tryBegin
    split
    · exact ⟨rfl,rfl,id⟩
    · split
      · exact ⟨rfl,rfl,fun h => by simp [beginOperation] at h⟩
      · split
        · exact ⟨rfl,rfl,fun h => by simp [beginOperation] at h⟩
        · exact ⟨rfl,rfl,id⟩
  | poll k =>
    simp only [step,poll] at he
    split at he
    · cases he
    · split at he
      · cases he
        split
        · exact ⟨rfl,rfl,fun h => by simp [beginOperation] at h⟩
        · exact ⟨rfl,rfl,id⟩
      · cases he
        exact ⟨rfl,rfl,id⟩
  | cancel k =>
    simp only [step] at he
    split at he <;> cases he
    exact ⟨rfl,rfl,id⟩
  | waitForRequest i =>
    simp only [step] at he
    split at he <;> cases he
    exact ⟨rfl,rfl,id⟩
  | grant k =>
    simp only [step,respond] at he
    split at he <;> cases he
    exact ⟨rfl,rfl,id⟩
  | reject k =>
    simp only [step,respond] at he
    split at he <;> cases he
    exact ⟨rfl,rfl,id⟩

theorem step_lockValid (hs : LockValid valid s)
    (hv : ∀ i c, op = .lockChannel i c → valid c = true) (he : Step valid s op t) :
    LockValid valid t := by
  cases op with
  | lockChannel i c =>
    cases he
    exact hs.lock (hv i c rfl)
  | unlockChannel i =>
    cases he
    exact hs.unlock i
  | dropOperation k => exact hs.drop he
  | setChannel k c =>
    simp only [Step,step] at he
    split at he
    · rename_i hk
      cases he
      apply hs.congr (ChannelState.setChannel_locks valid c)
      intro hlive
      change s.live = [] at hlive
      rw [hlive] at hk
      cases hk
    · cases he
  | _ =>
    obtain ⟨hlocks,hchannel,hlive⟩ := step_quiet he (by simp) (by simp) (by simp) (by simp)
    exact hs.congr hlocks (fun h => ⟨hlive h,hchannel⟩)

end OffChannelSystem

namespace ChannelSystem
variable (valid : ℕ → Bool) (s : ChannelSystem n)

def new (channel : ℕ) : ChannelSystem n := ⟨.new channel,[]⟩

/-- `unlock_channel_internal`. -/
def unlock (i : Fin n) : ChannelSystem n :=
  { s with offChannel := { s.offChannel with
      channelState := s.offChannel.channelState.unlockChannel i } }

/-- `begin_interface_bringup_operation`. -/
def beginBringup (i : Fin n) (channel : ℕ) : ChannelSystem n :=
  let r := s.offChannel.channelState.lockChannelInternal valid i channel
  { offChannel := { s.offChannel with channelState := r.2 }
    bringups := s.bringups ++ match r.1 with
      | .ok _ => [i]
      | .error _ => [] }

/-- A completed bringup operation is forgotten; a dropped one releases the lock. `reset`
also releases it. -/
def step : ChannelOp n → Option (ChannelSystem n)
  | .offChannel op => (s.offChannel.step valid op).map (fun o => { s with offChannel := o })
  | .beginBringup i channel => some (s.beginBringup valid i channel)
  | .completeBringup k =>
    if k < s.bringups.length then some { s with bringups := s.bringups.eraseIdx k } else none
  | .dropBringup k =>
    match s.bringups[k]? with
    | none => none
    | some i => some ({ s with bringups := s.bringups.eraseIdx k }.unlock i)
  | .reset i => some (s.unlock i)

def Step (s : ChannelSystem n) (op : ChannelOp n) (t : ChannelSystem n) : Prop :=
  s.step valid op = some t

/-- The interface whose lock a call is about. -/
def caller (s : ChannelSystem n) : ChannelOp n → Option (Fin n)
  | .offChannel (.lockChannel i _) => some i
  | .offChannel (.unlockChannel i) => some i
  | .beginBringup i _ => some i
  | .dropBringup k => s.bringups[k]?
  | .reset i => some i
  | _ => none

/-- Channels passed to a lock are accepted by the channel controller. -/
def LocksAccepted (_ : ChannelSystem n) (op : ChannelOp n) : Prop :=
  ∀ i c, op = .offChannel (.lockChannel i c) ∨ op = .beginBringup i c → valid c = true

section Runs
variable {valid} {s} {t : ChannelSystem n} {op : ChannelOp n} {ops : List (ChannelOp n)}

theorem step_lockValid (hs : s.offChannel.LockValid valid)
    (he : Guarded (LocksAccepted valid) (Step valid) s op t) : t.offChannel.LockValid valid := by
  obtain ⟨hv,he⟩ := he
  cases op with
  | offChannel op =>
    obtain ⟨o,ho,ht⟩ := Option.map_eq_some_iff.mp he
    subst ht
    exact OffChannelSystem.step_lockValid hs (fun i c h => hv i c (Or.inl (by rw [h]))) ho
  | beginBringup i c =>
    cases he
    exact hs.lock (hv i c (Or.inr rfl))
  | completeBringup k =>
    simp only [Step,step] at he
    split at he <;> cases he
    exact hs
  | dropBringup k =>
    simp only [Step,step] at he
    split at he <;> cases he
    exact hs.unlock _
  | reset i =>
    cases he
    exact hs.unlock i

/-- Nobody else moves or releases the lock of an interface. -/
theorem step_holds {j : Fin n} {ch : ℕ} (hj : s.offChannel.channelState.Holds j ch)
    (hcaller : s.caller op ≠ some j) (he : Step valid s op t) :
    t.offChannel.channelState.Holds j ch := by
  cases op with
  | offChannel op =>
    obtain ⟨o,ho,ht⟩ := Option.map_eq_some_iff.mp he
    subst ht
    cases op with
    | lockChannel i c =>
      cases ho
      exact ChannelState.lockChannelInternal_frame valid (fun h => hcaller (by rw [h]; rfl)) hj
    | unlockChannel i =>
      cases ho
      exact ChannelState.unlockChannel_frame (fun h => hcaller (by rw [h]; rfl)) hj
    | setChannel k c =>
      simp only [OffChannelSystem.step] at ho
      split at ho <;> cases ho
      exact ChannelState.setChannel_holds valid hj
    | dropOperation k =>
      simp only [OffChannelSystem.step,OffChannelSystem.dropOperation] at ho
      split at ho <;> cases ho
      split
      · exact ChannelState.setChannel_holds valid hj
      · exact hj
    | _ =>
      obtain ⟨held,hl,hheld⟩ := hj
      obtain ⟨hlocks,_,_⟩ := OffChannelSystem.step_quiet ho (by simp) (by simp) (by simp) (by simp)
      exact ⟨held,hlocks.trans hl,hheld⟩
  | beginBringup i c =>
    cases he
    exact ChannelState.lockChannelInternal_frame valid (fun h => hcaller (by rw [h]; rfl)) hj
  | completeBringup k =>
    simp only [Step,step] at he
    split at he <;> cases he
    exact hj
  | dropBringup k =>
    simp only [Step,step] at he
    split at he
    · cases he
    · rename_i i hi
      cases he
      exact ChannelState.unlockChannel_frame (fun h => hcaller (by rw [caller,hi,h])) hj
  | reset i =>
    cases he
    exact ChannelState.unlockChannel_frame (fun h => hcaller (by rw [h]; rfl)) hj

/-- While every locked channel is accepted by the driver: a lock has a holder, other
interfaces cannot move or release it, a lock call succeeds exactly if nobody else holds
the lock or the channel is the same, and without an off channel operation the hardware
is on the locked channel. -/
theorem channel_lock {channel : ℕ}
    (hr : Runs (Guarded (LocksAccepted valid) (Step valid)) (new channel) ops s) :
    (∀ held ch, s.offChannel.channelState.locks = some (held,ch) → ∃ i, held i = true) ∧
    (∀ j ch op t, s.offChannel.channelState.Holds j ch → s.caller op ≠ some j →
      Step valid s op t → t.offChannel.channelState.Holds j ch) ∧
    (∀ i c, valid c = true → ((s.offChannel.channelState.lockChannelInternal valid i c).1 = .ok () ↔
      (∀ j ch, j ≠ i → ¬ s.offChannel.channelState.Holds j ch) ∨
        s.offChannel.channelState.homeChannel = some c)) ∧
    (s.offChannel.live = [] → ∀ held ch, s.offChannel.channelState.locks = some (held,ch) →
      s.offChannel.channelState.channel = ch) := by
  have hs : s.offChannel.LockValid valid := by
    apply Runs.invariant (I := fun s => s.offChannel.LockValid valid)
      (fun _ _ _ hs he => step_lockValid hs he) hr
    intro held ch h
    cases h
  refine ⟨hs.held,fun j ch op t hj hcaller he => step_holds hj hcaller he,?_,?_⟩
  · intro i c hv
    rw [← ChannelState.acquireLock_ok_iff hs.held]
    rcases ChannelState.lockChannelInternal_valid (s := s.offChannel.channelState) (i := i) hv with
      ⟨e,hacq,hlock⟩ | ⟨changed,locks,hacq,hlock⟩
    · simp [hacq,hlock]
    · simp [hacq,hlock]
  · intro hlive held ch h
    exact (hs held ch h).2.2 hlive

/-- Interface 1 goes off channel with the grant of interface 0, joins its lock by a bringup
operation meanwhile and releases it again: the hardware returns to the locked channel. -/
theorem channel_lock_after_off_channel : ∃ s : ChannelSystem 2,
    Runs (Guarded (LocksAccepted (fun _ => true)) (Step (fun _ => true))) (new 1)
      [.offChannel (.lockChannel 0 6),.offChannel (.tryBegin 1),.offChannel (.waitForRequest 0),
        .offChannel (.grant 0),.offChannel (.poll 0),.offChannel (.setChannel 0 11),
        .beginBringup 1 6,.dropBringup 0,.offChannel (.dropOperation 0)] s ∧
    s.offChannel.channelState.locks.map Prod.snd = some 6 ∧
    s.offChannel.channelState.channel = 6 := by
  apply Runs.exists_of_execute (fun _ _ _ h => ⟨fun _ _ _ => rfl,h⟩)
    (fun s : ChannelSystem 2 => s.offChannel.channelState.locks.map Prod.snd = some 6 ∧
      s.offChannel.live = [])
  · decide
  · rintro s hr ⟨hlocks,hlive⟩
    obtain ⟨⟨held,ch⟩,hl,hch⟩ := Option.map_eq_some_iff.mp hlocks
    rw [(channel_lock hr).2.2.2 hlive held ch hl]
    exact ⟨hlocks,hch⟩

end Runs
end ChannelSystem
end FerrisOnAir.Lmac

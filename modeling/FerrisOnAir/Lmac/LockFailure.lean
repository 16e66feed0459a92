import FerrisOnAir.Lmac.ChannelRuns

/-! # What a failed channel lock leaves behind

`lock_channel` records the lock before it tunes. If the driver refuses the channel, the
error returns past the rollback of `lock_channel_internal`, so a refused channel that
nobody else kept out stays locked.
-/
namespace FerrisOnAir.Lmac
variable {n : ℕ}

namespace ChannelState
variable {valid : ℕ → Bool} {s t : ChannelState n} {i j : Fin n} {c c' : ℕ}

/-- An interface can lock a channel that the driver accepts. -/
def Lockable (s : ChannelState n) (i : Fin n) (c : ℕ) : Prop := ∃ r, s.acquireLock i c = .ok r

theorem lockable_congr (h : t.locks = s.locks) : t.Lockable j c' ↔ s.Lockable j c' := by
  unfold Lockable acquireLock
  rw [h]

/-- The lock is refused and nothing changes, or it is recorded, whether or not the driver
then accepts the channel. -/
theorem lockChannelInternal_locks (valid : ℕ → Bool) (s : ChannelState n) (i : Fin n) (c : ℕ) :
    (∃ e, s.acquireLock i c = .error e ∧ s.lockChannelInternal valid i c = (.error e,s)) ∨
    ∃ changed locks, s.acquireLock i c = .ok (changed,locks) ∧
      (s.lockChannelInternal valid i c).2.locks = locks ∧
      ((s.lockChannelInternal valid i c).1 = .ok () ↔ changed = false ∨ valid c = true) := by
  cases h : s.acquireLock i c with
  | error e => exact Or.inl ⟨e,rfl,by simp [lockChannelInternal,lockChannel,h]⟩
  | ok r =>
    obtain ⟨changed,locks⟩ := r
    refine Or.inr ⟨changed,locks,rfl,?_⟩
    cases changed with
    | false => simp [lockChannelInternal,lockChannel,h]
    | true =>
      cases hv : valid c with
      | true => simp [lockChannelInternal,lockChannel,h,setChannel,hv,Except.map]
      | false => simp [lockChannelInternal,lockChannel,h,setChannel,hv,Except.map]

/-- A change of the channel that leaves the lock as it was is none. -/
theorem acquireLock_changed {locks : Option ((Fin n → Bool) × ℕ)}
    (h : s.acquireLock i c = .ok (true,locks)) :
    (locks = s.locks ↔ s.homeChannel = some c) ∧ ∀ j ch, j ≠ i → ¬ s.Holds j ch := by
  have hframe : ∀ j ch, j ≠ i → ¬ s.Holds j ch := by
    intro j ch hj hs
    obtain ⟨hchanged,_⟩ := acquireLock_frame (Ne.symm hj) hs h
    cases hchanged
  refine ⟨?_,hframe⟩
  unfold acquireLock at h
  unfold homeChannel
  cases hl : s.locks with
  | none =>
    simp only [hl] at h
    cases h
    simp
  | some l =>
    obtain ⟨held,locked⟩ := l
    simp only [hl] at h
    have hlocks : some (held,c) = locks := by
      split at h
      · cases h
      · split at h
        · cases h
          rfl
        · split at h <;> cases h
    rw [← hlocks]
    simp only [Option.some.injEq,Prod.mk.injEq,true_and,Option.map_some]
    exact eq_comm

end ChannelState

namespace ChannelSystem
variable {valid : ℕ → Bool} {s t : ChannelSystem n} {op : ChannelOp n} {ops : List (ChannelOp n)}
  {i : Fin n} {c : ℕ}

/-- Every recorded lock has a holder. -/
def HasHolder (s : ChannelSystem n) : Prop :=
  ∀ held ch, s.offChannel.channelState.locks = some (held,ch) → ∃ i, held i = true

/-- If either call that locks a channel fails, holders and home channel are as before, and
so is what everybody can lock. -/
def FailsCleanly (valid : ℕ → Bool) (s : ChannelSystem n) (i : Fin n) (c : ℕ) : Prop :=
  ∀ e, (s.offChannel.channelState.lockChannelInternal valid i c).1 = .error e →
    ∀ op t, op = .offChannel (.lockChannel i c) ∨ op = .beginBringup i c → Step valid s op t →
      t.offChannel.channelState.locks = s.offChannel.channelState.locks ∧
      ∀ j c', t.offChannel.channelState.Lockable j c' ↔ s.offChannel.channelState.Lockable j c'

theorem HasHolder.lock (h : s.HasHolder) (held : Fin n → Bool) (ch : ℕ)
    (hl : (s.offChannel.channelState.lockChannelInternal valid i c).2.locks = some (held,ch)) :
    ∃ i, held i = true := by
  rcases ChannelState.lockChannelInternal_locks valid s.offChannel.channelState i c with
    ⟨e,_,heq⟩ | ⟨changed,locks,hacq,hlocks,_⟩
  · rw [heq] at hl
    exact h held ch hl
  · obtain ⟨held',hheld,hi⟩ := ChannelState.acquireLock_holds hacq
    rw [hlocks,hheld] at hl
    cases hl
    exact ⟨i,hi⟩

theorem HasHolder.unlock (h : s.HasHolder) (i : Fin n) : (s.unlock i).HasHolder :=
  fun _ _ hl => (ChannelState.unlockChannel_locks h hl).1

theorem step_hasHolder (h : s.HasHolder) (he : Step valid s op t) : t.HasHolder := by
  cases op with
  | offChannel op =>
    obtain ⟨o,ho,rfl⟩ := Option.map_eq_some_iff.mp he
    cases op with
    | lockChannel i c =>
      cases ho
      exact h.lock
    | unlockChannel i =>
      cases ho
      exact h.unlock i
    | setChannel k c =>
      simp only [OffChannelSystem.step] at ho
      split at ho <;> cases ho
      intro held ch hl
      exact h held ch ((ChannelState.setChannel_locks valid c).symm.trans hl)
    | dropOperation k =>
      simp only [OffChannelSystem.step,OffChannelSystem.dropOperation] at ho
      split at ho <;> cases ho
      intro held ch hl
      simp only at hl
      split at hl
      · exact h held ch ((ChannelState.setChannel_locks valid _).symm.trans hl)
      · exact h held ch hl
    | _ =>
      obtain ⟨hlocks,_,_⟩ := OffChannelSystem.step_quiet ho (by simp) (by simp) (by simp) (by simp)
      intro held ch hl
      exact h held ch (hlocks.symm.trans hl)
  | beginBringup i c =>
    cases he
    exact h.lock
  | completeBringup k =>
    simp only [Step,step] at he
    split at he <;> cases he
    exact h
  | dropBringup k =>
    simp only [Step,step] at he
    split at he <;> cases he
    exact HasHolder.unlock h _
  | reset i =>
    cases he
    exact h.unlock i

/-- Both calls leave the lock that `lock_channel_internal` leaves. -/
theorem step_lock_locks (hop : op = .offChannel (.lockChannel i c) ∨ op = .beginBringup i c)
    (he : Step valid s op t) : t.offChannel.channelState.locks =
      (s.offChannel.channelState.lockChannelInternal valid i c).2.locks := by
  rcases hop with rfl | rfl
  · cases he
    rfl
  · cases he
    rfl

/-- A failed lock leaves no trace exactly if the driver accepts the channel, the channel is
the home channel already, or another interface holds the lock. -/
theorem failsCleanly_iff {channel : ℕ} (hr : Runs (Step valid) (new channel) ops s) (i : Fin n)
    (c : ℕ) : FailsCleanly valid s i c ↔ valid c = true ∨
      s.offChannel.channelState.homeChannel = some c ∨
      ∃ j ch, j ≠ i ∧ s.offChannel.channelState.Holds j ch := by
  have hholder : s.HasHolder := by
    refine hr.invariant (I := HasHolder) (fun _ _ _ => step_hasHolder) ?_
    intro held ch h
    cases h
  constructor
  · intro h
    by_contra hno
    push Not at hno
    obtain ⟨hv,hhome,hnobody⟩ := hno
    obtain ⟨⟨changed,locks⟩,hacq⟩ := (ChannelState.acquireLock_ok_iff hholder).mpr (Or.inl hnobody)
    rcases ChannelState.lockChannelInternal_locks valid s.offChannel.channelState i c with
      ⟨e,herr,_⟩ | ⟨changed',locks',hacq',hlocks,hok⟩
    · rw [hacq] at herr
      cases herr
    · rw [hacq] at hacq'
      cases hacq'
      cases changed with
      | false => exact hhome (ChannelState.acquireLock_unchanged hacq)
      | true =>
        cases he : (s.offChannel.channelState.lockChannelInternal valid i c).1 with
        | ok _ =>
          rcases hok.mp he with hf | hf
          · cases hf
          · exact hv hf
        | error e =>
          have hclean := (h e he _ _ (Or.inr rfl) rfl).1
          rw [step_lock_locks (Or.inr rfl) rfl,hlocks] at hclean
          exact hhome ((ChannelState.acquireLock_changed hacq).1.mp hclean)
  · intro hcond e he op t hop hstep
    have hlocks : t.offChannel.channelState.locks = s.offChannel.channelState.locks := by
      rw [step_lock_locks hop hstep]
      rcases ChannelState.lockChannelInternal_locks valid s.offChannel.channelState i c with
        ⟨_,_,heq⟩ | ⟨changed,locks,hacq,hlocks,hok⟩
      · rw [heq]
      · -- The lock was granted, so the driver refused the channel.
        rw [he] at hok
        have hfail : ¬ (changed = false ∨ valid c = true) := fun h => by cases hok.mpr h
        obtain ⟨hchanged,hv⟩ := not_or.mp hfail
        rw [Bool.not_eq_false] at hchanged
        subst hchanged
        obtain ⟨hsame,hnobody⟩ := ChannelState.acquireLock_changed hacq
        rcases hcond with hc | hc | ⟨j,ch,hj,hc⟩
        · exact absurd hc hv
        · rw [hlocks]
          exact hsame.mpr hc
        · exact absurd hc (hnobody j ch hj)
    exact ⟨hlocks,fun j c' => ChannelState.lockable_congr hlocks⟩

/-- While interface 0 holds channel 6, interface 1 fails on channel 200 without a trace. -/
theorem failsCleanly_foreign : ∃ s : ChannelSystem 2,
    Runs (Step (fun c => 1 ≤ c ∧ c ≤ 14)) (new 1) [.offChannel (.lockChannel 0 6)] s ∧
      FailsCleanly (fun c => 1 ≤ c ∧ c ≤ 14) s 1 200 := by
  have hr : Runs (Step (fun c => 1 ≤ c ∧ c ≤ 14)) (new 1 : ChannelSystem 2)
      [.offChannel (.lockChannel 0 6)] _ := .step rfl (.refl _)
  refine ⟨_,hr,(failsCleanly_iff hr 1 200).mpr (Or.inr (Or.inr ⟨0,6,by decide,?_⟩))⟩
  exact ⟨fun i => i == 0,rfl,rfl⟩

/-- The first lock after the start, on channel 200, fails and stays. -/
theorem not_failsCleanly_new :
    ¬ FailsCleanly (fun c => 1 ≤ c ∧ c ≤ 14) (new 1 : ChannelSystem 2) 0 200 := by
  intro h
  have hlocks := (h .invalidChannel rfl _ _ (Or.inl rfl) rfl).1
  cases hlocks

end ChannelSystem
end FerrisOnAir.Lmac

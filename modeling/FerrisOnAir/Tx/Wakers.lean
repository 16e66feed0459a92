import FerrisOnAir.Tx.QueueRuns

/-! # No lost wakeups

One waker cell per slot serves all generations of the slot, and the runner is woken only
when the queue stops being empty. A future that was told to wait is remembered with its
waker and the wakes so far. Until its generation is finished its waker stays in the slot,
because nobody else registers there, and finishing wakes it.
-/
namespace FerrisOnAir.Tx
open TxQueueState QueueSystem RingWindow

/-- A queue with the futures whose last poll returned `Pending`: the waker of that poll and
the number of wakes before it. -/
structure WakeSystem (N : ℕ) (C P E : Type*) where
  system : QueueSystem N C P E
  futures : ℕ → Option (Waker × ℕ)
  runner : Option (Waker × ℕ)

variable {N : ℕ} {C P E : Type*}

/-- What a poll leaves to be remembered. -/
def Poll.registration {α : Type*} (waker : Waker) (wakes : ℕ) : Poll α → Option (Waker × ℕ)
  | .ready _ => none
  | .pending => some (waker,wakes)

/-- The future an operation polls or drops. -/
def QueueOp.future : QueueOp N C P E → Option ℕ
  | .waitForCompletion g _ => some g
  | .dropHandle g => some g
  | _ => none

def QueueOp.isRunnerPoll : QueueOp N C P E → Bool
  | .waitQueueNotEmpty _ => true
  | _ => false

namespace WakeSystem
variable [NeZero N] (s : WakeSystem N C P E)

omit [NeZero N] in
def new : WakeSystem N C P E := ⟨.new,fun _ => none,none⟩

def polledFutures : QueueOp N C P E → ℕ → Option (Waker × ℕ)
  | .waitForCompletion g waker => Function.update s.futures g
      ((s.system.queue.waitForCompletion g waker).1.registration waker
        s.system.history.woken.length)
  | .dropHandle g => Function.update s.futures g none
  | _ => s.futures

omit [NeZero N] in
def polledRunner : QueueOp N C P E → Option (Waker × ℕ)
  | .waitQueueNotEmpty waker => (s.system.queue.waitQueueNotEmpty waker).1.registration waker
      s.system.history.woken.length
  | _ => s.runner

def next (op : QueueOp N C P E) : Option (WakeSystem N C P E) :=
  (s.system.next op).map (fun system => ⟨system,s.polledFutures op,s.polledRunner op⟩)

def Step (s : WakeSystem N C P E) (op : QueueOp N C P E) (t : WakeSystem N C P E) : Prop :=
  QueueSystem.Step s.system op t.system ∧ t.futures = s.polledFutures op ∧
    t.runner = s.polledRunner op

/-- The waker of a registration was woken after it. -/
def Woken (s : QueueSystem N C P E) (r : Waker × ℕ) : Prop := r.1 ∈ s.history.woken.drop r.2

/-- A generation that is not finished, with this waker in its slot. -/
def Registered (s : QueueSystem N C P E) (g : ℕ) (waker : Waker) : Prop :=
  s.front ≤ g ∧ g < s.queue.counter ∧ (s.item g).waker = some waker

omit [NeZero N] in
/-- An empty queue with this waker of the runner. -/
def RunnerRegistered (s : QueueSystem N C P E) (waker : Waker) : Prop :=
  s.queue.isEmpty = true ∧ s.queue.queueUpdateWaker = some waker

end WakeSystem

open WakeSystem

section Answers
variable [NeZero N] {s t : QueueSystem N C P E} {op : QueueOp N C P E} {o : Outcome N C P E}

/-- What a step owes to the registrations of those it does not poll: they stay, or their
waker is among the ones it wakes. -/
structure Answers (s t : QueueSystem N C P E) (future : Option ℕ) (isRunnerPoll : Bool)
    (woken : List Waker) : Prop where
  log : t.history.woken = s.history.woken ++ woken
  futures : ∀ g w, future ≠ some g → Registered s g w → w ∈ woken ∨ Registered t g w
  runner : ∀ w, isRunnerPoll = false → RunnerRegistered s w → w ∈ woken ∨ RunnerRegistered t w

omit [NeZero N] in
/-- Writing the content or the interest of a slot keeps the wakers of the ring. -/
theorem update_waker (items : Fin N → TxQueueItem N C P E) (i j : Fin N)
    (slot : TxQueueSlot N C P E) (expected : Bool) :
    (Function.update items i { items i with slot := slot, returnDataExpected := expected } j).waker =
      (items j).waker := by
  by_cases hj : j = i
  · subst hj
    rw [Function.update_self]
  · rw [Function.update_of_ne hj]

/-- A step that wakes nobody and leaves the ends of the queue and the other wakers alone. -/
theorem Answers.of_same {future : Option ℕ} (hlog : t.history.woken = s.history.woken)
    (hcapacity : t.queue.capacity = s.queue.capacity) (hcounter : t.queue.counter = s.queue.counter)
    (hwakers : ∀ g, future ≠ some g → s.front ≤ g → g < s.queue.counter →
      (t.item g).waker = (s.item g).waker)
    (hrunner : t.queue.queueUpdateWaker = s.queue.queueUpdateWaker) :
    Answers s t future false [] := by
  have hfront : t.front = s.front := by
    rw [front,front,TxQueueState.len,TxQueueState.len,hcapacity,hcounter]
  refine ⟨by rw [hlog,List.append_nil],fun g w hne h => Or.inr ?_,fun w _ h => Or.inr ?_⟩
  · obtain ⟨hge,hlt,hw⟩ := h
    exact ⟨hfront ▸ hge,hcounter ▸ hlt,(hwakers g hne hge hlt).trans hw⟩
  · obtain ⟨hempty,hw⟩ := h
    refine ⟨?_,hrunner.trans hw⟩
    rw [TxQueueState.isEmpty,hcapacity]
    exact hempty

/-- The wake of `enqueue_frame`. -/
theorem enqueueFrame_woken {f : PendingFrame N C P} (he : s.enqueueFrame f = .ok o) :
    0 < s.queue.capacity ∧ o.system = s.pushed f
      (if s.queue.isEmpty then s.queue.queueUpdateWaker else none).toList := by
  unfold QueueSystem.enqueueFrame TxQueueState.enqueueFrame increaseQueueCounter at he
  by_cases hcap : s.queue.capacity > 0
  · by_cases hc : s.queue.counter + 1 < 2 ^ 64
    · simp only [if_pos hcap,if_pos hc] at he
      cases he
      exact ⟨hcap,rfl⟩
    · simp only [if_pos hcap,if_neg hc] at he
      cases he
  · simp only [if_neg hcap] at he
    cases he

/-- A new frame wakes the runner that found the queue empty; cells of the ring keep their
wakers. -/
theorem enqueueFrame_answers (hs : s.Valid) {f : PendingFrame N C P}
    (he : s.enqueueFrame f = .ok o) : ∃ woken, Answers s o.system none false woken := by
  obtain ⟨hcap,ho⟩ := enqueueFrame_woken he
  refine ⟨_,by rw [ho]; rfl,?_,?_⟩
  · rintro g w _ ⟨hge,hlt,hw⟩
    right
    rw [ho]
    refine ⟨(pushed_front hs hcap).trans_le hge,hlt.trans (Nat.lt_succ_self _),?_⟩
    exact (update_waker s.queue.queueItems _ _ _ _).trans hw
  · rintro w _ ⟨hempty,hw⟩
    left
    rw [if_pos hempty,hw]
    exact List.mem_singleton.mpr rfl

/-- A finished generation wakes the waker of its slot. -/
theorem finish_answers (hs : s.Valid) {i : InProgressTransmission N} {f : PendingFrame N C P}
    (ha : s.active = some (i,f)) (out : Option (TxReturnData N C E))
    (dropped : List (TxBuffer N C)) :
    Answers s (s.finish i out dropped).system none false (s.item s.front).waker.toList := by
  obtain ⟨hpos,hi,_,_⟩ := hs.active_front i f ha
  have hqueue : (s.finish i out dropped).system.queue = _ := finish_queue hs ha
  have hfront : (s.finish i out dropped).system.front = _ := finish_front hs ha
  refine ⟨?_,?_,?_⟩
  · change s.history.woken ++ (s.queue.finish i.index (.ofOutcome out)).2.2.toList = _
    rw [hi,TxQueueState.finish]
    split <;> rfl
  · rintro g w _ ⟨hge,hlt,hw⟩
    by_cases hg : g = s.front
    · subst hg
      left
      rw [hw]
      exact List.mem_singleton.mpr rfl
    · right
      refine ⟨by rw [hfront]; omega,by rw [hqueue]; exact hlt,?_⟩
      rw [item,hqueue]
      exact (update_waker s.queue.queueItems _ _ _ _).trans hw
  · rintro w _ ⟨hempty,_⟩
    have hcap : s.queue.capacity = N := by simpa [TxQueueState.isEmpty] using hempty
    rw [TxQueueState.len,hcap] at hpos
    omega

theorem tryReceive_answers (he : s.tryReceive = .ok o) :
    Answers s o.system none false [] := by
  unfold QueueSystem.tryReceive at he
  cases ha : s.active with
  | some a =>
    simp only [ha] at he
    cases he
  | none =>
    simp only [ha] at he
    split at he
    · cases he
    · cases he
      exact .of_same rfl rfl rfl (fun _ _ _ _ => rfl) rfl
    · rename_i i frame queue hq
      obtain ⟨_,_,_,_,rfl⟩ := tryReceive_some hq
      split at he
      · cases he
        exact .of_same rfl rfl rfl (fun _ _ _ _ => update_waker s.queue.queueItems _ _ _ _) rfl
      · cases he

/-- A poll registers in the slot of its own generation, which no other unfinished generation
has. -/
theorem waitForCompletion_answers (hs : s.Valid) {g : ℕ} {w : Waker}
    (he : s.waitForCompletion g w = .ok o) : Answers s o.system (some g) false [] := by
  unfold QueueSystem.waitForCompletion at he
  by_cases hg : g ∈ s.handles
  · rw [if_pos hg] at he
    have hlt := hs.handles_lt g hg
    rcases waitForCompletion_cases s.queue g w with ⟨_,hp⟩ | ⟨hb,⟨d,_,hp⟩ | ⟨_,hp⟩ | ⟨_,hp⟩⟩
    · simp only [hp] at he
      cases he
      exact .of_same rfl rfl rfl (fun _ _ _ _ => rfl) rfl
    · simp only [hp] at he
      cases he
      exact .of_same rfl rfl rfl (fun _ _ _ _ => update_waker s.queue.queueItems _ _ _ _) rfl
    · simp only [hp] at he
      cases he
      exact .of_same rfl rfl rfl (fun _ _ _ _ => rfl) rfl
    · simp only [hp] at he
      cases he
      refine .of_same rfl rfl rfl ?_ rfl
      intro h hne hge hlt'
      have hslot : (slotOf h : Fin N) ≠ slotOf g := by
        refine slotOf_ne (hs.inWindow_of_front_le hge hlt')
          ((isCounterOutOfBounds_eq_false hlt).mp hb) ?_
        rintro rfl
        exact hne rfl
      exact congrArg TxQueueItem.waker (Function.update_of_ne hslot ..)
  · rw [if_neg hg] at he
    cases he

theorem dropHandle_answers {g : ℕ} (he : s.dropHandle g = .ok o) :
    Answers s o.system (some g) false [] := by
  unfold QueueSystem.dropHandle at he
  by_cases hg : g ∈ s.handles
  · rw [if_pos hg] at he
    cases he
    rcases dropPending_cases s.queue g with ⟨_,hp⟩ | ⟨_,⟨d,_,hp⟩ | ⟨_,hp⟩⟩
    · rw [hp]
      exact .of_same rfl rfl rfl (fun _ _ _ _ => rfl) rfl
    · rw [hp]
      exact .of_same rfl rfl rfl (fun _ _ _ _ => update_waker s.queue.queueItems _ _ _ _) rfl
    · rw [hp]
      exact .of_same rfl rfl rfl (fun _ _ _ _ => update_waker s.queue.queueItems _ _ _ _) rfl
  · rw [if_neg hg] at he
    cases he

theorem waitQueueNotEmpty_answers (w : Waker) :
    Answers s { s with queue := (s.queue.waitQueueNotEmpty w).2 } none true [] := by
  unfold TxQueueState.waitQueueNotEmpty
  split
  · exact ⟨(List.append_nil _).symm,fun _ _ _ h => Or.inr h,fun _ h => nomatch h⟩
  · exact ⟨(List.append_nil _).symm,fun _ _ _ h => Or.inr h,fun _ h => nomatch h⟩

/-- Every step answers the registrations of those it does not poll. -/
theorem step_answers (hs : s.Valid) (he : s.step op = .ok o) :
    ∃ woken, Answers s o.system op.future op.isRunnerPoll woken := by
  cases op with
  | enqueueFrame f => exact enqueueFrame_answers hs he
  | waitQueueNotEmpty w =>
    simp only [step] at he
    split at he
    · cases he
    · cases he
      exact ⟨[],waitQueueNotEmpty_answers w⟩
  | tryReceive => exact ⟨[],tryReceive_answers he⟩
  | transmitted result contents =>
    simp only [step] at he
    split at he
    · cases he
    · rename_i ha
      cases he
      exact ⟨_,finish_answers hs ha _ _⟩
  | abort =>
    simp only [step] at he
    split at he
    · cases he
    · rename_i ha
      cases he
      exact ⟨_,finish_answers hs ha _ _⟩
  | waitForCompletion g w => exact ⟨[],waitForCompletion_answers hs he⟩
  | status g =>
    simp only [step] at he
    split at he
    · cases he
      exact ⟨[],.of_same rfl rfl rfl (fun _ _ _ _ => rfl) rfl⟩
    · cases he
  | dropHandle g => exact ⟨[],dropHandle_answers he⟩

/-- A poll that is told to wait has its waker in the slot of an unfinished generation. -/
theorem waitForCompletion_registered (hs : s.Valid) {g : ℕ} {w : Waker}
    (he : s.waitForCompletion g w = .ok o) (h : (s.queue.waitForCompletion g w).1 = .pending) :
    Registered o.system g w := by
  unfold QueueSystem.waitForCompletion at he
  by_cases hg : g ∈ s.handles
  · rw [if_pos hg] at he
    have hlt := hs.handles_lt g hg
    rcases waitForCompletion_cases s.queue g w with ⟨_,hp⟩ | ⟨hb,⟨d,_,hp⟩ | ⟨_,hp⟩ | ⟨ho,hp⟩⟩
    · rw [hp] at h
      cases h
    · rw [hp] at h
      cases h
    · rw [hp] at h
      cases h
    · simp only [hp] at he
      cases he
      have hfront := (hs.occupied_iff ((isCounterOutOfBounds_eq_false hlt).mp hb)).mp ho
      refine ⟨hfront,hlt,?_⟩
      exact congrArg TxQueueItem.waker (Function.update_self _ _ s.queue.queueItems)
  · rw [if_neg hg] at he
    cases he

theorem waitQueueNotEmpty_registered {w : Waker}
    (he : s.step (.waitQueueNotEmpty w) = .ok o)
    (h : (s.queue.waitQueueNotEmpty w).1 = .pending) : RunnerRegistered o.system w := by
  simp only [step] at he
  split at he
  · cases he
  · cases he
    unfold TxQueueState.waitQueueNotEmpty at h ⊢
    cases hempty : s.queue.isEmpty with
    | true => exact ⟨hempty,rfl⟩
    | false =>
      rw [hempty] at h
      cases h

/-- While its generation is not finished a further poll has to wait as well. -/
theorem WakeSystem.Registered.waits (hs : s.Valid) {g : ℕ} {w : Waker} (h : Registered s g w) (w' : Waker) :
    (s.queue.waitForCompletion g w').1 = .pending := by
  obtain ⟨hge,hlt,_⟩ := h
  have hocc := hs.occupied_of_front_le hge hlt
  have hb := (isCounterOutOfBounds_eq_false hlt).mpr (hs.inWindow_of_front_le hge hlt)
  rcases waitForCompletion_cases s.queue g w' with ⟨hb',_⟩ | ⟨_,⟨d,hslot,_⟩ | ⟨hslot,_⟩ | ⟨_,hp⟩⟩
  · rw [hb] at hb'
    cases hb'
  · rw [item,hslot] at hocc
    cases hocc
  · rw [item,hslot] at hocc
    cases hocc
  · rw [hp]

end Answers

namespace WakeSystem
variable [NeZero N] {s t : WakeSystem N C P E} {op : QueueOp N C P E} {ops : List (QueueOp N C P E)}

/-- A registration that was woken or still stands. -/
def Served (s : QueueSystem N C P E) (r : Waker × ℕ) (stands : Prop) : Prop :=
  r.2 ≤ s.history.woken.length ∧ (Woken s r ∨ stands)

structure Kept (s : WakeSystem N C P E) : Prop where
  valid : s.system.Valid
  futures : ∀ g r, s.futures g = some r → Served s.system r (Registered s.system g r.1)
  runner : ∀ r, s.runner = some r → Served s.system r (RunnerRegistered s.system r.1)

theorem new_kept : (new : WakeSystem N C P E).Kept where
  valid := new_valid
  futures _ _ h := nomatch h
  runner _ h := nomatch h

theorem step_of_next (h : s.next op = some t) : Step s op t := by
  obtain ⟨system,hsystem,rfl⟩ := Option.map_eq_some_iff.mp h
  exact ⟨QueueSystem.step_of_next hsystem,rfl,rfl⟩

omit [NeZero N] in
/-- Later wakes are after a registration. -/
theorem Served.append {s t : QueueSystem N C P E} {r : Waker × ℕ} {p q : Prop} {woken : List Waker}
    (hlog : t.history.woken = s.history.woken ++ woken) (h : Served s r p)
    (hstep : p → r.1 ∈ woken ∨ q) : Served t r q := by
  obtain ⟨hle,h⟩ := h
  have hdrop : t.history.woken.drop r.2 = s.history.woken.drop r.2 ++ woken := by
    rw [hlog,List.drop_append_of_le_length hle]
  refine ⟨?_,?_⟩
  · rw [hlog,List.length_append]
    omega
  · rw [Woken,hdrop]
    rcases h with h | h
    · exact Or.inl (List.mem_append_left _ h)
    · exact (hstep h).imp_left (List.mem_append_right _)

omit [NeZero N] in
/-- A registration made now stands. -/
theorem Served.of_registration {α : Type*} {s t : QueueSystem N C P E} {poll : Poll α} {w : Waker}
    {r : Waker × ℕ} {woken : List Waker} {stands : Waker → Prop}
    (hlog : t.history.woken = s.history.woken ++ woken)
    (h : poll.registration w s.history.woken.length = some r)
    (hstands : poll = .pending → stands w) : Served t r (stands r.1) := by
  cases poll with
  | ready a => cases h
  | pending =>
    cases h
    refine ⟨?_,Or.inr (hstands rfl)⟩
    rw [hlog,List.length_append]
    exact Nat.le_add_right ..

/-- Futures that a step does not poll keep their registration. -/
theorem polledFutures_other {g : ℕ} {r : Waker × ℕ} (h : s.polledFutures op g = some r)
    (hne : op.future ≠ some g) : s.futures g = some r := by
  have hne' : ∀ h, op.future = some h → g ≠ h := by
    rintro h hf rfl
    exact hne hf
  cases op with
  | waitForCompletion f w =>
    rwa [polledFutures,Function.update_of_ne (hne' f rfl)] at h
  | dropHandle f => rwa [polledFutures,Function.update_of_ne (hne' f rfl)] at h
  | _ => exact h

theorem step_kept (h : Step s op t) (hs : s.Kept) : t.Kept := by
  obtain ⟨⟨o,he,ho⟩,hfutures,hrunner⟩ := h
  obtain ⟨woken,hlog,hother,hother'⟩ := step_answers hs.valid he
  rw [ho] at hlog hother hother'
  refine ⟨ho ▸ step_valid hs.valid he,?_,?_⟩
  · intro g r hr
    rw [hfutures] at hr
    by_cases hg : op.future = some g
    · cases op with
      | waitForCompletion f w =>
        obtain rfl : f = g := Option.some.inj hg
        rw [polledFutures,Function.update_self] at hr
        refine Served.of_registration hlog hr (fun hp => ?_)
        exact ho ▸ waitForCompletion_registered hs.valid he hp
      | dropHandle f =>
        obtain rfl : f = g := Option.some.inj hg
        rw [polledFutures,Function.update_self] at hr
        cases hr
      | _ => cases hg
    · exact (hs.futures g r (polledFutures_other hr hg)).append hlog (hother g r.1 hg)
  · intro r hr
    rw [hrunner] at hr
    cases hop : op.isRunnerPoll with
    | true =>
      cases op with
      | waitQueueNotEmpty w =>
        refine Served.of_registration hlog hr (fun hp => ?_)
        exact ho ▸ waitQueueNotEmpty_registered he hp
      | _ => cases hop
    | false =>
      refine (hs.runner r ?_).append hlog (hother' r.1 hop)
      cases op with
      | waitQueueNotEmpty w => cases hop
      | _ => exact hr

theorem runs_kept (hr : Runs Step new ops s) : s.Kept :=
  hr.invariant (fun _ _ _ hs h => step_kept h hs) new_kept

/-- No wakeup is lost. A future that was told to wait and would now be ready has had its
waker woken since that poll, and so has a runner that found the queue empty once it is not. -/
theorem no_lost_wakeups (hr : Runs Step new ops s) :
    (∀ g w k, s.futures g = some (w,k) → ∀ w' r,
      (s.system.queue.waitForCompletion g w').1 = .ready r →
        w ∈ s.system.history.woken.drop k) ∧
    (∀ w k, s.runner = some (w,k) → s.system.queue.isEmpty = false →
      w ∈ s.system.history.woken.drop k) := by
  have hs := runs_kept hr
  constructor
  · intro g w k hg w' r hready
    rcases (hs.futures g (w,k) hg).2 with hwoken | hreg
    · exact hwoken
    · rw [hreg.waits hs.valid w'] at hready
      cases hready
  · intro w k hrun hempty
    rcases (hs.runner (w,k) hrun).2 with hwoken | hreg
    · exact hwoken
    · rw [hreg.1] at hempty
      cases hempty

/-- The runner waits on an empty ring, and a future of the second generation of the slot
waits on the cell of the first. -/
theorem no_lost_wakeups_reused_slot : ∃ s : WakeSystem 1 Unit Unit Unit,
    Runs Step new [.waitQueueNotEmpty 5,.enqueueFrame ⟨⟨0,()⟩,0,(),0,.drop⟩,.tryReceive,
      .waitForCompletion 0 6,.abort,.enqueueFrame ⟨⟨0,()⟩,0,(),0,.drop⟩,.waitForCompletion 1 7,
      .tryReceive,.transmitted (.ok 0) (),.enqueueFrame ⟨⟨0,()⟩,0,(),0,.drop⟩] s ∧
    7 ∈ s.system.history.woken.drop 3 ∧ 5 ∈ s.system.history.woken.drop 0 := by
  apply Runs.exists_of_execute (fun _ _ _ => step_of_next)
    (fun s => s.futures 1 = some (7,3) ∧ s.runner = some (5,0) ∧
      s.system.queue.isCounterOutOfBounds 1 = true ∧ s.system.queue.isEmpty = false)
  · decide
  · rintro s hr ⟨hfuture,hrunner,hbounds,hempty⟩
    obtain ⟨hfutures,hrunners⟩ := no_lost_wakeups hr
    refine ⟨?_,hrunners 5 0 hrunner hempty⟩
    refine hfutures 1 7 3 hfuture 7 none ?_
    rw [TxQueueState.waitForCompletion,if_pos hbounds]

end WakeSystem

end FerrisOnAir.Tx

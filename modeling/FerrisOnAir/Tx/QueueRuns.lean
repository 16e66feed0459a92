import FerrisOnAir.Tx.QueueInvariant

/-! # Generation safety and FIFO order over whole runs

The interleavings of one `TxQueue` are the runs of its operations from
`TxQueue::new`. Callers may enqueue any frames here; that they own the buffers
only matters for the capacity and is added with the buffer pool.
-/
namespace FerrisOnAir.Tx.QueueSystem
open TxQueueState RingWindow
variable {N : ℕ} {C P E : Type*} [NeZero N] {s t : QueueSystem N C P E}
  {ops : List (QueueOp N C P E)}

def Step (s : QueueSystem N C P E) (op : QueueOp N C P E) (t : QueueSystem N C P E) : Prop :=
  ∃ o, s.step op = .ok o ∧ o.system = t

def next (s : QueueSystem N C P E) (op : QueueOp N C P E) : Option (QueueSystem N C P E) :=
  (s.step op).toOption.map Outcome.system

theorem step_of_next {op : QueueOp N C P E} (h : s.next op = some t) : Step s op t := by
  obtain ⟨o,ho,rfl⟩ := Option.map_eq_some_iff.mp h
  exact ⟨o,ok_of_toOption ho,rfl⟩

theorem Step.valid {op : QueueOp N C P E} (h : Step s op t) (hs : s.Valid) : t.Valid := by
  obtain ⟨o,ho,rfl⟩ := h
  exact step_valid hs ho

theorem runs_valid (hr : Runs Step s ops t) (hs : s.Valid) : t.Valid :=
  hr.invariant (fun _ _ _ hs h => h.valid hs) hs

/-- The frames an operation appends to the queue. -/
def submitted : QueueOp N C P E → List (PendingFrame N C P)
  | .enqueueFrame f => [f]
  | _ => []

/-- Only `enqueue_frame` extends the sequence of enqueued frames. -/
theorem step_enqueued {op : QueueOp N C P E} {o : Outcome N C P E} (he : s.step op = .ok o) :
    o.system.history.enqueued = s.history.enqueued ++ submitted op := by
  cases op with
  | enqueueFrame f =>
    simp only [step,QueueSystem.enqueueFrame] at he
    split at he
    · cases he
    · cases he
      rfl
  | waitQueueNotEmpty w =>
    cases ha : s.active with
    | some a => simp only [step,ha] at he; cases he
    | none =>
      simp only [step,ha] at he
      cases he
      exact (List.append_nil _).symm
  | tryReceive =>
    cases ha : s.active with
    | some a => simp only [step,QueueSystem.tryReceive,ha] at he; cases he
    | none =>
      simp only [step,QueueSystem.tryReceive,ha] at he
      split at he
      · cases he
      · cases he
        exact (List.append_nil _).symm
      · split at he <;> cases he
        exact (List.append_nil _).symm
  | transmitted result contents =>
    cases ha : s.active with
    | none => simp only [step,ha] at he; cases he
    | some a =>
      simp only [step,ha] at he
      cases he
      exact (List.append_nil _).symm
  | abort =>
    cases ha : s.active with
    | none => simp only [step,ha] at he; cases he
    | some a =>
      simp only [step,ha] at he
      cases he
      exact (List.append_nil _).symm
  | waitForCompletion g w =>
    simp only [step,QueueSystem.waitForCompletion] at he
    split at he
    · split at he <;> cases he <;> exact (List.append_nil _).symm
    · cases he
  | status g =>
    simp only [step] at he
    split at he <;> cases he
    exact (List.append_nil _).symm
  | dropHandle g =>
    simp only [step,QueueSystem.dropHandle] at he
    split at he <;> cases he
    exact (List.append_nil _).symm

namespace Valid

theorem mem_handed (hs : s.Valid) {g : ℕ} {f : PendingFrame N C P}
    (hf : s.history.enqueued[g]? = some f) (hg : g < s.handedCount) :
    (g,f) ∈ s.history.handed := by
  have hfst : (s.history.handed.map Prod.fst)[g]? = some g := by
    rw [hs.handed_generations]
    exact List.getElem?_range hg
  have hsnd : (s.history.handed.map Prod.snd)[g]? = some f := by
    rw [hs.handed_frames,List.getElem?_take_of_lt hg,hf]
  rw [List.getElem?_map] at hfst hsnd
  obtain ⟨p,hp,hpg⟩ := Option.map_eq_some_iff.mp hfst
  rw [hp] at hsnd
  have hpf : p.2 = f := Option.some.inj hsnd
  obtain ⟨_,_⟩ := p
  dsimp only at hpg hpf
  subst hpg hpf
  exact List.mem_of_getElem? hp

/-- An unexpired poll shows exactly the slot of its own generation. -/
theorem waitForCompletion_some (hs : s.Valid) {g : ℕ} (hg : g ∈ s.handles) {w : Waker}
    {d : TxReturnData N C E} (h : (s.queue.waitForCompletion g w).1 = .ready (some d)) :
    InWindow N s.queue.counter g ∧ g ∉ s.history.claimed.map Prod.fst ∧
      (g,some d) ∈ s.history.finished := by
  have hlt := hs.handles_lt g hg
  rcases waitForCompletion_cases s.queue g w with ⟨_,hp⟩ | ⟨hb,⟨d',hslot,hp⟩ | ⟨_,hp⟩ | ⟨_,hp⟩⟩
  · rw [hp] at h
    cases h
  · rw [hp] at h
    cases h
    have hw := (isCounterOutOfBounds_eq_false hlt).mp hb
    exact ⟨hw,((hs.returnDataAvailable_iff hw).mp hslot).2⟩
  · rw [hp] at h
    cases h
  · rw [hp] at h
    cases h

theorem waitForCompletion_stored (hs : s.Valid) {g : ℕ} (hg : g ∈ s.handles)
    (hw : InWindow N s.queue.counter g) (hc : g ∉ s.history.claimed.map Prod.fst)
    {d : TxReturnData N C E} (hd : (g,some d) ∈ s.history.finished) (w : Waker) :
    (s.queue.waitForCompletion g w).1 = .ready (some d) := by
  have hslot := (hs.returnDataAvailable_iff hw).mpr ⟨hg,hc,hd⟩
  have hb := (isCounterOutOfBounds_eq_false hw.1).mpr hw
  unfold item at hslot
  simp only [TxQueueState.waitForCompletion,hb,Bool.false_eq_true,if_false,hslot]

theorem waitForCompletion_aborted (hs : s.Valid) {g : ℕ} (hw : InWindow N s.queue.counter g)
    (hd : (g,none) ∈ s.history.finished) (w : Waker) :
    (s.queue.waitForCompletion g w).1 = .ready none := by
  have hlt := hs.finished_lt hd
  have hn : s.stored g = none := by
    cases ho : s.stored g with
    | none => rfl
    | some d =>
      have h := hs.mem_finished.mp (hs.stored_eq_some.mp ho).2.2
      rw [hs.mem_finished.mp hd] at h
      cases h
  have hslot : (s.item g).slot = .empty := (hs.retired_slot hlt hw).trans (by rw [hn]; rfl)
  have hb := (isCounterOutOfBounds_eq_false hw.1).mpr hw
  unfold item at hslot
  simp only [TxQueueState.waitForCompletion,hb,Bool.false_eq_true,if_false,hslot]

end Valid

/-- Handles are safe to keep beyond the lifetime of their slot. A completion is
delivered to the handle of its own generation and at most once, it is not lost
before the slot is issued again, an expired handle changes nothing, and `finish`
keeps a completion exactly for a live handle. -/
theorem handle_generation_safety (hr : Runs Step new ops s) :
    (∀ g ∈ s.handles, ∀ w d, (s.queue.waitForCompletion g w).1 = .ready (some d) →
      g ∉ s.history.claimed.map Prod.fst ∧ (g,some d) ∈ s.history.finished ∧
      ∃ f, s.history.enqueued[g]? = some f ∧ (g,f) ∈ s.history.handed ∧
        d.frame.buffer = f.frame.buffer ∧ d.frameLength = f.frameLength) ∧
    (s.history.claimed.map Prod.fst).Nodup ∧
    (∀ g ∈ s.handles, s.queue.counter - g ≤ N → ∀ w,
      (∀ d, (g,some d) ∈ s.history.finished → g ∉ s.history.claimed.map Prod.fst →
        (s.queue.waitForCompletion g w).1 = .ready (some d)) ∧
      ((g,none) ∈ s.history.finished → (s.queue.waitForCompletion g w).1 = .ready none)) ∧
    (∀ g ∈ s.handles, N < s.queue.counter - g →
      (∀ w, s.queue.waitForCompletion g w = (.ready none,s.queue)) ∧
      s.queue.status g = .slotNoLongerValid ∧ s.queue.dropPending g = (s.queue,none)) ∧
    (∀ t f, s.active = some (t,f) →
      ((s.queue.queueItems t.index).returnDataExpected = true ↔ t.generation ∈ s.handles)) := by
  have hs := runs_valid hr new_valid
  refine ⟨?_,hs.claimed_once,?_,?_,?_⟩
  · intro g hg w d h
    obtain ⟨_,hc,hd⟩ := hs.waitForCompletion_some hg h
    obtain ⟨f,hf,hrest⟩ := hs.finished_frames g d hd
    exact ⟨hc,hd,f,hf,hs.mem_handed hf ((hs.finished_lt hd).trans_le (Nat.le_add_right ..)),hrest⟩
  · intro g hg hle w
    have hlt := hs.handles_lt g hg
    have hw : InWindow N s.queue.counter g := ⟨hlt,by omega⟩
    exact ⟨fun d hd hc => hs.waitForCompletion_stored hg hw hc hd w,
      fun hd => hs.waitForCompletion_aborted hw hd w⟩
  · intro g _ hlt
    have hb := isCounterOutOfBounds_eq_true hlt
    simp only [TxQueueState.waitForCompletion,TxQueueState.status,TxQueueState.dropPending,hb,
      if_true,implies_true,and_self]
  · intro t f ha
    obtain ⟨hpos,hi,hgen,_⟩ := hs.active_front t f ha
    have hfl := hs.front_add_len
    rw [hi,hgen]
    exact (hs.items _ (hs.inWindow_of_front_le le_rfl (by omega))).2

/-- A handle kept while its slot of a ring of two is issued again. -/
theorem handle_generation_safety_stale : ∃ s : QueueSystem 2 Unit Unit Unit,
    Runs Step new [.enqueueFrame ⟨⟨0,()⟩,0,(),0,.drop⟩,.enqueueFrame ⟨⟨1,()⟩,0,(),0,.drop⟩,
      .tryReceive,.transmitted (.ok 0) (),.waitForCompletion 0 7,
      .enqueueFrame ⟨⟨0,()⟩,0,(),0,.drop⟩] s ∧
    0 ∈ s.handles ∧ s.queue.status 0 = .slotNoLongerValid := by
  apply Runs.exists_of_execute (fun _ _ _ => step_of_next)
    (fun s => 0 ∈ s.handles ∧ 2 < s.queue.counter - 0)
  · decide
  · rintro s hr ⟨hmem,hlt⟩
    exact ⟨hmem,((handle_generation_safety hr).2.2.2.1 0 hmem hlt).2.1⟩

/-- The frames handed to the radio are a prefix of the enqueued frames, one
generation after the other; all other enqueued frames are still pending in the
ring, in order, whatever became of their handles. -/
theorem handed_frames_fifo (hr : Runs Step new ops s) :
    s.history.handed.map Prod.snd <+: s.history.enqueued ∧
    s.history.handed.map Prod.fst = List.range s.history.handed.length ∧
    ∀ g f, s.history.handed.length ≤ g → s.history.enqueued[g]? = some f →
      (s.queue.queueItems (slotOf g)).slot = .pending f := by
  have hs := runs_valid hr new_valid
  have hlen : s.history.handed.length = s.handedCount := by
    simpa using congrArg List.length hs.handed_generations
  refine ⟨?_,?_,?_⟩
  · rw [hs.handed_frames]
    exact List.take_prefix _ _
  · rw [hlen]
    exact hs.handed_generations
  · intro g f hg hf
    have hlt := (List.getElem?_eq_some_iff.mp hf).1
    obtain ⟨f',hf',hslot⟩ := hs.queued_slot (hlen ▸ hg) (by rw [hs.counter_eq]; exact hlt)
    rw [hf] at hf'
    cases hf'
    exact hslot

/-- An aborted transmission is not handed out again after its slot is reused. -/
theorem handed_frames_fifo_abort : ∃ s : QueueSystem 1 Unit Unit Unit,
    Runs Step new [.enqueueFrame ⟨⟨0,()⟩,0,(),0,.drop⟩,.tryReceive,.dropHandle 0,.abort,
      .enqueueFrame ⟨⟨0,()⟩,8,(),1,.drop⟩,.tryReceive] s ∧
    s.history.handed.map Prod.snd <+: s.history.enqueued ∧ s.history.handed.length = 2 := by
  apply Runs.exists_of_execute (fun _ _ _ => step_of_next) (fun s => s.history.handed.length = 2)
  · decide
  · intro s hr hlen
    exact ⟨(handed_frames_fifo hr).1,hlen⟩

end FerrisOnAir.Tx.QueueSystem

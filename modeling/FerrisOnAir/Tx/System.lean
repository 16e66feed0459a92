import FerrisOnAir.Tx.QueueOwnership
import FerrisOnAir.Tx.QueueRuns

/-! # The four EDCA queues over one buffer pool

`foa/src/lib.rs` gives every interface a `TxEndpoint` with the same pool and the
same four queues. A buffer is in the free channel, with a caller, in a slot or
with a runner; every path that ends its life goes through `TxBuffer::drop`.
-/
namespace FerrisOnAir.Tx
open TxQueueState RingWindow
variable {N : ℕ} {C P E : Type*}

structure TxSystem (N : ℕ) (C P E : Type*) where
  manager : TxBufferManager N C
  held : List (TxBuffer N C)
  queues : Fin 4 → QueueSystem N C P E

/-- Callers name a buffer they own by its position in the pool. Frames enter a queue
through `transmit_edca` only. -/
inductive TxOp (N : ℕ) (C P E : Type*)
  | tryAlloc
  | write (i : Fin N) (contents : C)
  | dropBuffer (i : Fin N)
  | transmitEdca (q : Fin 4) (i : Fin N) (frameLength : ℕ) (parameters : P) (interface : ℕ)
      (retryBehaviour : RetryBehaviour)
  | queue (q : Fin 4) (op : QueueOp N C P E)

/-- The buffer an operation names. -/
def TxOp.buffer : TxOp N C P E → Option (Fin N)
  | .write i _ => some i
  | .dropBuffer i => some i
  | .transmitEdca _ i _ _ _ _ => some i
  | _ => none

/-- The handle an operation names, with its queue. -/
def TxOp.handle : TxOp N C P E → Option (Fin 4 × ℕ)
  | .queue q (.waitForCompletion g _) => some (q,g)
  | .queue q (.status g) => some (q,g)
  | .queue q (.dropHandle g) => some (q,g)
  | _ => none

/-- What an operation takes from its caller. -/
def TxOp.given : TxOp N C P E → Multiset (Fin N)
  | .dropBuffer i => {i}
  | .transmitEdca _ i _ _ _ _ => {i}
  | _ => 0

/-- The buffer a completed transmission gives back. -/
def Poll.returned : Poll (Option (TxReturnData N C E)) → Multiset (Fin N)
  | .ready (some data) => {data.frame.buffer}
  | _ => 0

/-- Moves an owned buffer out of the list of its callers. -/
def takeBuffer (held : List (TxBuffer N C)) (i : Fin N) :
    Option (TxBuffer N C × List (TxBuffer N C)) :=
  match held with
  | [] => none
  | b :: rest =>
    if b.buffer = i then some (b,rest)
    else (takeBuffer rest i).map (fun r => (r.1,b :: r.2))

theorem takeBuffer_some {held rest : List (TxBuffer N C)} {i : Fin N} {b : TxBuffer N C}
    (h : takeBuffer held i = some (b,rest)) :
    b.buffer = i ∧ bufferIds held = {i} + bufferIds rest := by
  induction held generalizing rest with
  | nil => cases h
  | cons c held ih =>
    unfold takeBuffer at h
    by_cases hc : c.buffer = i
    · rw [if_pos hc] at h
      cases h
      exact ⟨hc,by rw [bufferIds_cons,hc]⟩
    · rw [if_neg hc] at h
      obtain ⟨⟨b',rest'⟩,hr,he⟩ := Option.map_eq_some_iff.mp h
      cases he
      obtain ⟨hb,hids⟩ := ih hr
      exact ⟨hb,by rw [bufferIds_cons,bufferIds_cons,hids]; abel⟩

theorem takeBuffer_of_mem {held : List (TxBuffer N C)} {i : Fin N} (hi : i ∈ bufferIds held) :
    ∃ b rest, takeBuffer held i = some (b,rest) := by
  induction held with
  | nil => exact absurd hi (Multiset.notMem_zero i)
  | cons c held ih =>
    unfold takeBuffer
    by_cases hc : c.buffer = i
    · exact ⟨c,held,if_pos hc⟩
    · rw [bufferIds_cons,Multiset.mem_add,Multiset.mem_singleton] at hi
      obtain ⟨b,rest,hb⟩ := ih (hi.resolve_left (Ne.symm hc))
      exact ⟨b,c :: rest,by rw [if_neg hc,hb]; rfl⟩

namespace TxSystem

/-- `foa::init` on fresh resources, whose buffers are all zero. -/
def new [Zero C] : TxSystem N C P E :=
  ⟨TxBufferManager.new (fun _ => 0),[],fun _ => QueueSystem.new⟩

/-- The effect of a queue operation on the pool and on the callers. -/
def settle [Zero C] (s : TxSystem N C P E) (q : Fin 4) (held : List (TxBuffer N C))
    (o : Outcome N C P E) : TxSystem N C P E where
  manager := s.manager.dropAll o.dropped
  held := o.returned ++ held
  queues := Function.update s.queues q o.system

/-- One operation of queue `q`, whose callers keep `held`. -/
def queueStep [Zero C] [NeZero N] (s : TxSystem N C P E) (q : Fin 4) (held : List (TxBuffer N C))
    (op : QueueOp N C P E) : Except Fault (TxSystem N C P E) :=
  match (s.queues q).step op with
  | .error e => .error e
  | .ok o => .ok (s.settle q held o)

def step [Zero C] [NeZero N] (s : TxSystem N C P E) : TxOp N C P E → Except Fault (TxSystem N C P E)
  | .tryAlloc =>
    match s.manager.tryAlloc with
    | none => .ok s
    | some (b,manager) => .ok { s with manager := manager, held := b :: s.held }
  | .write i contents =>
    match takeBuffer s.held i with
    | none => .error .disabled
    | some (b,rest) => .ok { s with held := { b with contents := contents } :: rest }
  | .dropBuffer i =>
    match takeBuffer s.held i with
    | none => .error .disabled
    | some (b,rest) => .ok { s with manager := s.manager.drop b, held := rest }
  | .transmitEdca q i frameLength parameters interface retryBehaviour =>
    match takeBuffer s.held i with
    | none => .error .disabled
    | some (b,rest) =>
      s.queueStep q rest (.enqueueFrame ⟨b,frameLength,parameters,interface,retryBehaviour⟩)
  | .queue _ (.enqueueFrame _) => .error .disabled
  | .queue q op => s.queueStep q s.held op

def Step [Zero C] [NeZero N] (s : TxSystem N C P E) (op : TxOp N C P E) (t : TxSystem N C P E) :
    Prop :=
  s.step op = .ok t

/-- All pool memory, wherever it is. -/
def owned (s : TxSystem N C P E) : Multiset (Fin N) :=
  bufferIds s.manager.bufferQueue + bufferIds s.held + Ownership.total QueueSystem.owned s.queues

structure Valid [Zero C] [NeZero N] (s : TxSystem N C P E) : Prop where
  partition : s.owned = Finset.univ.val
  zeroed : ∀ b ∈ s.manager.bufferQueue, b.contents = 0
  sent : s.manager.failedSends = 0
  queues_valid : ∀ q, (s.queues q).Valid

section Preservation
variable [Zero C] [NeZero N] {s t : TxSystem N C P E}

omit [NeZero N] in
theorem new_owned : (new : TxSystem N C P E).owned = Finset.univ.val := by
  have hq : Ownership.total QueueSystem.owned (new : TxSystem N C P E).queues = 0 := by
    simp [Ownership.total,new,QueueSystem.owned,QueueSystem.new,TxQueueState.new]
  have hf : bufferIds (new : TxSystem N C P E).manager.bufferQueue = Finset.univ.val := by
    have he : (new : TxSystem N C P E).manager.bufferQueue = _ :=
      congrArg TxBufferManager.bufferQueue (TxBufferManager.new_eq (fun _ => (0 : C)))
    rw [he,bufferIds,List.map_map,show TxBuffer.buffer ∘ _ = (id : Fin N → Fin N) from rfl,
      List.map_id]
    rfl
  rw [owned,hf,hq]
  simp [new]

theorem new_valid : (new : TxSystem N C P E).Valid where
  partition := new_owned
  zeroed := by
    intro b hb
    rw [new,TxBufferManager.new_eq] at hb
    obtain ⟨i,_,rfl⟩ := List.mem_map.mp hb
    rfl
  sent := by rw [new,TxBufferManager.new_eq]
  queues_valid _ := QueueSystem.new_valid

omit [Zero C] [NeZero N] in
theorem card_owned (h : s.owned = Finset.univ.val) : s.owned.card = N := by
  rw [h]
  exact Finset.card_fin N

/-- Whatever an operation drops fits the free channel, because it was not in it. -/
theorem settle_valid (hs : s.Valid) {q : Fin 4} {held : List (TxBuffer N C)} {o : Outcome N C P E}
    (ho : o.system.Valid)
    (hcons : o.system.owned + bufferIds o.dropped + bufferIds o.returned + bufferIds held =
      (s.queues q).owned + bufferIds s.held) : (s.settle q held o).Valid := by
  have htot := Ownership.total_update QueueSystem.owned s.queues q o.system
  have hall : bufferIds s.manager.bufferQueue + bufferIds o.dropped + bufferIds o.returned +
      bufferIds held + Ownership.total QueueSystem.owned (Function.update s.queues q o.system) =
      Finset.univ.val := by
    rw [← hs.partition]
    apply add_right_cancel (b := (s.queues q).owned)
    calc _ = bufferIds s.manager.bufferQueue +
          (Ownership.total QueueSystem.owned (Function.update s.queues q o.system) +
            (s.queues q).owned) + (bufferIds o.dropped + bufferIds o.returned + bufferIds held) := by
          abel
      _ = bufferIds s.manager.bufferQueue + Ownership.total QueueSystem.owned s.queues +
          (o.system.owned + bufferIds o.dropped + bufferIds o.returned + bufferIds held) := by
          rw [htot]
          abel
      _ = s.owned + (s.queues q).owned := by
          rw [hcons,owned]
          abel
  have hroom : s.manager.bufferQueue.length + o.dropped.length ≤ N := by
    have h := congrArg Multiset.card hall
    simp only [Multiset.card_add,card_bufferIds,Finset.card_val,Finset.card_fin] at h
    omega
  have hdrop := TxBufferManager.dropAll_of_le s.manager o.dropped hroom
  have hids : bufferIds (s.manager.dropAll o.dropped).bufferQueue =
      bufferIds s.manager.bufferQueue + bufferIds o.dropped := by
    rw [hdrop,bufferIds_append]
    simp [bufferIds,Function.comp_def]
  refine ⟨?_,?_,?_,?_⟩
  · unfold owned settle
    rw [hids,bufferIds_append,← hall]
    abel
  · intro b hb
    have hb' : b ∈ (s.manager.dropAll o.dropped).bufferQueue := hb
    rw [hdrop] at hb'
    rcases List.mem_append.mp hb' with hb' | hb'
    · exact hs.zeroed b hb'
    · obtain ⟨c,_,rfl⟩ := List.mem_map.mp hb'
      rfl
  · unfold settle
    rw [hdrop]
    exact hs.sent
  · intro q'
    by_cases hq : q' = q
    · subst hq
      simpa [settle] using ho
    · simpa [settle,hq] using hs.queues_valid q'

theorem queueStep_ok {q : Fin 4} {op : QueueOp N C P E} {held : List (TxBuffer N C)}
    (he : s.queueStep q held op = .ok t) :
    ∃ o, (s.queues q).step op = .ok o ∧ t = s.settle q held o := by
  unfold queueStep at he
  split at he
  · cases he
  · rename_i o ho
    cases he
    exact ⟨o,ho,rfl⟩

theorem queueStep_valid (hs : s.Valid) {q : Fin 4} {op : QueueOp N C P E}
    {held : List (TxBuffer N C)} (he : s.queueStep q held op = .ok t)
    (hheld : bufferIds s.held = bufferIds (QueueSystem.input op) + bufferIds held) : t.Valid := by
  obtain ⟨o,ho,rfl⟩ := queueStep_ok he
  apply settle_valid hs (QueueSystem.step_valid (hs.queues_valid q) ho)
  rw [QueueSystem.step_owned ho,hheld]
  abel

theorem step_queue {q : Fin 4} {op : QueueOp N C P E} (he : s.step (.queue q op) = .ok t) :
    s.queueStep q s.held op = .ok t ∧ QueueSystem.input op = [] := by
  cases op with
  | enqueueFrame f => cases he
  | _ => exact ⟨he,rfl⟩

/-- What the operations do with a buffer that is held. -/
theorem step_write {i : Fin N} {contents : C} (he : s.step (.write i contents) = .ok t) :
    ∃ b rest, takeBuffer s.held i = some (b,rest) ∧
      t = { s with held := { b with contents := contents } :: rest } := by
  simp only [step] at he
  split at he
  · cases he
  · rename_i b rest hb
    cases he
    exact ⟨b,rest,hb,rfl⟩

theorem step_dropBuffer {i : Fin N} (he : s.step (.dropBuffer i) = .ok t) :
    ∃ b rest, takeBuffer s.held i = some (b,rest) ∧
      t = { s with manager := s.manager.drop b, held := rest } := by
  simp only [step] at he
  split at he
  · cases he
  · rename_i b rest hb
    cases he
    exact ⟨b,rest,hb,rfl⟩

theorem step_transmitEdca {q : Fin 4} {i : Fin N} {len interface : ℕ} {p : P}
    {r : RetryBehaviour} (he : s.step (.transmitEdca q i len p interface r) = .ok t) :
    ∃ b rest, takeBuffer s.held i = some (b,rest) ∧
      s.queueStep q rest (.enqueueFrame ⟨b,len,p,interface,r⟩) = .ok t := by
  simp only [step] at he
  split at he
  · cases he
  · rename_i b rest hb
    exact ⟨b,rest,hb,he⟩

theorem step_valid (hs : s.Valid) {op : TxOp N C P E} (he : s.step op = .ok t) : t.Valid := by
  cases op with
  | tryAlloc =>
    simp only [step,TxBufferManager.tryAlloc] at he
    cases hb : s.manager.bufferQueue with
    | nil =>
      simp only [hb] at he
      cases he
      exact hs
    | cons b rest =>
      simp only [hb] at he
      cases he
      refine ⟨?_,?_,hs.sent,hs.queues_valid⟩
      · rw [← hs.partition]
        simp only [owned,hb,bufferIds_cons]
        abel
      · intro c hc
        exact hs.zeroed c (by rw [hb]; exact List.mem_cons_of_mem _ hc)
  | write i contents =>
    obtain ⟨b,rest,hb,rfl⟩ := step_write he
    obtain ⟨hbi,hids⟩ := takeBuffer_some hb
    refine ⟨?_,hs.zeroed,hs.sent,hs.queues_valid⟩
    rw [← hs.partition]
    simp only [owned,bufferIds_cons,hids,hbi]
  | dropBuffer i =>
    obtain ⟨b,rest,hb,rfl⟩ := step_dropBuffer he
    obtain ⟨hbi,hids⟩ := takeBuffer_some hb
    have h : (s.settle 0 rest ⟨s.queues 0,[b],[]⟩).Valid := by
      apply settle_valid hs (hs.queues_valid 0)
      simp [hids,hbi,add_assoc]
    simpa [settle,TxBufferManager.dropAll] using h
  | transmitEdca q i len p iface r =>
    obtain ⟨b,rest,hb,he⟩ := step_transmitEdca he
    obtain ⟨hbi,hids⟩ := takeBuffer_some hb
    exact queueStep_valid hs he (by simp [QueueSystem.input,hids,hbi])
  | queue q op =>
    obtain ⟨he,hin⟩ := step_queue he
    exact queueStep_valid hs he (by simp [hin])

theorem runs_valid {ops : List (TxOp N C P E)} (hr : Runs Step s ops t) (hs : s.Valid) : t.Valid :=
  hr.invariant (fun _ _ _ hs h => step_valid hs h) hs

end Preservation

section Submission
variable [Zero C] [NeZero N] {s t u : TxSystem N C P E} {q : Fin 4}

/-- Several operations without an await between them. -/
def run (s : TxSystem N C P E) : List (TxOp N C P E) → Except Fault (TxSystem N C P E)
  | [] => .ok s
  | op :: ops =>
    match s.step op with
    | .error e => .error e
    | .ok t => t.run ops

theorem run_cons {op : TxOp N C P E} {ops : List (TxOp N C P E)} (h : s.run (op :: ops) = .ok u) :
    ∃ t, Step s op t ∧ t.run ops = .ok u := by
  unfold run at h
  split at h
  · cases h
  · rename_i t ht
    exact ⟨t,ht,h⟩

theorem runs_of_run {ops : List (TxOp N C P E)} (h : s.run ops = .ok t) : Runs Step s ops t := by
  induction ops generalizing s with
  | nil =>
    cases h
    exact .refl _
  | cons op ops ih =>
    obtain ⟨u,hu,h⟩ := run_cons h
    exact .step hu (ih h)

def enqueued (s : TxSystem N C P E) (q : Fin 4) : List (PendingFrame N C P) :=
  (s.queues q).history.enqueued

theorem queueStep_enqueued {q' : Fin 4} {held : List (TxBuffer N C)} {op : QueueOp N C P E}
    (he : s.queueStep q' held op = .ok t) : t.enqueued q = s.enqueued q ++
      if q' = q then QueueSystem.submitted op else [] := by
  obtain ⟨o,ho,rfl⟩ := queueStep_ok he
  unfold enqueued
  simp only [settle]
  by_cases hq : q' = q
  · subst hq
    rw [Function.update_self,if_pos rfl,QueueSystem.step_enqueued ho]
  · rw [Function.update_of_ne (Ne.symm hq),if_neg hq,List.append_nil]

/-- Frames are appended by `transmit_edca` only. -/
theorem step_enqueued_cases {op : TxOp N C P E} (he : Step s op t) (q : Fin 4) :
    t.enqueued q = s.enqueued q ∨
    ∃ i len p iface r b rest, op = .transmitEdca q i len p iface r ∧
      takeBuffer s.held i = some (b,rest) ∧ t.enqueued q = s.enqueued q ++ [⟨b,len,p,iface,r⟩] := by
  unfold Step at he
  cases op with
  | tryAlloc =>
    simp only [step] at he
    split at he <;> cases he <;> exact Or.inl rfl
  | write i contents =>
    simp only [step] at he
    split at he <;> cases he
    exact Or.inl rfl
  | dropBuffer i =>
    simp only [step] at he
    split at he <;> cases he
    exact Or.inl rfl
  | transmitEdca q' i len p iface retry =>
    obtain ⟨b,rest,hb,he⟩ := step_transmitEdca he
    have h := queueStep_enqueued (q := q) he
    by_cases hq : q' = q
    · subst hq
      rw [if_pos rfl] at h
      exact Or.inr ⟨i,len,p,iface,retry,b,rest,rfl,hb,h⟩
    · rw [if_neg hq,List.append_nil] at h
      exact Or.inl h
  | queue q' op =>
    obtain ⟨he,_⟩ := step_queue he
    have h := queueStep_enqueued (q := q) he
    cases op with
    | enqueueFrame f => cases ‹QueueSystem.input _ = []›
    | _ => exact Or.inl (by simpa [QueueSystem.submitted] using h)

end Submission
section Callers
variable [Zero C] [NeZero N] {s t : TxSystem N C P E} {op : TxOp N C P E}

theorem tryAlloc_held {b : TxBuffer N C} {manager : TxBufferManager N C}
    (hb : s.manager.tryAlloc = some (b,manager)) (he : Step s .tryAlloc t) :
    bufferIds t.held = {b.buffer} + bufferIds s.held := by
  simp only [Step,step,hb] at he
  cases he
  rfl

theorem write_held {i : Fin N} {contents : C} (he : Step s (.write i contents) t) :
    bufferIds t.held = bufferIds s.held := by
  obtain ⟨b,rest,hb,rfl⟩ := step_write he
  obtain ⟨hi,hids⟩ := takeBuffer_some hb
  rw [hids,bufferIds_cons,hi]

theorem dropBuffer_held {i : Fin N} (he : Step s (.dropBuffer i) t) :
    {i} + bufferIds t.held = bufferIds s.held := by
  obtain ⟨b,rest,hb,rfl⟩ := step_dropBuffer he
  exact (takeBuffer_some hb).2.symm

omit [Zero C] in
theorem enqueueFrame_returned {q : QueueSystem N C P E} {f : PendingFrame N C P}
    {o : Outcome N C P E} (he : q.step (.enqueueFrame f) = .ok o) : o.returned = [] := by
  simp only [QueueSystem.step,QueueSystem.enqueueFrame] at he
  split at he
  · cases he
  · cases he
    rfl

theorem transmitEdca_held {q : Fin 4} {i : Fin N} {len interface : ℕ} {p : P} {r : RetryBehaviour}
    (he : Step s (.transmitEdca q i len p interface r) t) :
    {i} + bufferIds t.held = bufferIds s.held := by
  obtain ⟨b,rest,hb,he⟩ := step_transmitEdca he
  obtain ⟨o,ho,rfl⟩ := queueStep_ok he
  have hheld : (s.settle q rest o).held = rest := by
    change o.returned ++ rest = rest
    rw [enqueueFrame_returned ho,List.nil_append]
  rw [hheld]
  exact (takeBuffer_some hb).2.symm

omit [Zero C] in
theorem waitForCompletion_returned {q : QueueSystem N C P E} {g : ℕ} {w : Waker}
    {o : Outcome N C P E} (he : q.step (.waitForCompletion g w) = .ok o) :
    bufferIds o.returned = (q.queue.waitForCompletion g w).1.returned := by
  simp only [QueueSystem.step,QueueSystem.waitForCompletion] at he
  split at he
  · split at he
    · rename_i data _ hp
      cases he
      rw [hp]
      rfl
    · rename_i hp
      cases he
      rw [hp]
      rfl
    · rename_i hp
      cases he
      rw [hp]
      rfl
  · cases he

theorem waitForCompletion_held {q : Fin 4} {g : ℕ} {w : Waker}
    (he : Step s (.queue q (.waitForCompletion g w)) t) :
    bufferIds t.held =
      ((s.queues q).queue.waitForCompletion g w).1.returned + bufferIds s.held := by
  obtain ⟨o,ho,rfl⟩ := queueStep_ok (step_queue he).1
  change bufferIds (o.returned ++ s.held) = _
  rw [bufferIds_append,waitForCompletion_returned ho]

theorem dropHandle_held {q : Fin 4} {g : ℕ} (he : Step s (.queue q (.dropHandle g)) t) :
    t.held = s.held := by
  obtain ⟨o,ho,rfl⟩ := queueStep_ok (step_queue he).1
  simp only [QueueSystem.step,QueueSystem.dropHandle] at ho
  split at ho
  · cases ho
    rfl
  · cases ho

/-- A caller may drop what it holds. -/
theorem dropBuffer_enabled {i : Fin N} (hi : i ∈ bufferIds s.held) :
    ∃ t, Step s (.dropBuffer i) t := by
  obtain ⟨b,rest,hb⟩ := takeBuffer_of_mem hi
  refine ⟨{ s with manager := s.manager.drop b, held := rest },?_⟩
  simp only [Step,step,hb]

/-- Callers lose what they give away and gain what is returned to them. -/
theorem step_held (he : Step s op t) :
    ∃ gained, op.given + bufferIds t.held = bufferIds s.held + gained := by
  cases op with
  | tryAlloc =>
    cases hb : s.manager.tryAlloc with
    | none =>
      simp only [Step,step,hb] at he
      cases he
      exact ⟨0,by simp [TxOp.given]⟩
    | some r =>
      refine ⟨{r.1.buffer},?_⟩
      change 0 + bufferIds t.held = _
      rw [tryAlloc_held hb he,zero_add,add_comm]
  | write i contents => exact ⟨0,by simp [TxOp.given,write_held he]⟩
  | dropBuffer i => exact ⟨0,by rw [add_zero]; exact dropBuffer_held he⟩
  | transmitEdca q i len p interface r => exact ⟨0,by rw [add_zero]; exact transmitEdca_held he⟩
  | queue q op =>
    obtain ⟨he,_⟩ := step_queue he
    obtain ⟨o,_,rfl⟩ := queueStep_ok he
    refine ⟨bufferIds o.returned,?_⟩
    change 0 + bufferIds (o.returned ++ s.held) = _
    rw [bufferIds_append]
    abel

end Callers
end TxSystem
end FerrisOnAir.Tx

import FerrisOnAir.Tx.BufferManagement
import FerrisOnAir.Foundation.RingWindow

/-! # The asynchronous transmit queue

`foa/src/tx_queue.rs`. Every operation runs under the queue's lock, so each is one
function on the queue state. A Rust value that goes out of scope inside an
operation (the old content of an overwritten `Cell`, a discarded completion) is
returned to the caller of the model, which performs its drop.
-/
namespace FerrisOnAir.Tx
open RingWindow

/-- A task's waker, by identity. -/
abbrev Waker := ℕ

/-- `RetryBehaviour`. The rate list exists only with `multi_rate_retry`. -/
inductive RetryBehaviour
  | drop
  | retryUntil (retries : ℕ)
  | multiRateRetry (rates : List ℕ)
deriving DecidableEq

/-- `PendingFrame`; `parameters` are the PLCP and MAC parameters of the driver. -/
structure PendingFrame (N : ℕ) (C P : Type*) where
  frame : TxBuffer N C
  frameLength : ℕ
  parameters : P
  interface : ℕ
  retryBehaviour : RetryBehaviour
deriving DecidableEq

/-- `TxReturnData`; `E` is the driver's `TxError`. -/
structure TxReturnData (N : ℕ) (C E : Type*) where
  result : Except E UInt8
  frame : TxBuffer N C
  frameLength : ℕ

/-- `TxQueueSlot`. A slot with return data does not count as occupied. -/
inductive TxQueueSlot (N : ℕ) (C P E : Type*)
  | empty
  | pending (frame : PendingFrame N C P)
  | inProgress
  | returnDataAvailable (data : TxReturnData N C E)

/-- One queue item: the slot, the waker of its waiting handle, and whether return
data is expected. -/
structure TxQueueItem (N : ℕ) (C P E : Type*) where
  slot : TxQueueSlot N C P E
  waker : Option Waker
  returnDataExpected : Bool

/-- The panics of this module. -/
inductive TxPanic
  | capacityExhausted
  | counterExhausted
  | frontSlotNotOccupied
  | frontSlotInProgress
  | indexOutOfBounds
  | frameLengthOutOfBounds
deriving DecidableEq

/-- `core::task::Poll`. -/
inductive Poll (α : Type*)
  | ready (a : α)
  | pending

inductive PendingTransmissionStatus
  | pending
  | inProgress
  | returnDataAvailable
  | slotNoLongerValid
deriving DecidableEq

/-- `TxQueueState`, whose arrays have `TX_BUFFER_COUNT = N` items. -/
structure TxQueueState (N : ℕ) (C P E : Type*) where
  queueItems : Fin N → TxQueueItem N C P E
  counter : ℕ
  capacity : ℕ
  queueUpdateWaker : Option Waker

/-- `InProgressTransmission`. The generation is a field of the traced build. -/
structure InProgressTransmission (N : ℕ) where
  index : Fin N
  generation : ℕ
deriving DecidableEq

variable {N : ℕ} {C P E : Type*}

namespace TxQueueSlot

/-- The buffer that is dropped with the slot. -/
def buffers : TxQueueSlot N C P E → List (TxBuffer N C)
  | pending frame => [frame.frame]
  | returnDataAvailable data => [data.frame]
  | _ => []

/-- Occupied slots are those counted by the capacity. -/
def occupied : TxQueueSlot N C P E → Bool
  | pending _ => true
  | inProgress => true
  | _ => false

@[simp] theorem buffers_empty : (empty : TxQueueSlot N C P E).buffers = [] := rfl
@[simp] theorem buffers_inProgress : (inProgress : TxQueueSlot N C P E).buffers = [] := rfl
@[simp] theorem buffers_pending (f : PendingFrame N C P) :
    (pending f : TxQueueSlot N C P E).buffers = [f.frame] := rfl
@[simp] theorem buffers_returnDataAvailable (d : TxReturnData N C E) :
    (returnDataAvailable d : TxQueueSlot N C P E).buffers = [d.frame] := rfl

@[simp] theorem occupied_empty : (empty : TxQueueSlot N C P E).occupied = false := rfl
@[simp] theorem occupied_inProgress : (inProgress : TxQueueSlot N C P E).occupied = true := rfl
@[simp] theorem occupied_pending (f : PendingFrame N C P) :
    (pending f : TxQueueSlot N C P E).occupied = true := rfl
@[simp] theorem occupied_returnDataAvailable (d : TxReturnData N C E) :
    (returnDataAvailable d : TxQueueSlot N C P E).occupied = false := rfl

end TxQueueSlot

namespace TxQueueState
variable (s : TxQueueState N C P E)

/-- `TxQueueState::new`. -/
def new : TxQueueState N C P E where
  queueItems _ := ⟨.empty,none,true⟩
  counter := 0
  capacity := N
  queueUpdateWaker := none

/-- `next_slot_index`. -/
def nextSlotIndex : ℕ := s.counter % N

def isEmpty : Bool := s.capacity == N

/-- The number of frames in the queue. -/
def len : ℕ := N - s.capacity

/-- `front_index`: the oldest item, by comparison instead of a second remainder. -/
def frontIndex : ℕ :=
  if s.nextSlotIndex ≥ s.len then s.nextSlotIndex - s.len
  else N - (s.len - s.nextSlotIndex)

/-- `increase_queue_counter`: a checked addition on `u64`, returning the old value. -/
def increaseQueueCounter : Except TxPanic (ℕ × TxQueueState N C P E) :=
  if s.counter + 1 < 2 ^ 64 then .ok (s.counter,{ s with counter := s.counter + 1 })
  else .error .counterExhausted

/-- `is_counter_out_of_bounds`: generation `counter` has been overwritten. -/
def isCounterOutOfBounds (counter : ℕ) : Bool := s.counter - counter > N

/-- Replaces one item. -/
def setItem (i : Fin N) (item : TxQueueItem N C P E) : TxQueueState N C P E :=
  { s with queueItems := Function.update s.queueItems i item }

@[simp] theorem setItem_counter (i : Fin N) (item : TxQueueItem N C P E) :
    (s.setItem i item).counter = s.counter := rfl
@[simp] theorem setItem_capacity (i : Fin N) (item : TxQueueItem N C P E) :
    (s.setItem i item).capacity = s.capacity := rfl
@[simp] theorem setItem_len (i : Fin N) (item : TxQueueItem N C P E) :
    (s.setItem i item).len = s.len := rfl
@[simp] theorem setItem_items (i : Fin N) (item : TxQueueItem N C P E) :
    (s.setItem i item).queueItems = Function.update s.queueItems i item := rfl

variable [NeZero N]

/-- The slot of a generation: `next_slot_index` and `PendingTransmission::slot_index`. -/
def slotOf (g : ℕ) : Fin N := ⟨g % N,Nat.mod_lt g (Nat.pos_of_neZero N)⟩

/-- `TxQueue::enqueue_frame`: the new state, the generation of the returned handle,
the overwritten slot and the waker that is woken. The counter is advanced, and may
panic, before any slot is touched. -/
def enqueueFrame (frame : PendingFrame N C P) :
    Except TxPanic (TxQueueState N C P E × ℕ × TxQueueSlot N C P E × Option Waker) :=
  if s.capacity > 0 then
    let wasQueueEmpty := s.isEmpty
    let index : Fin N := slotOf s.counter
    match s.increaseQueueCounter with
    | .error e => .error e
    | .ok (counter,s') =>
      let item := s'.queueItems index
      let s'' := { s' with capacity := s'.capacity - 1 }
      .ok (s''.setItem index { item with slot := .pending frame, returnDataExpected := true },
        counter,item.slot,if wasQueueEmpty then s.queueUpdateWaker else none)
  else .error .capacityExhausted

omit [NeZero N] in
/-- `TxQueueRunner::wait_queue_not_empty`, one poll. -/
def waitQueueNotEmpty (waker : Waker) : Poll Unit × TxQueueState N C P E :=
  if s.isEmpty then (.pending,{ s with queueUpdateWaker := some waker }) else (.ready (),s)

omit [NeZero N] in
/-- `TxQueueRunner::try_receive`. -/
def tryReceive : Except TxPanic
    (Option (InProgressTransmission N × PendingFrame N C P × TxQueueState N C P E)) :=
  if s.isEmpty then .ok none
  else if h : s.frontIndex < N then
    let index : Fin N := ⟨s.frontIndex,h⟩
    let item := s.queueItems index
    match item.slot with
    | .empty => .error .frontSlotNotOccupied
    | .returnDataAvailable _ => .error .frontSlotNotOccupied
    | .pending frame =>
      .ok (some (⟨index,s.counter - s.len⟩,frame,s.setItem index { item with slot := .inProgress }))
    | .inProgress => .error .frontSlotInProgress
  else .error .indexOutOfBounds

omit [NeZero N] in
/-- `InProgressTransmission::finish`: the new state, what goes out of scope (the old
slot content, then a completion nobody expects), and the waker that is woken. -/
def finish (index : Fin N) (newSlotState : TxQueueSlot N C P E) :
    TxQueueState N C P E × List (TxQueueSlot N C P E) × Option Waker :=
  let s' := { s with capacity := s.capacity + 1 }
  let item := s'.queueItems index
  if item.returnDataExpected then
    (s'.setItem index { item with slot := newSlotState },[item.slot],item.waker)
  else
    (s'.setItem index { item with slot := .empty },[item.slot,newSlotState],item.waker)

/-- `PendingTransmission::status`. -/
def status (counter : ℕ) : PendingTransmissionStatus :=
  if s.isCounterOutOfBounds counter then .slotNoLongerValid
  else match (s.queueItems (slotOf counter)).slot with
    | .inProgress => .inProgress
    | .pending _ => .pending
    | .returnDataAvailable _ => .returnDataAvailable
    | .empty => .slotNoLongerValid

/-- `PendingTransmission::wait_for_completion`, one poll. -/
def waitForCompletion (counter : ℕ) (waker : Waker) :
    Poll (Option (TxReturnData N C E)) × TxQueueState N C P E :=
  if s.isCounterOutOfBounds counter then (.ready none,s)
  else
    let index := slotOf counter
    let item := s.queueItems index
    match item.slot with
    | .returnDataAvailable data => (.ready (some data),s.setItem index { item with slot := .empty })
    | .empty => (.ready none,s)
    | _ => (.pending,s.setItem index { item with waker := some waker })

/-- `PendingTransmission::drop`: the new state and the discarded slot content. -/
def dropPending (counter : ℕ) : TxQueueState N C P E × Option (TxQueueSlot N C P E) :=
  if s.isCounterOutOfBounds counter then (s,none)
  else
    let index := slotOf counter
    let item := s.queueItems index
    match item.slot with
    | .returnDataAvailable data =>
      (s.setItem index { item with slot := .empty, returnDataExpected := false },
        some (.returnDataAvailable data))
    | _ => (s.setItem index { item with returnDataExpected := false },none)

variable {s} {s' : TxQueueState N C P E}

theorem enqueueFrame_ok {f : PendingFrame N C P} {g : ℕ} {o : TxQueueSlot N C P E}
    {w : Option Waker} (h : s.enqueueFrame f = .ok (s',g,o,w)) :
    0 < s.capacity ∧ s.counter + 1 < 2 ^ 64 ∧ g = s.counter ∧
      o = (s.queueItems (slotOf s.counter)).slot ∧
      s' = ({ s with counter := s.counter + 1, capacity := s.capacity - 1 }).setItem
        (slotOf s.counter) { s.queueItems (slotOf s.counter) with
          slot := .pending f, returnDataExpected := true } := by
  unfold enqueueFrame increaseQueueCounter at h
  by_cases hcap : s.capacity > 0
  · by_cases hc : s.counter + 1 < 2 ^ 64
    · simp only [if_pos hcap,if_pos hc] at h
      cases h
      exact ⟨hcap,hc,rfl,rfl,rfl⟩
    · simp only [if_pos hcap,if_neg hc] at h
      cases h
  · simp only [if_neg hcap] at h
    cases h

theorem enqueueFrame_error {f : PendingFrame N C P} {p : TxPanic}
    (h : s.enqueueFrame f = .error p) (hcap : 0 < s.capacity) :
    p = .counterExhausted ∧ 2 ^ 64 ≤ s.counter + 1 := by
  unfold enqueueFrame increaseQueueCounter at h
  by_cases hc : s.counter + 1 < 2 ^ 64
  · simp only [if_pos (show s.capacity > 0 from hcap),if_pos hc] at h
    cases h
  · simp only [if_pos (show s.capacity > 0 from hcap),if_neg hc] at h
    cases h
    exact ⟨rfl,not_lt.mp hc⟩

omit [NeZero N] in
theorem tryReceive_some {t : InProgressTransmission N} {f : PendingFrame N C P}
    (h : s.tryReceive = .ok (some (t,f,s'))) :
    s.isEmpty = false ∧ (t.index : ℕ) = s.frontIndex ∧ t.generation = s.counter - s.len ∧
      (s.queueItems t.index).slot = .pending f ∧
      s' = s.setItem t.index { s.queueItems t.index with slot := .inProgress } := by
  unfold tryReceive at h
  cases hempty : s.isEmpty with
  | true =>
    simp only [hempty,if_true] at h
    cases h
  | false =>
    by_cases hlt : s.frontIndex < N
    · simp only [hempty,Bool.false_eq_true,if_false,dif_pos hlt] at h
      split at h
      · cases h
      · cases h
      · rename_i hslot
        cases h
        exact ⟨rfl,rfl,rfl,hslot,rfl⟩
      · cases h
    · simp only [hempty,Bool.false_eq_true,if_false,dif_neg hlt] at h
      cases h

omit [NeZero N] in
theorem tryReceive_pending {i : Fin N} {f : PendingFrame N C P} (hempty : s.isEmpty = false)
    (hi : (i : ℕ) = s.frontIndex) (hslot : (s.queueItems i).slot = .pending f) :
    s.tryReceive = .ok (some (⟨i,s.counter - s.len⟩,f,
      s.setItem i { s.queueItems i with slot := .inProgress })) := by
  have hlt : s.frontIndex < N := hi ▸ i.isLt
  obtain rfl : i = ⟨s.frontIndex,hlt⟩ := Fin.ext hi
  simp only [tryReceive,hempty,Bool.false_eq_true,if_false,dif_pos hlt,hslot]

omit [NeZero N] in
theorem tryReceive_empty (hempty : s.isEmpty = true) : s.tryReceive = .ok none := by
  simp only [tryReceive,hempty,if_true]

omit [NeZero N] in
theorem finish_state (i : Fin N) (n : TxQueueSlot N C P E) :
    (s.finish i n).1 = ({ s with capacity := s.capacity + 1 }).setItem i
      { s.queueItems i with
        slot := if (s.queueItems i).returnDataExpected then n else .empty } := by
  unfold finish
  cases hr : (s.queueItems i).returnDataExpected <;> simp [hr]

omit [NeZero N] in
theorem finish_dropped (i : Fin N) (n : TxQueueSlot N C P E) :
    (s.finish i n).2.1 = (s.queueItems i).slot ::
      if (s.queueItems i).returnDataExpected then [] else [n] := by
  unfold finish
  cases hr : (s.queueItems i).returnDataExpected <;> simp [hr]

theorem waitForCompletion_cases (s : TxQueueState N C P E) (g : ℕ) (w : Waker) :
    (s.isCounterOutOfBounds g = true ∧ s.waitForCompletion g w = (.ready none,s)) ∨
    (s.isCounterOutOfBounds g = false ∧
      ((∃ d, (s.queueItems (slotOf g)).slot = .returnDataAvailable d ∧
          s.waitForCompletion g w = (.ready (some d),
            s.setItem (slotOf g) { s.queueItems (slotOf g) with slot := .empty })) ∨
        ((s.queueItems (slotOf g)).slot = .empty ∧ s.waitForCompletion g w = (.ready none,s)) ∨
        ((s.queueItems (slotOf g)).slot.occupied = true ∧ s.waitForCompletion g w = (.pending,
            s.setItem (slotOf g) { s.queueItems (slotOf g) with waker := some w })))) := by
  unfold waitForCompletion
  cases hb : s.isCounterOutOfBounds g with
  | true => exact Or.inl ⟨rfl,rfl⟩
  | false =>
    refine Or.inr ⟨rfl,?_⟩
    simp only [Bool.false_eq_true,if_false]
    cases hslot : (s.queueItems (slotOf g)).slot with
    | empty => exact Or.inr (Or.inl ⟨rfl,rfl⟩)
    | pending f => exact Or.inr (Or.inr ⟨rfl,rfl⟩)
    | inProgress => exact Or.inr (Or.inr ⟨rfl,rfl⟩)
    | returnDataAvailable d => exact Or.inl ⟨d,rfl,rfl⟩

theorem dropPending_cases (s : TxQueueState N C P E) (g : ℕ) :
    (s.isCounterOutOfBounds g = true ∧ s.dropPending g = (s,none)) ∨
    (s.isCounterOutOfBounds g = false ∧
      ((∃ d, (s.queueItems (slotOf g)).slot = .returnDataAvailable d ∧
          s.dropPending g = (s.setItem (slotOf g) { s.queueItems (slotOf g) with
            slot := .empty, returnDataExpected := false },some (.returnDataAvailable d))) ∨
        ((∀ d, (s.queueItems (slotOf g)).slot ≠ .returnDataAvailable d) ∧
          s.dropPending g = (s.setItem (slotOf g) { s.queueItems (slotOf g) with
            returnDataExpected := false },none)))) := by
  unfold dropPending
  cases hb : s.isCounterOutOfBounds g with
  | true => exact Or.inl ⟨rfl,rfl⟩
  | false =>
    refine Or.inr ⟨rfl,?_⟩
    simp only [Bool.false_eq_true,if_false]
    cases hslot : (s.queueItems (slotOf g)).slot with
    | returnDataAvailable d => exact Or.inl ⟨d,rfl,rfl⟩
    | empty => exact Or.inr ⟨nofun,rfl⟩
    | pending f => exact Or.inr ⟨nofun,rfl⟩
    | inProgress => exact Or.inr ⟨nofun,rfl⟩

omit [NeZero N] in
theorem isCounterOutOfBounds_eq_false {g : ℕ} (hg : g < s.counter) :
    s.isCounterOutOfBounds g = false ↔ InWindow N s.counter g := by
  simp only [isCounterOutOfBounds,decide_eq_false_iff_not,not_lt,InWindow]
  omega

omit [NeZero N] in
theorem isCounterOutOfBounds_eq_true {g : ℕ} (h : N < s.counter - g) :
    s.isCounterOutOfBounds g = true := by
  simpa [isCounterOutOfBounds] using h

end TxQueueState
end FerrisOnAir.Tx

import FerrisOnAir.Tx.Queue

/-! # One queue with its runner, its handles and its history

The parties of one `TxQueue`: any number of callers with `PendingTransmission`
handles, and the single `TxQueueRunner`, which holds at most one
`InProgressTransmission`. An operation that no party can perform in a state
(polling a handle that was dropped, receiving while a transmission is alive) is
disabled; one that the code aborts is a panic. The history records the frames in
enqueue order, those handed to the radio endpoint, how each generation finished,
and what the waiting futures yielded.
-/
namespace FerrisOnAir.Tx
open TxQueueState

structure TxHistory (N : ℕ) (C P E : Type*) where
  enqueued : List (PendingFrame N C P)
  handed : List (ℕ × PendingFrame N C P)
  finished : List (ℕ × Option (TxReturnData N C E))
  claimed : List (ℕ × TxReturnData N C E)
  woken : List Waker

structure QueueSystem (N : ℕ) (C P E : Type*) where
  queue : TxQueueState N C P E
  active : Option (InProgressTransmission N × PendingFrame N C P)
  handles : Finset ℕ
  history : TxHistory N C P E

inductive QueueOp (N : ℕ) (C P E : Type*)
  | enqueueFrame (frame : PendingFrame N C P)
  | waitQueueNotEmpty (waker : Waker)
  | tryReceive
  | transmitted (result : Except E UInt8) (contents : C)
  | abort
  | waitForCompletion (g : ℕ) (waker : Waker)
  | status (g : ℕ)
  | dropHandle (g : ℕ)

inductive Fault
  | disabled
  | panic (p : TxPanic)
deriving DecidableEq

/-- A successful step: the buffers it drops and the buffers a caller now owns. -/
structure Outcome (N : ℕ) (C P E : Type*) where
  system : QueueSystem N C P E
  dropped : List (TxBuffer N C)
  returned : List (TxBuffer N C)

variable {N : ℕ} {C P E : Type*}

def TxQueueSlot.ofOutcome : Option (TxReturnData N C E) → TxQueueSlot N C P E
  | some data => .returnDataAvailable data
  | none => .empty

namespace QueueSystem

def new : QueueSystem N C P E := ⟨.new,none,∅,⟨[],[],[],[],[]⟩⟩

/-- Generation of the oldest queued frame. -/
def front (s : QueueSystem N C P E) : ℕ := s.queue.counter - s.queue.len

/-- `transmit` either completes, with the buffer as the endpoint left it, or its
future is dropped, which first drops the frame. Both end in `finish`. -/
def finish (s : QueueSystem N C P E) (t : InProgressTransmission N)
    (outcome : Option (TxReturnData N C E)) (dropped : List (TxBuffer N C)) : Outcome N C P E :=
  let r := s.queue.finish t.index (.ofOutcome outcome)
  ⟨{ s with
      queue := r.1
      active := none
      history := { s.history with
        finished := s.history.finished ++ [(t.generation,outcome)]
        woken := s.history.woken ++ r.2.2.toList } },
    dropped ++ r.2.1.flatMap TxQueueSlot.buffers,[]⟩

variable [NeZero N]

def enqueueFrame (s : QueueSystem N C P E) (frame : PendingFrame N C P) :
    Except Fault (Outcome N C P E) :=
  match s.queue.enqueueFrame frame with
  | .error p => .error (.panic p)
  | .ok (queue,counter,overwritten,woken) =>
    .ok ⟨{ s with
        queue := queue
        handles := insert counter s.handles
        history := { s.history with
          enqueued := s.history.enqueued ++ [frame]
          woken := s.history.woken ++ woken.toList } },overwritten.buffers,[]⟩

omit [NeZero N] in
/-- The runner's loop body up to the first await: the endpoint is called with the
first `frameLength` bytes of the buffer. -/
def tryReceive (s : QueueSystem N C P E) : Except Fault (Outcome N C P E) :=
  match s.active with
  | some _ => .error .disabled
  | none =>
    match s.queue.tryReceive with
    | .error p => .error (.panic p)
    | .ok none => .ok ⟨s,[],[]⟩
    | .ok (some (t,frame,queue)) =>
      if frame.frameLength ≤ txBufferSize then
        .ok ⟨{ s with
          queue := queue
          active := some (t,frame)
          history := { s.history with handed := s.history.handed ++ [(t.generation,frame)] } },[],[]⟩
      else .error (.panic .frameLengthOutOfBounds)

def waitForCompletion (s : QueueSystem N C P E) (g : ℕ) (waker : Waker) :
    Except Fault (Outcome N C P E) :=
  if g ∈ s.handles then
    match s.queue.waitForCompletion g waker with
    | (.ready (some data),queue) =>
      .ok ⟨{ s with
        queue := queue
        history := { s.history with claimed := s.history.claimed ++ [(g,data)] } },[],[data.frame]⟩
    | (.ready none,queue) => .ok ⟨{ s with queue := queue },[],[]⟩
    | (.pending,queue) => .ok ⟨{ s with queue := queue },[],[]⟩
  else .error .disabled

def dropHandle (s : QueueSystem N C P E) (g : ℕ) : Except Fault (Outcome N C P E) :=
  if g ∈ s.handles then
    let r := s.queue.dropPending g
    .ok ⟨{ s with queue := r.1, handles := s.handles.erase g },
      r.2.toList.flatMap TxQueueSlot.buffers,[]⟩
  else .error .disabled

def step (s : QueueSystem N C P E) : QueueOp N C P E → Except Fault (Outcome N C P E)
  | .enqueueFrame frame => s.enqueueFrame frame
  | .waitQueueNotEmpty waker =>
    match s.active with
    | some _ => .error .disabled
    | none => .ok ⟨{ s with queue := (s.queue.waitQueueNotEmpty waker).2 },[],[]⟩
  | .tryReceive => s.tryReceive
  | .transmitted result contents =>
    match s.active with
    | none => .error .disabled
    | some (t,f) =>
      .ok (s.finish t (some ⟨result,{ f.frame with contents := contents },f.frameLength⟩) [])
  | .abort =>
    match s.active with
    | none => .error .disabled
    | some (t,f) => .ok (s.finish t none [f.frame])
  | .waitForCompletion g waker => s.waitForCompletion g waker
  | .status g => if g ∈ s.handles then .ok ⟨s,[],[]⟩ else .error .disabled
  | .dropHandle g => s.dropHandle g

end QueueSystem
end FerrisOnAir.Tx

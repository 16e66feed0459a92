import FerrisOnAir.Foundation.Runs
import FerrisOnAir.Tx.BufferManagement

/-! # Routing received frames inside an interface

`foa/src/util/rx_router.rs` for any operation type. Parsing a received frame is a
parameter, and so is the depth of the queues. Both endpoints share the completion
signal: every start resets it, the drop of a scoped operation sets it and a waiting
start takes it.
-/
namespace FerrisOnAir.Util
open Tx (trySend)
variable {F G O : Type*}

inductive RxRouterQueue
  | foreground
  | background
deriving DecidableEq

def RxRouterQueue.opposite : RxRouterQueue → RxRouterQueue
  | foreground => background
  | background => foreground

/-- The trait `RxRouterOperation` over parsed frames. -/
structure RxRouterOperation (G O : Type*) where
  concurrentOperationsSupported : Bool
  frameRelevantForOperation : O → G → Bool
  compatibleWith : O → O → Bool

/-- What an `RxRouter` type fixes: its operations, the parser and the queue depth. -/
structure RxRouterConfig (F G O : Type*) extends RxRouterOperation G O where
  genericFrame : F → Option G
  queueDepth : ℕ

inductive RxRouterOperationError
  | operationAlreadyInProgress
  | incompatibleOperations
deriving DecidableEq

inductive RxRouterRoutingError
  | queueFull
  | invalidFrame
deriving DecidableEq

structure QueueState (F O : Type*) where
  queue : List F
  operationState : Option O
deriving DecidableEq

namespace QueueState
variable (c : RxRouterOperation G O) (s : QueueState F O)

def new : QueueState F O := ⟨[],none⟩

def frameRelevantForOperation (g : G) : Bool :=
  (s.operationState.map (fun operation => c.frameRelevantForOperation operation g)).getD false

def operationActive : Bool := s.operationState.isSome

end QueueState

structure RxRouter (F O : Type*) where
  foregroundQueueState : QueueState F O
  backgroundQueueState : QueueState F O
  completionSignal : Bool
deriving DecidableEq

namespace RxRouter
variable (c : RxRouterConfig F G O) (r : RxRouter F O)

def new : RxRouter F O := ⟨.new,.new,false⟩

def queueState : RxRouterQueue → QueueState F O
  | .foreground => r.foregroundQueueState
  | .background => r.backgroundQueueState

def setQueueState (s : QueueState F O) : RxRouterQueue → RxRouter F O
  | .foreground => { r with foregroundQueueState := s }
  | .background => { r with backgroundQueueState := s }

def operationState (q : RxRouterQueue) : Option O := (r.queueState q).operationState

def queue (q : RxRouterQueue) : List F := (r.queueState q).queue

def setOperationState (q : RxRouterQueue) (operation : Option O) : RxRouter F O :=
  r.setQueueState { r.queueState q with operationState := operation } q

/-- The end of `route_frame`: `try_send` to the chosen queue. -/
def sendTo (q : RxRouterQueue) (frame : F) : Except RxRouterRoutingError Unit × RxRouter F O :=
  match trySend c.queueDepth (r.queue q) frame with
  | .ok queue => (.ok (),r.setQueueState { r.queueState q with queue := queue } q)
  | .error _ => (.error .queueFull,r)

def routeFrame (frame : F) : Except RxRouterRoutingError Unit × RxRouter F O :=
  match c.genericFrame frame with
  | none => (.error .invalidFrame,r)
  | some g =>
    if r.foregroundQueueState.frameRelevantForOperation c.toRxRouterOperation g then
      r.sendTo c .foreground frame
    else if !c.concurrentOperationsSupported || !r.backgroundQueueState.operationActive ||
        r.backgroundQueueState.frameRelevantForOperation c.toRxRouterOperation g then
      r.sendTo c .background frame
    else (.ok (),r)

/-- One poll of a `receive` future. -/
def receive (q : RxRouterQueue) : Option (F × RxRouter F O) :=
  match r.queue q with
  | [] => none
  | frame :: queue => some (frame,r.setQueueState { r.queueState q with queue := queue } q)

def canStartOperation (q : RxRouterQueue) (operation : O) : Except RxRouterOperationError Unit :=
  match r.operationState q.opposite with
  | some opposing =>
    if !c.concurrentOperationsSupported then .error .operationAlreadyInProgress
    else if !c.compatibleWith opposing operation then .error .incompatibleOperations
    else .ok ()
  | none => .ok ()

def startOperationInternal (q : RxRouterQueue) (operation : O) : RxRouter F O :=
  { r with completionSignal := false }.setOperationState q (some operation)

def stopOperationInternal (q : RxRouterQueue) : Option O × RxRouter F O :=
  (r.operationState q,r.setOperationState q none)

def signalCompletionInternal : RxRouter F O := { r with completionSignal := true }

def tryStartOperation (q : RxRouterQueue) (operation : O) :
    Except RxRouterOperationError (RxRouter F O) :=
  match r.canStartOperation c q operation with
  | .ok _ => .ok (r.startOperationInternal q operation)
  | .error e => .error e

/-- A poll of `completion_signal().wait()` and, once it is ready, the rest of
`start_operation`. -/
def pollStart (q : RxRouterQueue) (operation : O) : Option (RxRouter F O) :=
  if r.completionSignal then
    some ({ r with completionSignal := false }.startOperationInternal q operation)
  else none

/-- The first poll of `start_operation`; `none` if it has to wait. -/
def startOperation (q : RxRouterQueue) (operation : O) : Option (RxRouter F O) :=
  match r.canStartOperation c q operation with
  | .ok _ => some (r.startOperationInternal q operation)
  | .error _ => r.pollStart q operation

/-- `RxRouterScopedOperation::transition`: whether it was possible. `none` is the panic of
a guard without an operation. -/
def transition (q : RxRouterQueue) (operation : O) : Option (Bool × RxRouter F O) :=
  match r.stopOperationInternal q with
  | (none,_) => none
  | (some previous,r') =>
    match r'.canStartOperation c q operation with
    | .ok _ => some (true,r'.startOperationInternal q operation)
    | .error _ => some (false,r'.startOperationInternal q previous)

/-- `Drop` of a scoped operation. -/
def dropOperation (q : RxRouterQueue) : RxRouter F O :=
  (r.stopOperationInternal q).2.signalCompletionInternal

section Lemmas
variable {r} {p q : RxRouterQueue}

theorem opposite_opposite (q : RxRouterQueue) : q.opposite.opposite = q := by cases q <;> rfl

theorem opposite_ne (q : RxRouterQueue) : q.opposite ≠ q := by
  cases q <;> simp [RxRouterQueue.opposite]

theorem eq_opposite (h : p ≠ q) : p = q.opposite := by
  cases p <;> cases q <;> first | rfl | exact absurd rfl h

@[simp] theorem queueState_setQueueState (s : QueueState F O) :
    (r.setQueueState s q).queueState p = if p = q then s else r.queueState p := by
  cases p <;> cases q <;> rfl

@[simp] theorem completionSignal_setQueueState (s : QueueState F O) :
    (r.setQueueState s q).completionSignal = r.completionSignal := by
  cases q <;> rfl

@[simp] theorem operationState_setOperationState (o : Option O) :
    (r.setOperationState q o).operationState p = if p = q then o else r.operationState p := by
  unfold operationState setOperationState
  rw [queueState_setQueueState]
  split <;> rfl

@[simp] theorem queue_setOperationState (o : Option O) :
    (r.setOperationState q o).queue p = r.queue p := by
  unfold queue setOperationState
  rw [queueState_setQueueState]
  split
  · rename_i h
    rw [h]
  · rfl

@[simp] theorem completionSignal_setOperationState (o : Option O) :
    (r.setOperationState q o).completionSignal = r.completionSignal :=
  completionSignal_setQueueState _

@[simp] theorem operationState_startOperationInternal (o : O) :
    (r.startOperationInternal q o).operationState p =
      if p = q then some o else r.operationState p := by
  unfold startOperationInternal
  rw [operationState_setOperationState]
  split
  · rfl
  · cases p <;> rfl

@[simp] theorem queue_startOperationInternal (o : O) :
    (r.startOperationInternal q o).queue p = r.queue p := by
  unfold startOperationInternal
  rw [queue_setOperationState]
  cases p <;> rfl

@[simp] theorem completionSignal_startOperationInternal (o : O) :
    (r.startOperationInternal q o).completionSignal = false := by
  simp [startOperationInternal]

@[simp] theorem operationState_dropOperation :
    (r.dropOperation q).operationState p = if p = q then none else r.operationState p := by
  cases p <;> cases q <;> rfl

@[simp] theorem queue_dropOperation : (r.dropOperation q).queue p = r.queue p := by
  cases p <;> cases q <;> rfl

/-- A start is refused exactly because of an operation of the other queue. -/
theorem canStartOperation_iff {o : O} : r.canStartOperation c q o = .ok () ↔
    ∀ b, r.operationState q.opposite = some b →
      c.concurrentOperationsSupported = true ∧ c.compatibleWith b o = true := by
  unfold canStartOperation
  cases h : r.operationState q.opposite with
  | none => simp
  | some b =>
    cases hs : c.concurrentOperationsSupported <;> cases hc : c.compatibleWith b o <;> simp [hc]

/-- Changing the frames of a queue leaves the operations alone. -/
theorem setQueue_operationState (frames : List F) :
    (r.setQueueState { r.queueState q with queue := frames } q).operationState =
      r.operationState := by
  funext p
  cases p <;> cases q <;> rfl

theorem sendTo_operationState (frame : F) :
    (r.sendTo c q frame).2.operationState = r.operationState := by
  unfold sendTo
  split
  · exact setQueue_operationState _
  · rfl

theorem sendTo_completionSignal (frame : F) :
    (r.sendTo c q frame).2.completionSignal = r.completionSignal := by
  unfold sendTo
  split
  · exact completionSignal_setQueueState _
  · rfl

theorem routeFrame_operationState (frame : F) :
    (r.routeFrame c frame).2.operationState = r.operationState := by
  unfold routeFrame
  split
  · rfl
  · split
    · exact sendTo_operationState c frame
    · split
      · exact sendTo_operationState c frame
      · rfl

theorem routeFrame_completionSignal (frame : F) :
    (r.routeFrame c frame).2.completionSignal = r.completionSignal := by
  unfold routeFrame
  split
  · rfl
  · split
    · exact sendTo_completionSignal c frame
    · split
      · exact sendTo_completionSignal c frame
      · rfl

theorem receive_some {frame : F} {t : RxRouter F O} (h : r.receive q = some (frame,t)) :
    r.queue q = frame :: t.queue q ∧ (∀ p, p ≠ q → t.queue p = r.queue p) ∧
      t.operationState = r.operationState ∧ t.completionSignal = r.completionSignal := by
  unfold receive at h
  split at h
  · cases h
  · rename_i queue hq
    cases h
    refine ⟨?_,?_,setQueue_operationState _,completionSignal_setQueueState _⟩
    · simpa [RxRouter.queue] using hq
    · intro p hp
      simp [RxRouter.queue,hp]

theorem pollStart_eq {o : O} : r.pollStart q o =
    if r.completionSignal then some (r.startOperationInternal q o) else none := by
  cases q <;> rfl

theorem sendTo_of_lt {c : RxRouterConfig F G O} {frame : F}
    (h : (r.queue q).length < c.queueDepth) :
    (r.sendTo c q frame).1 = .ok () ∧
      (r.sendTo c q frame).2.queue = Function.update r.queue q (r.queue q ++ [frame]) := by
  unfold sendTo trySend
  rw [if_pos h]
  refine ⟨rfl,?_⟩
  funext p
  by_cases hp : p = q
  · subst hp
    simp [queue]
  · simp [queue,hp]

theorem sendTo_of_le {c : RxRouterConfig F G O} {frame : F}
    (h : c.queueDepth ≤ (r.queue q).length) : r.sendTo c q frame = (.error .queueFull,r) := by
  unfold sendTo trySend
  rw [if_neg (Nat.not_lt.mpr h)]

theorem sendTo_queue (frame : F) (p : RxRouterQueue) :
    (r.sendTo c q frame).2.queue p = r.queue p ∨
      p = q ∧ (r.sendTo c q frame).2.queue p = r.queue p ++ [frame] := by
  by_cases hlen : (r.queue q).length < c.queueDepth
  · rw [(sendTo_of_lt hlen).2]
    by_cases hp : p = q
    · subst hp
      exact Or.inr ⟨rfl,Function.update_self ..⟩
    · exact Or.inl (Function.update_of_ne hp ..)
  · rw [sendTo_of_le (Nat.not_lt.mp hlen)]
    exact Or.inl rfl

/-- A frame goes to the end of a queue, to the foreground only for the operation there. -/
theorem routeFrame_queue (frame : F) (p : RxRouterQueue) :
    (r.routeFrame c frame).2.queue p = r.queue p ∨
      (r.routeFrame c frame).2.queue p = r.queue p ++ [frame] ∧
      (p = .foreground → ∃ g o, c.genericFrame frame = some g ∧
        r.operationState .foreground = some o ∧ c.frameRelevantForOperation o g = true) := by
  unfold routeFrame
  cases hg : c.genericFrame frame with
  | none => exact Or.inl rfl
  | some g =>
    dsimp only
    split
    · rename_i hrel
      refine (sendTo_queue c frame p).imp_right (fun h => ⟨h.2,fun _ => ⟨g,?_⟩⟩)
      unfold QueueState.frameRelevantForOperation at hrel
      cases ho : r.foregroundQueueState.operationState with
      | none => simp [ho] at hrel
      | some o => exact ⟨o,rfl,ho,by simpa [ho] using hrel⟩
    · split
      · refine (sendTo_queue c frame p).imp_right (fun h => ⟨h.2,fun hp => ?_⟩)
        rw [h.1] at hp
        cases hp
      · exact Or.inl rfl

/-- A transition ends in the requested operation if that one may start, else in the old. -/
theorem transition_some {o : O} {b : Bool} {t : RxRouter F O}
    (h : r.transition c q o = some (b,t)) : ∃ o',
      (r.canStartOperation c q o' = .ok () ∨ r.operationState q = some o') ∧
      t.operationState = Function.update r.operationState q (some o') ∧
      t.completionSignal = false ∧ t.queue = r.queue := by
  have hcan : (r.setOperationState q none).canStartOperation c q o = r.canStartOperation c q o := by
    unfold canStartOperation
    rw [operationState_setOperationState,if_neg (opposite_ne q)]
  have hops (o' : O) : ((r.setOperationState q none).startOperationInternal q o').operationState =
      Function.update r.operationState q (some o') := by
    funext p
    by_cases hp : p = q <;> simp [hp]
  have hqueue (o' : O) :
      ((r.setOperationState q none).startOperationInternal q o').queue = r.queue := by
    funext p
    simp
  unfold transition stopOperationInternal at h
  cases hop : r.operationState q with
  | none => simp [hop] at h
  | some previous =>
    simp only [hop,hcan] at h
    split at h
    · rename_i hok
      cases h
      exact ⟨o,Or.inl hok,hops o,completionSignal_startOperationInternal o,hqueue o⟩
    · cases h
      exact ⟨previous,Or.inr rfl,hops previous,completionSignal_startOperationInternal previous,
        hqueue previous⟩

/-- A transition that succeeds ends in the requested operation. -/
theorem transition_true {o : O} {t : RxRouter F O} (h : r.transition c q o = some (true,t)) :
    t.operationState q = some o ∧ t.queue = r.queue := by
  unfold transition stopOperationInternal at h
  cases hop : r.operationState q with
  | none => simp [hop] at h
  | some previous =>
    simp only [hop] at h
    split at h
    · cases h
      refine ⟨by simp,?_⟩
      funext p
      simp
    · cases h

theorem startOperation_some {o : O} {t : RxRouter F O} (h : r.startOperation c q o = some t) :
    t = r.startOperationInternal q o := by
  unfold startOperation at h
  split at h
  · cases h
    rfl
  · rw [pollStart_eq] at h
    split at h <;> cases h
    rfl

end Lemmas
end RxRouter
end FerrisOnAir.Util

import FerrisOnAir.Util.RxRouter

/-! # The router with its two endpoints

An endpoint is borrowed mutably by a start that waits and by the scoped operation it
returns, so it has at most one of them. Routing, receiving and the operations of both
endpoints interleave freely; what was routed under which operations and what was
received from each queue is recorded.
-/
namespace FerrisOnAir.Util
variable {F G O : Type*}

inductive EndpointState (O : Type*)
  | idle
  | waiting (operation : O)
  | scoped
deriving DecidableEq

/-- A call of `route_frame`: the operations active at that time and the result. -/
structure Arrival (F O : Type*) where
  frame : F
  operations : RxRouterQueue → Option O
  result : Except RxRouterRoutingError Unit

structure RouterSystem (F O : Type*) where
  router : RxRouter F O
  endpoints : RxRouterQueue → EndpointState O
  arrivals : List (Arrival F O)
  received : RxRouterQueue → List F

inductive RouterOp (F O : Type*)
  | routeFrame (frame : F)
  | receive (q : RxRouterQueue)
  | tryStartOperation (q : RxRouterQueue) (operation : O)
  | startOperation (q : RxRouterQueue) (operation : O)
  | pollStart (q : RxRouterQueue)
  | cancelStart (q : RxRouterQueue)
  | transition (q : RxRouterQueue) (operation : O)
  | dropOperation (q : RxRouterQueue)

/-- The endpoint an operation belongs to. -/
def RouterOp.endpoint : RouterOp F O → Option RxRouterQueue
  | .routeFrame _ => none
  | .receive q => some q
  | .tryStartOperation q _ => some q
  | .startOperation q _ => some q
  | .pollStart q => some q
  | .cancelStart q => some q
  | .transition q _ => some q
  | .dropOperation q => some q

namespace RouterSystem
variable (c : RxRouterConfig F G O) (s : RouterSystem F O)

def new : RouterSystem F O := ⟨.new,fun _ => .idle,[],fun _ => []⟩

/-- The endpoint holds a scoped operation of `router`. -/
def hold (q : RxRouterQueue) (router : RxRouter F O) : RouterSystem F O :=
  { s with router := router, endpoints := Function.update s.endpoints q .scoped }

def step : RouterOp F O → Option (RouterSystem F O)
  | .routeFrame frame =>
    let r := s.router.routeFrame c frame
    some { s with
      router := r.2
      arrivals := s.arrivals ++ [⟨frame,s.router.operationState,r.1⟩] }
  | .receive q =>
    match s.router.receive q with
    | none => none
    | some (frame,router) => some { s with
        router := router
        received := Function.update s.received q (s.received q ++ [frame]) }
  | .tryStartOperation q operation =>
    match s.endpoints q with
    | .idle =>
      match s.router.tryStartOperation c q operation with
      | .ok router => some (s.hold q router)
      | .error _ => some s
    | _ => none
  | .startOperation q operation =>
    match s.endpoints q with
    | .idle =>
      match s.router.startOperation c q operation with
      | some router => some (s.hold q router)
      | none => some { s with endpoints := Function.update s.endpoints q (.waiting operation) }
    | _ => none
  | .pollStart q =>
    match s.endpoints q with
    | .waiting operation =>
      match s.router.pollStart q operation with
      | some router => some (s.hold q router)
      | none => some s
    | _ => none
  | .cancelStart q =>
    match s.endpoints q with
    | .waiting _ => some { s with endpoints := Function.update s.endpoints q .idle }
    | _ => none
  | .transition q operation =>
    match s.endpoints q with
    | .scoped => (s.router.transition c q operation).map (fun p => { s with router := p.2 })
    | _ => none
  | .dropOperation q =>
    match s.endpoints q with
    | .scoped => some { s with
        router := s.router.dropOperation q
        endpoints := Function.update s.endpoints q .idle }
    | _ => none

def Step (s : RouterSystem F O) (op : RouterOp F O) (t : RouterSystem F O) : Prop :=
  s.step c op = some t

/-- What a step may do to the operations, the signal and the endpoints. -/
inductive OperationChange (s : RouterSystem F O) (op : RouterOp F O) (t : RouterSystem F O) : Prop
  | framed (hop : (∃ frame, op = .routeFrame frame) ∨ ∃ q, op = .receive q)
      (hops : t.router.operationState = s.router.operationState)
      (hsignal : t.router.completionSignal = s.router.completionSignal)
      (hends : t.endpoints = s.endpoints)
  | kept (ht : t = s)
  | waits (q : RxRouterQueue) (operation : O) (hidle : s.endpoints q = .idle)
      (hunset : s.router.completionSignal = false)
      (ht : t = { s with endpoints := Function.update s.endpoints q (.waiting operation) })
  | cancelled (q : RxRouterQueue) (operation : O) (hwait : s.endpoints q = .waiting operation)
      (ht : t = { s with endpoints := Function.update s.endpoints q .idle })
  | started (q : RxRouterQueue) (operation : O)
      (hcan : s.router.canStartOperation c q operation = .ok ())
      (hfree : s.endpoints q ≠ .scoped)
      (ht : t = s.hold q (s.router.startOperationInternal q operation))
  | resumed (q : RxRouterQueue) (operation : O) (hwait : s.endpoints q = .waiting operation)
      (hset : s.router.completionSignal = true)
      (ht : t = s.hold q (s.router.startOperationInternal q operation))
  | overtaken (q : RxRouterQueue) (operation : O) (hop : op = .startOperation q operation)
      (hset : s.router.completionSignal = true)
      (hcan : s.router.canStartOperation c q operation ≠ .ok ())
      (ht : t = s.hold q (s.router.startOperationInternal q operation))
  | moved (q : RxRouterQueue) (operation : O) (router : RxRouter F O)
      (hscoped : s.endpoints q = .scoped)
      (hcan : s.router.canStartOperation c q operation = .ok () ∨
        s.router.operationState q = some operation)
      (hops : router.operationState = Function.update s.router.operationState q (some operation))
      (hsignal : router.completionSignal = false) (hqueue : router.queue = s.router.queue)
      (ht : t = { s with router := router })
  | dropped (q : RxRouterQueue) (hscoped : s.endpoints q = .scoped)
      (ht : t = { s with
        router := s.router.dropOperation q
        endpoints := Function.update s.endpoints q .idle })

variable {c} {s} {t : RouterSystem F O} {op : RouterOp F O} {q : RxRouterQueue} {o : O}

theorem startOperation_change (he : Step c s (.startOperation q o) t) :
    OperationChange c s (.startOperation q o) t := by
  simp only [Step,step] at he
  split at he
  · rename_i hidle
    have hfree : s.endpoints q ≠ .scoped := by simp [hidle]
    unfold RxRouter.startOperation at he
    cases hcan : s.router.canStartOperation c q o with
    | ok u =>
      simp only [hcan] at he
      cases he
      exact .started q o hcan hfree rfl
    | error e =>
      simp only [hcan,RxRouter.pollStart_eq] at he
      cases hset : s.router.completionSignal with
      | true =>
        simp only [hset,if_true] at he
        cases he
        exact .overtaken q o rfl hset (by simp [hcan]) rfl
      | false =>
        simp only [hset,Bool.false_eq_true,if_false] at he
        cases he
        exact .waits q o hidle hset rfl
  · cases he

theorem pollStart_change (he : Step c s (.pollStart q) t) :
    OperationChange c s (.pollStart q) t := by
  simp only [Step,step,RxRouter.pollStart_eq] at he
  split at he
  · rename_i o hwait
    cases hset : s.router.completionSignal with
    | true =>
      simp only [hset,if_true] at he
      cases he
      exact .resumed q o hwait hset rfl
    | false =>
      simp only [hset,Bool.false_eq_true,if_false] at he
      cases he
      exact .kept rfl
  · cases he

theorem step_change (he : Step c s op t) : OperationChange c s op t := by
  cases op with
  | routeFrame frame =>
    cases he
    exact .framed (Or.inl ⟨frame,rfl⟩) (RxRouter.routeFrame_operationState c frame)
      (RxRouter.routeFrame_completionSignal c frame) rfl
  | receive q =>
    simp only [Step,step] at he
    split at he
    · cases he
    · rename_i hr
      cases he
      obtain ⟨_,_,hops,hsignal⟩ := RxRouter.receive_some hr
      exact .framed (Or.inr ⟨q,rfl⟩) hops hsignal rfl
  | tryStartOperation q o =>
    simp only [Step,step,RxRouter.tryStartOperation] at he
    split at he
    · rename_i hidle
      cases hcan : s.router.canStartOperation c q o with
      | ok u =>
        simp only [hcan] at he
        cases he
        exact .started q o hcan (by simp [hidle]) rfl
      | error e =>
        simp only [hcan] at he
        cases he
        exact .kept rfl
    · cases he
  | startOperation q o => exact startOperation_change he
  | pollStart q => exact pollStart_change he
  | cancelStart q =>
    simp only [Step,step] at he
    split at he
    · rename_i o hwait
      cases he
      exact .cancelled q o hwait rfl
    · cases he
  | transition q o =>
    simp only [Step,step] at he
    split at he
    · rename_i hscoped
      obtain ⟨p,hp,hpt⟩ := Option.map_eq_some_iff.mp he
      obtain ⟨o',hcan,hops,hsignal,hqueue⟩ := RxRouter.transition_some c (b := p.1) (t := p.2) hp
      subst hpt
      exact .moved q o' p.2 hscoped hcan hops hsignal hqueue rfl
    · cases he
  | dropOperation q =>
    simp only [Step,step] at he
    split at he
    · rename_i hscoped
      cases he
      exact .dropped q hscoped rfl
    · cases he

/-- Nobody changes the state of another endpoint. -/
theorem endpoints_frame (he : Step c s op t) (hq : op.endpoint ≠ some q) :
    t.endpoints q = s.endpoints q := by
  have hne : ∀ p, op.endpoint = some p → q ≠ p := by
    rintro p hp rfl
    exact hq hp
  cases op with
  | routeFrame frame =>
    cases he
    rfl
  | receive p =>
    simp only [Step,step] at he
    split at he
    · cases he
    · cases he
      rfl
  | tryStartOperation p o =>
    simp only [Step,step] at he
    split at he
    · split at he
      · cases he
        exact Function.update_of_ne (hne p rfl) ..
      · cases he
        rfl
    · cases he
  | startOperation p o =>
    simp only [Step,step] at he
    split at he
    · split at he
      · cases he
        exact Function.update_of_ne (hne p rfl) ..
      · cases he
        exact Function.update_of_ne (hne p rfl) ..
    · cases he
  | pollStart p =>
    simp only [Step,step] at he
    split at he
    · split at he
      · cases he
        exact Function.update_of_ne (hne p rfl) ..
      · cases he
        rfl
    · cases he
  | cancelStart p =>
    simp only [Step,step] at he
    split at he
    · cases he
      exact Function.update_of_ne (hne p rfl) ..
    · cases he
  | transition p o =>
    simp only [Step,step] at he
    split at he
    · obtain ⟨r,_,rfl⟩ := Option.map_eq_some_iff.mp he
      rfl
    · cases he
  | dropOperation p =>
    simp only [Step,step] at he
    split at he
    · cases he
      exact Function.update_of_ne (hne p rfl) ..
    · cases he

end RouterSystem
end FerrisOnAir.Util

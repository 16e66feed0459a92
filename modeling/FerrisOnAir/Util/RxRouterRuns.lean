import FerrisOnAir.Util.RxRouterSystem

/-! # Exclusion and delivery over all runs of the router

A start that finds an incompatible operation waits for the completion signal and does
not check again. While it waits only the other endpoint can set the signal, and that
one has stopped its operation then. The signal left behind by the own endpoint is the
one case in which it does not announce the end of the opposing operation.
-/
namespace FerrisOnAir.Util.RouterSystem
variable {F G O : Type*} {c : RxRouterConfig F G O} {s t : RouterSystem F O}
variable {op : RouterOp F O} {ops : List (RouterOp F O)} {q : RxRouterQueue}

/-- Two active operations are supported and compatible. -/
def Exclusive (c : RxRouterConfig F G O) (s : RouterSystem F O) : Prop :=
  ∀ a b, s.router.operationState .foreground = some a →
    s.router.operationState .background = some b →
    c.concurrentOperationsSupported = true ∧ c.compatibleWith a b = true

/-- No start that has to wait is called while the completion signal is still set. -/
def StartsUnsignalled (c : RxRouterConfig F G O) (s : RouterSystem F O)
    (op : RouterOp F O) : Prop :=
  ∀ q o, op = .startOperation q o → s.router.completionSignal = true →
    s.router.canStartOperation c q o = .ok ()

instance (s : RouterSystem F O) (op : RouterOp F O) :
    Decidable (StartsUnsignalled c s op) :=
  match op with
  | .startOperation q o =>
    decidable_of_iff (s.router.completionSignal = true →
        (s.router.canStartOperation c q o).isOk = true) (by
      unfold StartsUnsignalled
      constructor
      · rintro h _ _ ⟨⟩ hset
        have hok := h hset
        cases hcan : s.router.canStartOperation c q o with
        | ok u => rfl
        | error e => rw [hcan] at hok; cases hok
      · intro h hset
        rw [h q o rfl hset]
        rfl)
  | .routeFrame _ | .receive _ | .tryStartOperation _ _ | .pollStart _ | .cancelStart _
  | .transition _ _ | .dropOperation _ => .isTrue (by rintro _ _ ⟨⟩)

/-- A scoped operation is the active one of its queue, and the signal reaches a waiting
start only after the opposing operation ended. -/
structure Endpoints (s : RouterSystem F O) : Prop where
  scoped_iff : ∀ q, s.endpoints q = .scoped ↔ (s.router.operationState q).isSome = true
  waiting : ∀ q o, s.endpoints q = .waiting o → s.router.completionSignal = true →
    s.router.operationState q.opposite = none

theorem new_endpoints : (new : RouterSystem F O).Endpoints where
  scoped_iff q := by cases q <;> simp [new,RxRouter.new,RxRouter.operationState,
    RxRouter.queueState,QueueState.new]
  waiting q o h := by cases h

theorem Endpoints.congr (hs : s.Endpoints)
    (hops : t.router.operationState = s.router.operationState)
    (hsignal : t.router.completionSignal = s.router.completionSignal)
    (hends : t.endpoints = s.endpoints) : t.Endpoints where
  scoped_iff q := by rw [hends,hops]; exact hs.scoped_iff q
  waiting q o hw hset := by
    rw [hends] at hw
    rw [hsignal] at hset
    rw [hops]
    exact hs.waiting q o hw hset

/-- An endpoint that holds no operation leaves its queue without one. -/
theorem Endpoints.operation_eq_none (hs : s.Endpoints) (hq : s.endpoints q ≠ .scoped) :
    s.router.operationState q = none := by
  cases ho : s.router.operationState q with
  | none => rfl
  | some o => exact absurd ((hs.scoped_iff q).mpr (by rw [ho]; rfl)) hq

/-- Moving an endpoint between idle and waiting while its queue has no operation. -/
theorem Endpoints.of_free (hs : s.Endpoints) {e : EndpointState O} (he : e ≠ .scoped)
    (hq : s.endpoints q ≠ .scoped)
    (hwait : ∀ o, e = .waiting o → s.router.completionSignal = false)
    (hrouter : t.router = s.router) (hends : t.endpoints = Function.update s.endpoints q e) :
    t.Endpoints where
  scoped_iff p := by
    rw [hends,hrouter]
    by_cases hp : p = q
    · subst hp
      rw [Function.update_self,hs.operation_eq_none hq]
      simp [he]
    · rw [Function.update_of_ne hp]
      exact hs.scoped_iff p
  waiting p o hw hset := by
    rw [hrouter] at hset ⊢
    rw [hends] at hw
    by_cases hp : p = q
    · subst hp
      rw [Function.update_self] at hw
      rw [hwait o hw] at hset
      cases hset
    · rw [Function.update_of_ne hp] at hw
      exact hs.waiting p o hw hset

theorem Endpoints.of_start (hs : s.Endpoints) {o : O}
    (hrouter : t.router = s.router.startOperationInternal q o)
    (hends : t.endpoints = Function.update s.endpoints q .scoped) : t.Endpoints where
  scoped_iff p := by
    rw [hends,hrouter,RxRouter.operationState_startOperationInternal]
    by_cases hp : p = q
    · simp [hp]
    · rw [Function.update_of_ne hp,if_neg hp]
      exact hs.scoped_iff p
  waiting p o' _ hset := by
    rw [hrouter,RxRouter.completionSignal_startOperationInternal] at hset
    cases hset

theorem Endpoints.of_move (hs : s.Endpoints) {o : O} (hscoped : s.endpoints q = .scoped)
    (hops : t.router.operationState = Function.update s.router.operationState q (some o))
    (hsignal : t.router.completionSignal = false) (hends : t.endpoints = s.endpoints) :
    t.Endpoints where
  scoped_iff p := by
    rw [hends,hops]
    by_cases hp : p = q
    · subst hp
      simp [hscoped]
    · rw [Function.update_of_ne hp]
      exact hs.scoped_iff p
  waiting p o' _ hset := by
    rw [hsignal] at hset
    cases hset

theorem Endpoints.of_drop (hs : s.Endpoints) (hrouter : t.router = s.router.dropOperation q)
    (hends : t.endpoints = Function.update s.endpoints q .idle) : t.Endpoints where
  scoped_iff p := by
    rw [hends,hrouter,RxRouter.operationState_dropOperation]
    by_cases hp : p = q
    · simp [hp]
    · rw [Function.update_of_ne hp,if_neg hp]
      exact hs.scoped_iff p
  waiting p o hw _ := by
    rw [hends] at hw
    by_cases hp : p = q
    · rw [hp,Function.update_self] at hw
      cases hw
    · have hq : p.opposite = q := by
        rw [RxRouter.eq_opposite hp,RxRouter.opposite_opposite]
      rw [hrouter,RxRouter.operationState_dropOperation,if_pos hq]

theorem step_endpoints (hs : s.Endpoints) (he : Step c s op t) : t.Endpoints := by
  cases step_change he with
  | framed _ hops hsignal hends => exact hs.congr hops hsignal hends
  | kept ht => exact ht ▸ hs
  | waits q o hidle hunset ht =>
    subst ht
    exact hs.of_free (e := .waiting o) (by simp) (by simp [hidle]) (fun _ _ => hunset) rfl rfl
  | cancelled q o hwait ht =>
    subst ht
    exact hs.of_free (e := .idle) (by simp) (by simp [hwait]) (by simp) rfl rfl
  | started q o _ _ ht => exact ht ▸ hs.of_start rfl rfl
  | resumed q o _ _ ht => exact ht ▸ hs.of_start rfl rfl
  | overtaken q o _ _ _ ht => exact ht ▸ hs.of_start rfl rfl
  | moved q o router hscoped _ hops hsignal _ ht => exact ht ▸ hs.of_move hscoped hops hsignal rfl
  | dropped q _ ht => exact ht ▸ hs.of_drop rfl rfl

/-- The completion signal is only set while no operation is active. -/
def Settled (s : RouterSystem F O) : Prop :=
  s.router.completionSignal = true → ∀ q, s.router.operationState q = none

theorem hold_settled (q : RxRouterQueue) (o : O) :
    (s.hold q (s.router.startOperationInternal q o)).Settled := by
  intro hset
  exact absurd hset (by simp [hold])

theorem new_exclusive : Exclusive c new := by
  intro a b ha
  cases ha

section Exclusion

theorem canStartOperation_congr {r r' : RxRouter F O} {o : O}
    (h : r'.operationState q.opposite = r.operationState q.opposite) :
    r'.canStartOperation c q o = r.canStartOperation c q o := by
  unfold RxRouter.canStartOperation
  rw [h]

variable (hsym : ∀ a b, c.compatibleWith a b = c.compatibleWith b a)
include hsym

/-- Seen from either queue, exclusion says that its operation could be started now. -/
theorem exclusive_iff_canStart (q : RxRouterQueue) : Exclusive c s ↔
    ∀ a, s.router.operationState q = some a → s.router.canStartOperation c q a = .ok () := by
  simp only [RxRouter.canStartOperation_iff]
  constructor
  · intro h a ha b hb
    cases q with
    | foreground => exact hsym a b ▸ h a b ha hb
    | background => exact h b a hb ha
  · intro h a b ha hb
    cases q with
    | foreground => exact hsym b a ▸ h a ha b hb
    | background => exact h b hb a ha

/-- Replacing one operation keeps exclusion exactly if the new one may start. -/
theorem exclusive_update_iff {o : Option O}
    (hops : ∀ p, t.router.operationState p = if p = q then o else s.router.operationState p) :
    Exclusive c t ↔ ∀ a, o = some a → s.router.canStartOperation c q a = .ok () := by
  have hopp : t.router.operationState q.opposite = s.router.operationState q.opposite := by
    rw [hops,if_neg (RxRouter.opposite_ne q)]
  rw [exclusive_iff_canStart hsym q,hops q,if_pos rfl]
  simp only [canStartOperation_congr hopp]

/-- A step keeps exclusion exactly if it starts no refused operation on a signal that was
left behind. -/
theorem step_exclusive_iff (hi : s.Endpoints) (hs : Exclusive c s) (he : Step c s op t) :
    Exclusive c t ↔ StartsUnsignalled c s op := by
  have hsame (h : t.router.operationState = s.router.operationState) : Exclusive c t := by
    unfold Exclusive
    rw [h]
    exact hs
  have hstart {q : RxRouterQueue} {o : O}
      (hrouter : t.router = s.router.startOperationInternal q o) :
      Exclusive c t ↔ s.router.canStartOperation c q o = .ok () := by
    rw [exclusive_update_iff hsym (s := s) (q := q) (o := some o)
      (fun p => by rw [hrouter,RxRouter.operationState_startOperationInternal])]
    simp
  have hguard (h : Exclusive c t) : StartsUnsignalled c s op := by
    rintro q o rfl hset
    cases hcan : s.router.canStartOperation c q o with
    | ok u => rfl
    | error e =>
      -- The signal is taken in the first poll, although the opposing operation goes on.
      simp only [Step,step,RxRouter.startOperation,hcan,RxRouter.pollStart_eq,hset,if_true] at he
      split at he
      · cases he
        exact absurd ((hstart rfl).mp h) (by simp [hcan])
      · cases he
  refine ⟨hguard,?_⟩
  intro hok
  cases step_change he with
  | framed _ hops _ _ => exact hsame hops
  | kept ht => exact hsame (by rw [ht])
  | waits q o _ _ ht => exact hsame (by rw [ht])
  | cancelled q o _ ht => exact hsame (by rw [ht])
  | started q o hcan _ ht => exact (hstart (by rw [ht]; rfl)).mpr hcan
  | resumed q o hwait hset ht =>
    apply (hstart (by rw [ht]; rfl)).mpr
    rw [RxRouter.canStartOperation_iff,hi.waiting q o hwait hset]
    simp
  | overtaken q o hop hset hcan _ => exact absurd (hok q o hop hset) hcan
  | moved q o router _ hcan hops _ _ ht =>
    subst ht
    apply (exclusive_update_iff hsym (s := s) (q := q) (o := some o) ?_).mpr
    · rintro a ⟨⟩
      rcases hcan with hcan | hold
      · exact hcan
      · exact (exclusive_iff_canStart hsym q).mp hs o hold
    · intro p
      rw [hops,Function.update_apply]
  | dropped q _ ht =>
    subst ht
    apply (exclusive_update_iff hsym (s := s) (q := q) (o := none) ?_).mpr
    · intro a ha
      cases ha
    · intro p
      exact RxRouter.operationState_dropOperation

omit hsym in
/-- Without concurrent operations the signal is only set while none is active. -/
theorem step_settled (hc : c.concurrentOperationsSupported = false) (hi : s.Endpoints)
    (hs : Exclusive c s) (h : s.Settled) (he : Step c s op t) : t.Settled := by
  cases step_change he with
  | framed _ hops hsignal _ =>
    intro hset q
    rw [hsignal] at hset
    rw [hops]
    exact h hset q
  | kept ht => exact ht ▸ h
  | waits q o _ _ ht => exact ht ▸ h
  | cancelled q o _ ht => exact ht ▸ h
  | started q o _ _ ht => exact ht ▸ hold_settled q o
  | resumed q o _ _ ht => exact ht ▸ hold_settled q o
  | overtaken q o _ _ _ ht => exact ht ▸ hold_settled q o
  | moved q o router _ _ _ hsignal _ ht =>
    subst ht
    intro hset
    exact absurd hset (by simp [hsignal])
  | dropped q hscoped ht =>
    subst ht
    intro _ p
    rw [RxRouter.operationState_dropOperation]
    split
    · rfl
    · rename_i hp
      cases hop : s.router.operationState p with
      | none => rfl
      | some o =>
        obtain ⟨b,hb⟩ := Option.isSome_iff_exists.mp ((hi.scoped_iff q).mp hscoped)
        have hsupported : c.concurrentOperationsSupported = true := by
          rw [RxRouter.eq_opposite hp] at hop
          cases q with
          | foreground => exact (hs b o hb hop).1
          | background => exact (hs o b hop hb).1
        rw [hc] at hsupported
        cases hsupported

theorem unsupported_exclusive (hc : c.concurrentOperationsSupported = false)
    (hr : Runs (Step c) new ops s) : Exclusive c s := by
  have hinv : s.Endpoints ∧ Exclusive c s ∧ s.Settled := by
    apply Runs.invariant (I := fun s => Endpoints s ∧ Exclusive c s ∧ s.Settled) ?_ hr
    · exact ⟨new_endpoints,new_exclusive,fun h => by cases h⟩
    · rintro s op t ⟨hi,hs,hset⟩ he
      refine ⟨step_endpoints hi he,(step_exclusive_iff hsym hi hs he).mpr ?_,
        step_settled hc hi hs hset he⟩
      intro q o _ hsignal
      rw [RxRouter.canStartOperation_iff,hset hsignal]
      simp
  exact hinv.2.1

/-- In every run without concurrent operations at most one queue has an operation. With
them, a run has only compatible operations in every state exactly if no start that has to
wait is called while the completion signal is still set. -/
theorem rx_router_exclusive_iff :
    (c.concurrentOperationsSupported = false → Runs (Step c) new ops s →
      s.router.operationState .foreground = none ∨ s.router.operationState .background = none) ∧
    (Runs (Within (Exclusive c) (Step c)) new ops s ↔
      Runs (Guarded (StartsUnsignalled c) (Step c)) new ops s) := by
  constructor
  · intro hc hr
    have h := unsupported_exclusive hsym hc hr
    cases ha : s.router.operationState .foreground with
    | none => exact Or.inl rfl
    | some a =>
      cases hb : s.router.operationState .background with
      | none => exact Or.inr rfl
      | some b =>
        have hsupported := (h a b ha hb).1
        rw [hc] at hsupported
        cases hsupported
  · exact Runs.within_iff_guarded (I := Endpoints) (fun _ _ _ hi he => step_endpoints hi he)
      (fun _ _ _ hi hs he => step_exclusive_iff hsym hi hs he) new_endpoints new_exclusive

end Exclusion

/-- Concurrent operations of one kind; an operation of the other kind has to wait. -/
def sameKind : RxRouterConfig Unit Unit Bool where
  concurrentOperationsSupported := true
  frameRelevantForOperation _ _ := true
  compatibleWith a b := a == b
  genericFrame := some
  queueDepth := 1

theorem sameKind_symm (a b : Bool) :
    sameKind.compatibleWith a b = sameKind.compatibleWith b a := by
  cases a <;> cases b <;> rfl

/-- Both endpoints start compatible operations. The first ends its own, which sets the
signal, and then starts an operation that is incompatible with the other one. -/
theorem rx_router_incompatible_start : ∃ s : RouterSystem Unit Bool,
    Runs (Step sameKind) new
      [.startOperation .foreground false,.startOperation .background false,
        .dropOperation .foreground,.startOperation .foreground true] s ∧
    s.router.operationState .foreground = some true ∧
    s.router.operationState .background = some false ∧ ¬ Exclusive sameKind s := by
  apply Runs.exists_of_execute (fun _ _ _ h => h)
    (fun s => s.router.operationState .foreground = some true ∧
      s.router.operationState .background = some false)
  · decide
  · rintro s _ ⟨ha,hb⟩
    refine ⟨ha,hb,?_⟩
    intro h
    exact absurd (h true false ha hb).2 (by decide)

/-- A start that waits for an incompatible operation and resumes when that one ends. -/
theorem rx_router_exclusive_wait : ∃ s : RouterSystem Unit Bool,
    Runs (Within (Exclusive sameKind) (Step sameKind)) new
      [.startOperation .background false,.startOperation .foreground true,.pollStart .foreground,
        .dropOperation .background,.pollStart .foreground] s ∧
    s.router.operationState .foreground = some true := by
  have hrun : ∃ s : RouterSystem Unit Bool,
      Runs (Guarded (StartsUnsignalled sameKind) (Step sameKind)) new
        [.startOperation .background false,.startOperation .foreground true,
          .pollStart .foreground,.dropOperation .background,.pollStart .foreground] s ∧
      s.router.operationState .foreground = some true := by
    apply Runs.exists_of_execute (Runs.guarded_of_nextGuarded (fun _ _ _ h => h))
      (fun s => s.router.operationState .foreground = some true)
    · decide
    · intro _ _ hs
      exact hs
  obtain ⟨s,hr,hs⟩ := hrun
  exact ⟨s,(rx_router_exclusive_iff sameKind_symm).2.mpr hr,hs⟩

section Delivery

/-- Where a parsed frame belongs while the given operations are active. -/
def Destined (c : RxRouterOperation G O) (operations : RxRouterQueue → Option O) (g : G) :
    RxRouterQueue → Prop
  | .foreground => ∃ o ∈ operations .foreground, c.frameRelevantForOperation o g = true
  | .background => (∀ o ∈ operations .foreground, c.frameRelevantForOperation o g = false) ∧
      (c.concurrentOperationsSupported = false ∨ operations .background = none ∨
        ∃ o ∈ operations .background, c.frameRelevantForOperation o g = true)

instance (c : RxRouterOperation G O) (operations : RxRouterQueue → Option O) (g : G) :
    DecidablePred (Destined c operations g)
  | .foreground => inferInstanceAs (Decidable (∃ o ∈ operations .foreground, _))
  | .background => inferInstanceAs (Decidable ((∀ o ∈ operations .foreground, _) ∧
      (c.concurrentOperationsSupported = false ∨ operations .background = none ∨
        ∃ o ∈ operations .background, _)))

/-- The frames that `route_frame` accepted while they belonged to the queue. -/
def routedTo (c : RxRouterConfig F G O) (s : RouterSystem F O) (q : RxRouterQueue) : List F :=
  (s.arrivals.filter (fun a => decide (a.result.isOk = true ∧
    ∃ g ∈ c.genericFrame a.frame, Destined c.toRxRouterOperation a.operations g q))).map
    Arrival.frame

/-- One call of `route_frame` on a frame that parses as `g`. -/
structure RoutesByOperation (c : RxRouterConfig F G O) (r : RxRouter F O) (frame : F) (g : G) :
    Prop where
  unique : ∀ p q, Destined c.toRxRouterOperation r.operationState g p →
    Destined c.toRxRouterOperation r.operationState g q → p = q
  accepted : ∀ q, Destined c.toRxRouterOperation r.operationState g q →
    (r.queue q).length ≠ c.queueDepth → (r.routeFrame c frame).1 = .ok () ∧
      (r.routeFrame c frame).2.queue = Function.update r.queue q (r.queue q ++ [frame])
  discarded : (∀ q, ¬ Destined c.toRxRouterOperation r.operationState g q) →
    r.routeFrame c frame = (.ok (),r)
  full_iff : (r.routeFrame c frame).1 = .error .queueFull ↔
    ∃ q, Destined c.toRxRouterOperation r.operationState g q ∧
      (r.queue q).length = c.queueDepth
  full_unchanged : (r.routeFrame c frame).1 = .error .queueFull →
    (r.routeFrame c frame).2.queue = r.queue

variable {r : RxRouter F O} {frame : F} {g : G}

theorem relevant_iff : r.foregroundQueueState.frameRelevantForOperation c.toRxRouterOperation g =
    true ↔ Destined c.toRxRouterOperation r.operationState g .foreground := by
  unfold QueueState.frameRelevantForOperation Destined RxRouter.operationState RxRouter.queueState
  cases r.foregroundQueueState.operationState <;> simp

theorem background_iff (hf : r.foregroundQueueState.frameRelevantForOperation
      c.toRxRouterOperation g = false) :
    (!c.concurrentOperationsSupported || !r.backgroundQueueState.operationActive ||
      r.backgroundQueueState.frameRelevantForOperation c.toRxRouterOperation g) = true ↔
      Destined c.toRxRouterOperation r.operationState g .background := by
  have hnot : ∀ o ∈ r.operationState .foreground, c.frameRelevantForOperation o g = false := by
    intro o ho
    cases hrel : c.frameRelevantForOperation o g with
    | false => rfl
    | true => rw [relevant_iff.mpr ⟨o,ho,hrel⟩] at hf; cases hf
  unfold QueueState.frameRelevantForOperation QueueState.operationActive Destined
  rw [and_iff_right hnot]
  unfold RxRouter.operationState RxRouter.queueState
  cases r.backgroundQueueState.operationState <;> simp

theorem destined_unique {operations : RxRouterQueue → Option O} {p q : RxRouterQueue}
    (hp : Destined c.toRxRouterOperation operations g p)
    (hq : Destined c.toRxRouterOperation operations g q) : p = q := by
  have hboth (hf : Destined c.toRxRouterOperation operations g .foreground)
      (hb : Destined c.toRxRouterOperation operations g .background) : False := by
    obtain ⟨o,ho,hrel⟩ := hf
    rw [hb.1 o ho] at hrel
    cases hrel
  cases p <;> cases q
  · rfl
  · exact (hboth hp hq).elim
  · exact (hboth hq hp).elim
  · rfl

theorem routeFrame_destined (hg : c.genericFrame frame = some g)
    (hq : Destined c.toRxRouterOperation r.operationState g q) :
    r.routeFrame c frame = r.sendTo c q frame := by
  unfold RxRouter.routeFrame
  simp only [hg]
  cases q with
  | foreground => rw [if_pos (relevant_iff.mpr hq)]
  | background =>
    cases hf : r.foregroundQueueState.frameRelevantForOperation c.toRxRouterOperation g with
    | true => exact absurd (destined_unique (relevant_iff.mp hf) hq) (by simp)
    | false => rw [if_neg (by simp),if_pos ((background_iff hf).mpr hq)]

theorem routeFrame_discarded (hg : c.genericFrame frame = some g)
    (h : ∀ q, ¬ Destined c.toRxRouterOperation r.operationState g q) :
    r.routeFrame c frame = (.ok (),r) := by
  unfold RxRouter.routeFrame
  simp only [hg]
  cases hf : r.foregroundQueueState.frameRelevantForOperation c.toRxRouterOperation g with
  | true => exact absurd (relevant_iff.mp hf) (h .foreground)
  | false =>
    rw [if_neg (by simp),if_neg]
    intro hb
    exact h .background ((background_iff hf).mp hb)

/-- Queues within their depth are routed to as the active operations say. -/
theorem routesByOperation (hlen : ∀ q, (r.queue q).length ≤ c.queueDepth)
    (hg : c.genericFrame frame = some g) : RoutesByOperation c r frame g where
  unique _ _ hp hq := destined_unique hp hq
  accepted q hq hne := by
    rw [routeFrame_destined hg hq]
    exact RxRouter.sendTo_of_lt (lt_of_le_of_ne (hlen q) hne)
  discarded h := routeFrame_discarded hg h
  full_iff := by
    constructor
    · intro hfull
      by_contra hnone
      by_cases hd : ∃ q, Destined c.toRxRouterOperation r.operationState g q
      · obtain ⟨q,hq⟩ := hd
        have hlt := lt_of_le_of_ne (hlen q) (fun h => hnone ⟨q,hq,h⟩)
        rw [routeFrame_destined hg hq,(RxRouter.sendTo_of_lt hlt).1] at hfull
        cases hfull
      · rw [routeFrame_discarded hg (fun q hq => hd ⟨q,hq⟩)] at hfull
        cases hfull
    · rintro ⟨q,hq,hfull⟩
      rw [routeFrame_destined hg hq,RxRouter.sendTo_of_le hfull.ge]
  full_unchanged hfull := by
    by_cases hd : ∃ q, Destined c.toRxRouterOperation r.operationState g q
    · obtain ⟨q,hq⟩ := hd
      rw [routeFrame_destined hg hq] at hfull ⊢
      by_cases hlt : (r.queue q).length < c.queueDepth
      · rw [(RxRouter.sendTo_of_lt hlt).1] at hfull
        cases hfull
      · rw [RxRouter.sendTo_of_le (Nat.not_lt.mp hlt)]
    · rw [routeFrame_discarded hg (fun q hq => hd ⟨q,hq⟩)]

/-- The queues are within their depth and hold what was routed but not yet received. -/
structure Delivers (c : RxRouterConfig F G O) (s : RouterSystem F O) : Prop where
  within : ∀ q, (s.router.queue q).length ≤ c.queueDepth
  history : ∀ q, s.routedTo c q = s.received q ++ s.router.queue q

theorem new_delivers : Delivers c new where
  within q := by cases q <;> exact Nat.zero_le _
  history q := by cases q <;> rfl

theorem Delivers.congr (hs : Delivers c s) (hqueue : t.router.queue = s.router.queue)
    (harr : t.arrivals = s.arrivals) (hrec : t.received = s.received) : Delivers c t where
  within q := by rw [hqueue]; exact hs.within q
  history q := by
    rw [routedTo,harr,hrec,hqueue]
    exact hs.history q

theorem routedTo_routeFrame (he : Step c s (.routeFrame frame) t) (q : RxRouterQueue) :
    t.routedTo c q = s.routedTo c q ++
      if (s.router.routeFrame c frame).1.isOk = true ∧ ∃ g ∈ c.genericFrame frame,
        Destined c.toRxRouterOperation s.router.operationState g q then [frame] else [] := by
  cases he
  unfold routedTo
  rw [List.filter_append,List.map_append]
  congr 1
  simp only [List.filter_cons,List.filter_nil,decide_eq_true_eq]
  split <;> rfl

theorem routeFrame_delivers (hs : Delivers c s) (he : Step c s (.routeFrame frame) t) :
    Delivers c t := by
  have hrouted := routedTo_routeFrame he
  cases he
  have hkept (h : (s.router.routeFrame c frame).2.queue = s.router.queue)
      (hno : ∀ q, ¬ ((s.router.routeFrame c frame).1.isOk = true ∧ ∃ g ∈ c.genericFrame frame,
        Destined c.toRxRouterOperation s.router.operationState g q)) : Delivers c _ :=
    { within := fun q => h ▸ hs.within q
      history := fun q => by
        rw [hrouted,if_neg (hno q),List.append_nil,h]
        exact hs.history q }
  cases hg : c.genericFrame frame with
  | none =>
    apply hkept
    · simp [RxRouter.routeFrame,hg]
    · simp [hg]
  | some g =>
    have hroutes := routesByOperation hs.within hg
    by_cases hd : ∃ q, Destined c.toRxRouterOperation s.router.operationState g q
    · obtain ⟨q,hq⟩ := hd
      by_cases hfull : (s.router.queue q).length = c.queueDepth
      · have hres := hroutes.full_iff.mpr ⟨q,hq,hfull⟩
        apply hkept (hroutes.full_unchanged hres)
        rw [hres]
        rintro p ⟨h,_⟩
        cases h
      · obtain ⟨hok,hqueue⟩ := hroutes.accepted q hq hfull
        have hlen := lt_of_le_of_ne (hs.within q) hfull
        constructor
        · intro p
          rw [hqueue]
          by_cases hp : p = q
          · subst hp
            rw [Function.update_self,List.length_append]
            exact hlen
          · rw [Function.update_of_ne hp]
            exact hs.within p
        · intro p
          rw [hrouted,hqueue]
          by_cases hp : p = q
          · subst hp
            rw [if_pos ⟨by rw [hok]; rfl,g,hg,hq⟩,Function.update_self,hs.history,
              List.append_assoc]
          · rw [if_neg,Function.update_of_ne hp,List.append_nil]
            · exact hs.history p
            · rintro ⟨_,g',hg',hq'⟩
              rw [hg] at hg'
              cases hg'
              exact hp (destined_unique hq' hq)
    · apply hkept
      · rw [hroutes.discarded (fun q hq => hd ⟨q,hq⟩)]
      · rintro q ⟨_,g',hg',hq⟩
        rw [hg] at hg'
        cases hg'
        exact hd ⟨q,hq⟩

theorem receive_delivers (hs : Delivers c s) (he : Step c s (.receive q) t) : Delivers c t := by
  simp only [Step,step] at he
  split at he
  · cases he
  · rename_i frame router hr
    cases he
    obtain ⟨hhead,hother,_,_⟩ := RxRouter.receive_some hr
    constructor
    · intro p
      by_cases hp : p = q
      · subst hp
        have hlen := hs.within p
        rw [hhead,List.length_cons] at hlen
        exact Nat.le_of_succ_le hlen
      · change (router.queue p).length ≤ _
        rw [hother p hp]
        exact hs.within p
    · intro p
      change s.routedTo c p = Function.update s.received q _ p ++ router.queue p
      rw [hs.history p]
      by_cases hp : p = q
      · subst hp
        rw [Function.update_self,hhead,List.append_assoc]
        rfl
      · rw [Function.update_of_ne hp,hother p hp]

/-- Operations come and go without touching the queues. -/
theorem step_queues (hr : ∀ frame, op ≠ .routeFrame frame) (hq : ∀ q, op ≠ .receive q)
    (he : Step c s op t) : t.router.queue = s.router.queue ∧ t.arrivals = s.arrivals ∧
      t.received = s.received := by
  have hstart (q : RxRouterQueue) (o : O) : (s.router.startOperationInternal q o).queue =
      s.router.queue := by
    funext p
    exact RxRouter.queue_startOperationInternal o
  cases step_change he with
  | framed hop _ _ _ =>
    rcases hop with ⟨frame,hop⟩ | ⟨q,hop⟩
    · exact absurd hop (hr frame)
    · exact absurd hop (hq q)
  | kept ht => exact ht ▸ ⟨rfl,rfl,rfl⟩
  | waits q o _ _ ht => exact ht ▸ ⟨rfl,rfl,rfl⟩
  | cancelled q o _ ht => exact ht ▸ ⟨rfl,rfl,rfl⟩
  | started q o _ _ ht => exact ht ▸ ⟨hstart q o,rfl,rfl⟩
  | resumed q o _ _ ht => exact ht ▸ ⟨hstart q o,rfl,rfl⟩
  | overtaken q o _ _ _ ht => exact ht ▸ ⟨hstart q o,rfl,rfl⟩
  | moved q o router _ _ _ _ hqueue ht => exact ht ▸ ⟨hqueue,rfl,rfl⟩
  | dropped q _ ht =>
    subst ht
    refine ⟨?_,rfl,rfl⟩
    funext p
    exact RxRouter.queue_dropOperation

theorem step_delivers (hs : Delivers c s) (he : Step c s op t) : Delivers c t := by
  by_cases hr : ∃ frame, op = .routeFrame frame
  · obtain ⟨frame,rfl⟩ := hr
    exact routeFrame_delivers hs he
  · by_cases hq : ∃ q, op = .receive q
    · obtain ⟨q,rfl⟩ := hq
      exact receive_delivers hs he
    · obtain ⟨hqueue,harr,hrec⟩ := step_queues (fun f h => hr ⟨f,h⟩) (fun q h => hq ⟨q,h⟩) he
      exact hs.congr hqueue harr hrec

/-- In every state of every run a call of `route_frame` goes by the active operations, and
each queue has handed out, in order and once, a first part of what was routed to it and
holds the rest. -/
theorem rx_router_delivery (hr : Runs (Step c) new ops s) :
    (∀ frame, c.genericFrame frame = none →
      s.router.routeFrame c frame = (.error .invalidFrame,s.router)) ∧
    (∀ frame g, c.genericFrame frame = some g → RoutesByOperation c s.router frame g) ∧
    ∀ q, s.routedTo c q = s.received q ++ s.router.queue q := by
  have hs : Delivers c s := Runs.invariant (fun _ _ _ hs he => step_delivers hs he) hr new_delivers
  refine ⟨?_,?_,hs.history⟩
  · intro frame hg
    simp [RxRouter.routeFrame,hg]
  · intro frame g hg
    exact routesByOperation hs.within hg

/-- The foreground queue fills up, a frame is refused, and after the operation ended the
next one goes to the background. -/
theorem rx_router_delivery_full : ∃ s : RouterSystem Unit Bool,
    Runs (Step sameKind) new [.startOperation .foreground false,.routeFrame (),.routeFrame (),
      .dropOperation .foreground,.routeFrame (),.receive .foreground] s ∧
    s.routedTo sameKind .foreground = s.received .foreground ++ s.router.queue .foreground ∧
    s.received .foreground = [()] ∧ s.router.queue .background = [()] := by
  apply Runs.exists_of_execute (fun _ _ _ h => h)
    (fun s => s.received .foreground = [()] ∧ s.router.queue .background = [()])
  · decide
  · rintro s hr ⟨hrec,hqueue⟩
    exact ⟨(rx_router_delivery hr).2.2 .foreground,hrec,hqueue⟩

end Delivery
end FerrisOnAir.Util.RouterSystem

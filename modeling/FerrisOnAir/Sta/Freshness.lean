import FerrisOnAir.Sta.Routing

/-! # Which frames a connection attempt consumes

`StaControl` runs scans and connection attempts on the foreground queue of the station's
router, `ConnectionRunner` consumes the background queue while connected. No queue is
ever flushed. Frames carry the time at which they were routed; an attempt is known by
the start of its `Authenticating` operation and a step by the start of or the transition
to its operation. Status codes, retries and timeouts are left open: an attempt may fail
at any time, and goes on only after a response.
-/
namespace FerrisOnAir.Sta
open Rsn Util
variable {F : Type*}

structure StampedFrame (F : Type*) where
  frame : F
  routedAt : ℕ
deriving DecidableEq

/-- What `match_frames!` accepts by the type of a frame, it may still fail to parse. -/
structure ManagementCodec (F : Type*) extends RoutingCodec F where
  parsesTyped : F → Bool

inductive ConnectionRxEvent
  | disconnected
  | beaconReceived
deriving DecidableEq

namespace ManagementCodec
variable (codec : ManagementCodec F)

def handleBgRx (frame : F) : Option ConnectionRxEvent :=
  match (codec.genericFrame frame).map GenericFrame.frameType with
  | some (.management .deauthentication) =>
    if codec.parsesTyped frame then some .disconnected else none
  | some (.management .beacon) => if codec.parsesTyped frame then some .beaconReceived else none
  | _ => none

/-- The frame ends a connection whose runner takes it from the queue. -/
def endsConnection (frame : F) : Bool :=
  !codec.isKeyFrame frame && codec.handleBgRx frame == some .disconnected

/-- The check that `receive_connection_response` makes. -/
def relevant (operation : StaRxRouterOperation) (frame : F) : Bool :=
  (codec.genericFrame frame).any operation.frameRelevantForOperation

def stampedRouter (queueDepth : ℕ) :
    RxRouterConfig (StampedFrame F) GenericFrame StaRxRouterOperation :=
  staRouter (fun f => codec.genericFrame f.frame) queueDepth

end ManagementCodec

/-- What `StaControl` is doing: an attempt with its start, the start of its step and
whether that was answered. -/
inductive AttemptTask
  | idle
  | scanning
  | connecting (attemptAt stepAt : ℕ) (answered : Bool)
deriving DecidableEq

/-- A frame that `receive_connection_response` returned. -/
structure ConsumedResponse where
  attemptAt : ℕ
  stepAt : ℕ
  routedAt : ℕ
deriving DecidableEq

/-- A deauthentication that ended the connection of an attempt. -/
structure ConsumedDeauth where
  attemptAt : ℕ
  routedAt : ℕ
deriving DecidableEq

/-- `connection` is the attempt of the connection signalled last, while connected. -/
structure AttemptSystem (F : Type*) where
  router : RxRouter (StampedFrame F) StaRxRouterOperation
  now : ℕ
  control : AttemptTask
  connection : Option ℕ
  running : Bool
  responses : List ConsumedResponse
  deauths : List ConsumedDeauth

inductive AttemptOp (F : Type*)
  | routeFrame (frame : F)
  | startScan
  | receiveScan
  | endScan
  | startConnect (ownAddress : Bytes 6)
  | receiveConnectionResponse
  | nextStep
  | receiveHandshake
  | finishConnect
  | failConnect
  | disconnect
  | runnerConnect
  | runnerReceive
  | runnerDisconnect

namespace AttemptSystem
variable (codec : ManagementCodec F) (queueDepth : ℕ) (s : AttemptSystem F)

def new : AttemptSystem F := ⟨.new,0,.idle,none,false,[],[]⟩

def operation : Option StaRxRouterOperation := s.router.operationState .foreground

/-- The endpoint starts an operation; there is none in its way at the station. -/
def start (operation : StaRxRouterOperation) (control : AttemptTask) : Option (AttemptSystem F) :=
  match s.router.startOperation (codec.stampedRouter queueDepth) .foreground operation with
  | some router => some { s with router := router, control := control }
  | none => none

/-- The scoped operation is dropped and control is free again. -/
def complete (connection : Option ℕ) : AttemptSystem F :=
  { s with
    router := s.router.dropOperation .foreground
    control := .idle
    connection := connection }

/-- The pass of a loop around `receive` on the foreground queue whose frames count for
nothing here. -/
def skip : Option (AttemptSystem F) :=
  match s.router.receive .foreground with
  | some (_,router) => some { s with router := router }
  | none => none

/-- One pass of the loop in `receive_connection_response`. -/
def receiveConnectionResponse (attemptAt stepAt : ℕ) (operation : StaRxRouterOperation) :
    Option (AttemptSystem F) :=
  match s.router.receive .foreground with
  | some (f,router) =>
    if codec.relevant operation f.frame then
      some { s with
        router := router
        control := .connecting attemptAt stepAt true
        responses := s.responses ++ [⟨attemptAt,stepAt,f.routedAt⟩] }
    else some { s with router := router }
  | none => none

/-- The transition at the start of `do_assoc` and of `do_4whs`. -/
def nextStep (attemptAt : ℕ) (operation : StaRxRouterOperation) : Option (AttemptSystem F) :=
  match s.router.transition (codec.stampedRouter queueDepth) .foreground operation with
  | some (true,router) =>
    some { s with router := router, control := .connecting attemptAt s.now false }
  | _ => none

/-- The second branch of `run_connection`, and the end of `run` after a deauthentication. -/
def runnerReceive (attemptAt : ℕ) : Option (AttemptSystem F) :=
  match s.router.receive .background with
  | some (f,router) =>
    if codec.endsConnection f.frame then
      some { s with
        router := router
        connection := none
        running := false
        deauths := s.deauths ++ [⟨attemptAt,f.routedAt⟩] }
    else some { s with router := router }
  | none => none

def perform : AttemptOp F → Option (AttemptSystem F)
  | .routeFrame frame => some { s with
      router := (s.router.routeFrame (codec.stampedRouter queueDepth) ⟨frame,s.now⟩).2 }
  | .startScan =>
    match s.control with
    | .idle => s.start codec queueDepth .scanning .scanning
    | _ => none
  | .receiveScan =>
    match s.control with
    | .scanning => s.skip
    | _ => none
  | .endScan =>
    match s.control with
    | .scanning => some (s.complete s.connection)
    | _ => none
  | .startConnect ownAddress =>
    match s.control,s.connection with
    | .idle,none =>
      s.start codec queueDepth (.authenticating ownAddress) (.connecting s.now s.now false)
    | _,_ => none
  | .receiveConnectionResponse =>
    match s.control,s.operation with
    | .connecting attemptAt stepAt false,some (.authenticating a) =>
      s.receiveConnectionResponse codec attemptAt stepAt (.authenticating a)
    | .connecting attemptAt stepAt false,some (.associating a) =>
      s.receiveConnectionResponse codec attemptAt stepAt (.associating a)
    | _,_ => none
  | .nextStep =>
    match s.control,s.operation with
    | .connecting attemptAt _ true,some (.authenticating a) =>
      s.nextStep codec queueDepth attemptAt (.associating a)
    | .connecting attemptAt _ true,some (.associating a) =>
      s.nextStep codec queueDepth attemptAt (.cryptoHandshake a)
    | _,_ => none
  | .receiveHandshake =>
    match s.control,s.operation with
    | .connecting _ _ _,some (.cryptoHandshake _) => s.skip
    | _,_ => none
  | .finishConnect =>
    match s.control,s.operation with
    | .connecting attemptAt _ true,some (.associating _) => some (s.complete (some attemptAt))
    | .connecting attemptAt _ _,some (.cryptoHandshake _) => some (s.complete (some attemptAt))
    | _,_ => none
  | .failConnect =>
    match s.control with
    | .connecting _ _ _ => some (s.complete s.connection)
    | _ => none
  | .disconnect =>
    match s.control,s.connection with
    | .idle,some _ => some { s with connection := none }
    | _,_ => none
  | .runnerConnect =>
    if s.running = false ∧ s.connection.isSome = true then some { s with running := true } else none
  | .runnerReceive =>
    match s.running,s.connection with
    | true,some attemptAt => s.runnerReceive codec attemptAt
    | _,_ => none
  | .runnerDisconnect =>
    if s.running then some { s with connection := none, running := false } else none

def step (op : AttemptOp F) : Option (AttemptSystem F) :=
  (s.perform codec queueDepth op).map (fun t => { t with now := s.now + 1 })

def Step (s : AttemptSystem F) (op : AttemptOp F) (t : AttemptSystem F) : Prop :=
  s.step codec queueDepth op = some t

/-- Responses were routed after the start of their attempt and of their step, and
deauthentications that ended a connection after the start of its attempt. -/
def Fresh (s : AttemptSystem F) : Prop :=
  (∀ r ∈ s.responses, r.attemptAt < r.routedAt ∧ r.stepAt < r.routedAt) ∧
  ∀ d ∈ s.deauths, d.attemptAt < d.routedAt

/-- An attempt starts with no authentication frame in the foreground queue and no
deauthentication in the background queue. -/
def StartsClear (s : AttemptSystem F) : AttemptOp F → Prop
  | .startConnect ownAddress =>
    (∀ f ∈ s.router.queue .foreground,
      codec.relevant (.authenticating ownAddress) f.frame = false) ∧
    ∀ f ∈ s.router.queue .background, codec.endsConnection f.frame = false
  | _ => True

instance (s : AttemptSystem F) (op : AttemptOp F) : Decidable (s.StartsClear codec op) :=
  match op with
  | .startConnect _ => inferInstanceAs (Decidable (_ ∧ _))
  | .routeFrame _ | .startScan | .receiveScan | .endScan | .receiveConnectionResponse | .nextStep
  | .receiveHandshake | .finishConnect | .failConnect | .disconnect | .runnerConnect
  | .runnerReceive | .runnerDisconnect => inferInstanceAs (Decidable True)

/-- What a step of an attempt finds in the foreground queue. While authenticating,
exactly the authentication frames are from this attempt; its response is behind all
others, so that they are gone with it. -/
def StepSound (queue : List (StampedFrame F)) (attemptAt stepAt : ℕ) (answered : Bool) :
    Option StaRxRouterOperation → Prop
  | some (.authenticating a) => stepAt = attemptAt ∧ ∀ f ∈ queue,
      (codec.relevant (.authenticating a) f.frame = true ↔ attemptAt < f.routedAt) ∧
      (answered = true → attemptAt < f.routedAt)
  | some (.associating a) => ∀ f ∈ queue, attemptAt < f.routedAt ∧
      (codec.relevant (.associating a) f.frame = true → stepAt < f.routedAt)
  | _ => True

/-- The deauthentications in the background queue are from after the start. -/
def DeauthsAfter (queue : List (StampedFrame F)) (attemptAt : ℕ) : Prop :=
  ∀ f ∈ queue, codec.endsConnection f.frame = true → attemptAt < f.routedAt

def ControlSound (s : AttemptSystem F) (now : ℕ) : AttemptTask → Prop
  | .connecting attemptAt stepAt answered => attemptAt ≤ stepAt ∧ stepAt < now ∧
      DeauthsAfter codec (s.router.queue .background) attemptAt ∧
      StepSound codec (s.router.queue .foreground) attemptAt stepAt answered s.operation
  | _ => True

structure Sound (s : AttemptSystem F) (now : ℕ) : Prop where
  sorted : (s.router.queue .foreground).Pairwise (fun f g => f.routedAt ≤ g.routedAt)
  routed : ∀ q, ∀ f ∈ s.router.queue q, f.routedAt < now
  control : ControlSound codec s now s.control
  connection : ∀ a, s.connection = some a →
    a < now ∧ DeauthsAfter codec (s.router.queue .background) a
  fresh : s.Fresh

section Invariant
variable {codec} {queueDepth} {s t : AttemptSystem F} {op : AttemptOp F} {now : ℕ}
variable {queue : List (StampedFrame F)} {f : StampedFrame F} {attemptAt stepAt : ℕ}
variable {answered : Bool} {o : Option StaRxRouterOperation}

theorem DeauthsAfter.tail (h : DeauthsAfter codec (f :: queue) attemptAt) :
    DeauthsAfter codec queue attemptAt := by
  intro g hg
  exact h g (List.mem_cons_of_mem f hg)

theorem DeauthsAfter.append (h : DeauthsAfter codec queue attemptAt)
    (hf : attemptAt < f.routedAt) : DeauthsAfter codec (queue ++ [f]) attemptAt :=
  List.forall_mem_append.mpr ⟨h,List.forall_mem_singleton.mpr (fun _ => hf)⟩

theorem StepSound.tail (h : StepSound codec (f :: queue) attemptAt stepAt answered o) :
    StepSound codec queue attemptAt stepAt answered o := by
  unfold StepSound at h ⊢
  split
  · exact ⟨h.1,fun g hg => h.2 g (List.mem_cons_of_mem f hg)⟩
  · exact fun g hg => h g (List.mem_cons_of_mem f hg)
  · trivial

theorem StepSound.append (h : StepSound codec queue attemptAt stepAt answered o)
    (hattempt : attemptAt < f.routedAt) (hstep : stepAt < f.routedAt)
    (hrel : ∀ o', o = some o' → codec.relevant o' f.frame = true) :
    StepSound codec (queue ++ [f]) attemptAt stepAt answered o := by
  unfold StepSound at h ⊢
  split
  · refine ⟨h.1,List.forall_mem_append.mpr ⟨h.2,List.forall_mem_singleton.mpr ?_⟩⟩
    exact ⟨iff_of_true (hrel _ rfl) hattempt,fun _ => hattempt⟩
  · exact List.forall_mem_append.mpr ⟨h,List.forall_mem_singleton.mpr ⟨hattempt,fun _ => hstep⟩⟩
  · trivial

/-- A frame that answers an authentication does not answer an association. -/
theorem not_relevant_associating {frame : F} {a b : Bytes 6}
    (h : codec.relevant (.authenticating a) frame = true) :
    codec.relevant (.associating b) frame = false := by
  unfold ManagementCodec.relevant at h ⊢
  cases hg : codec.genericFrame frame with
  | none => rfl
  | some g =>
    simp only [hg,Option.any_some,StaRxRouterOperation.frameRelevantForOperation,beq_iff_eq] at h
    simp [StaRxRouterOperation.frameRelevantForOperation,h]

theorem ControlSound.mono {control : AttemptTask} (h : ControlSound codec s now control) :
    ControlSound codec s (now + 1) control := by
  unfold ControlSound at h ⊢
  split
  · obtain ⟨hle,hlt,hrest⟩ := h
    exact ⟨hle,hlt.trans (Nat.lt_succ_self now),hrest⟩
  · trivial

theorem Sound.mono (h : Sound codec s now) : Sound codec s (now + 1) where
  sorted := h.sorted
  routed q f hf := (h.routed q f hf).trans (Nat.lt_succ_self now)
  control := h.control.mono
  connection a ha :=
    ⟨(h.connection a ha).1.trans (Nat.lt_succ_self now),(h.connection a ha).2⟩
  fresh := h.fresh

/-- Nothing is asked of the queues that is not known already. -/
theorem Sound.of_queue (hs : Sound codec s now) (hqueue : t.router.queue = s.router.queue)
    (hcontrol : ControlSound codec t now t.control)
    (hconnection : ∀ a, t.connection = some a → a < now ∧
      DeauthsAfter codec (s.router.queue .background) a)
    (hresponses : t.responses = s.responses) (hdeauths : t.deauths = s.deauths) :
    Sound codec t now := by
  refine ⟨?_,?_,hcontrol,?_,?_⟩
  · rw [hqueue]
    exact hs.sorted
  · rw [hqueue]
    exact hs.routed
  · rw [hqueue]
    exact hconnection
  · unfold Fresh
    rw [hresponses,hdeauths]
    exact hs.fresh

/-- The queues change, and what is known of the operations of an attempt is kept. -/
theorem Sound.of_router (hs : Sound codec s now)
    {router : RxRouter (StampedFrame F) StaRxRouterOperation} {now' : ℕ} (hnow : now ≤ now')
    (hops : router.operationState = s.router.operationState)
    (hsorted : (router.queue .foreground).Pairwise (fun f g => f.routedAt ≤ g.routedAt))
    (hrouted : ∀ q, ∀ f ∈ router.queue q, f.routedAt < now')
    (hdeauths : ∀ a < now, DeauthsAfter codec (s.router.queue .background) a →
      DeauthsAfter codec (router.queue .background) a)
    (hsteps : ∀ a st ans, a ≤ st → st < now →
      StepSound codec (s.router.queue .foreground) a st ans s.operation →
      StepSound codec (router.queue .foreground) a st ans s.operation) :
    Sound codec { s with router := router } now' := by
  refine ⟨hsorted,hrouted,?_,?_,hs.fresh⟩
  · have hcontrol := hs.control
    have hop : ({ s with router := router } : AttemptSystem F).operation = s.operation :=
      congrFun hops .foreground
    unfold ControlSound at hcontrol ⊢
    dsimp only
    rw [hop]
    cases hc : s.control with
    | idle => trivial
    | scanning => trivial
    | connecting attemptAt stepAt answered =>
      rw [hc] at hcontrol
      obtain ⟨hle,hlt,hafter,hstep⟩ := hcontrol
      exact ⟨hle,hlt.trans_le hnow,hdeauths _ (hle.trans_lt hlt) hafter,
        hsteps _ _ _ hle hlt hstep⟩
  · intro a ha
    obtain ⟨hlt,hafter⟩ := hs.connection a ha
    exact ⟨hlt.trans_le hnow,hdeauths a hlt hafter⟩

theorem routeFrame_sound (hs : Sound codec s s.now) (frame : F)
    (he : s.perform codec queueDepth (.routeFrame frame) = some t) :
    Sound codec t (s.now + 1) := by
  cases he
  have hqueue := RxRouter.routeFrame_queue (r := s.router) (codec.stampedRouter queueDepth)
    ⟨frame,s.now⟩
  refine hs.of_router (Nat.le_succ _) (RxRouter.routeFrame_operationState _ _) ?_ ?_ ?_ ?_
  · rcases hqueue .foreground with hq | ⟨hq,_⟩
    · rw [hq]
      exact hs.sorted
    · rw [hq]
      refine List.pairwise_append.mpr ⟨hs.sorted,List.pairwise_singleton _ _,?_⟩
      intro f hf g hg
      rw [List.mem_singleton.mp hg]
      exact (hs.routed .foreground f hf).le
  · intro q
    have hold : ∀ f ∈ s.router.queue q, f.routedAt < s.now + 1 :=
      fun f hf => (hs.routed q f hf).trans (Nat.lt_succ_self _)
    rcases hqueue q with hq | ⟨hq,_⟩
    · rw [hq]
      exact hold
    · rw [hq]
      exact List.forall_mem_append.mpr ⟨hold,List.forall_mem_singleton.mpr (Nat.lt_succ_self _)⟩
  · intro a ha h
    rcases hqueue .background with hq | ⟨hq,_⟩
    · rw [hq]
      exact h
    · rw [hq]
      exact h.append ha
  · intro a st ans hle hlt h
    rcases hqueue .foreground with hq | ⟨hq,hrel⟩
    · rw [hq]
      exact h
    · rw [hq]
      refine h.append (hle.trans_lt hlt) hlt ?_
      obtain ⟨g,o,hg,ho,hrel⟩ := hrel rfl
      intro o' ho'
      cases ho.symm.trans ho'
      have hg' : codec.genericFrame frame = some g := hg
      unfold ManagementCodec.relevant
      rw [hg']
      exact hrel

/-- Taking a frame from a queue keeps what is known of the others. -/
theorem receive_sound (hs : Sound codec s now) {q : RxRouterQueue}
    {router : RxRouter (StampedFrame F) StaRxRouterOperation}
    (hr : s.router.receive q = some (f,router)) : Sound codec { s with router := router } now := by
  obtain ⟨hhead,hother,hops,_⟩ := RxRouter.receive_some hr
  have htail : ∀ p, router.queue p = s.router.queue p ∨ s.router.queue p = f :: router.queue p := by
    intro p
    by_cases hp : p = q
    · rw [hp]
      exact Or.inr hhead
    · exact Or.inl (hother p hp)
  refine hs.of_router le_rfl hops ?_ ?_ ?_ ?_
  · have hsorted := hs.sorted
    rcases htail .foreground with hq | hq
    · rw [hq]
      exact hsorted
    · rw [hq] at hsorted
      exact hsorted.tail
  · intro p g hg
    refine hs.routed p g ?_
    rcases htail p with hq | hq
    · rw [← hq]
      exact hg
    · rw [hq]
      exact List.mem_cons_of_mem f hg
  · intro a _ h
    rcases htail .background with hq | hq
    · rw [hq]
      exact h
    · rw [hq] at h
      exact h.tail
  · intro a st ans _ _ h
    rcases htail .foreground with hq | hq
    · rw [hq]
      exact h
    · rw [hq] at h
      exact h.tail

theorem start_sound {operation : StaRxRouterOperation} {control : AttemptTask}
    (hs : Sound codec s now)
    (hcontrol : ControlSound codec { s with
      router := s.router.startOperationInternal .foreground operation
      control := control } now control)
    (he : s.start codec queueDepth operation control = some t) : Sound codec t now := by
  unfold start at he
  split at he
  · rename_i router hstart
    cases he
    rw [RxRouter.startOperation_some _ hstart]
    refine hs.of_queue ?_ hcontrol hs.connection rfl rfl
    funext q
    exact RxRouter.queue_startOperationInternal operation
  · cases he

theorem startConnect_sound (hs : Sound codec s s.now) {ownAddress : Bytes 6}
    (hclear : s.StartsClear codec (.startConnect ownAddress))
    (he : s.start codec queueDepth (.authenticating ownAddress) (.connecting s.now s.now false) =
      some t) : Sound codec t (s.now + 1) := by
  refine start_sound hs.mono ?_ he
  refine ⟨le_rfl,Nat.lt_succ_self _,?_,?_⟩
  · intro f hf hends
    rw [RxRouter.queue_startOperationInternal] at hf
    rw [hclear.2 f hf] at hends
    cases hends
  · have hop : ({ s with
        router := s.router.startOperationInternal .foreground (.authenticating ownAddress)
        control := .connecting s.now s.now false } : AttemptSystem F).operation =
        some (.authenticating ownAddress) := by
      simp [operation]
    rw [hop]
    refine ⟨rfl,?_⟩
    intro f hf
    rw [RxRouter.queue_startOperationInternal] at hf
    have hold := hs.routed .foreground f hf
    have hirrelevant := hclear.1 f hf
    refine ⟨?_,by simp⟩
    rw [hirrelevant]
    simp only [Bool.false_eq_true,false_iff]
    omega

theorem complete_sound (hs : Sound codec s now) {connection : Option ℕ}
    (hconnection : ∀ a, connection = some a → a < now ∧
      DeauthsAfter codec (s.router.queue .background) a) :
    Sound codec (s.complete connection) now := by
  refine hs.of_queue ?_ trivial hconnection rfl rfl
  funext q
  exact RxRouter.queue_dropOperation

/-- The connection of an attempt has the deauthentications the attempt had. -/
theorem finish_sound (hs : Sound codec s now)
    (hc : s.control = .connecting attemptAt stepAt answered) :
    Sound codec (s.complete (some attemptAt)) now := by
  have hcontrol := hs.control
  rw [hc] at hcontrol
  obtain ⟨hle,hlt,hafter,_⟩ := hcontrol
  refine complete_sound hs ?_
  intro a ha
  cases ha
  exact ⟨hle.trans_lt hlt,hafter⟩

theorem skip_sound (hs : Sound codec s now) (he : s.skip = some t) : Sound codec t now := by
  unfold skip at he
  split at he
  · rename_i hr
    cases he
    exact receive_sound hs hr
  · cases he

theorem nextStep_sound {operation : StaRxRouterOperation} (hs : Sound codec s s.now)
    (hc : s.control = .connecting attemptAt stepAt answered)
    (hstep : StepSound codec (s.router.queue .foreground) attemptAt s.now false (some operation))
    (he : s.nextStep codec queueDepth attemptAt operation = some t) :
    Sound codec t (s.now + 1) := by
  have hcontrol := hs.control
  rw [hc] at hcontrol
  obtain ⟨hle,hlt,hafter,_⟩ := hcontrol
  unfold nextStep at he
  split at he
  · rename_i router htransition
    cases he
    obtain ⟨hop,hqueue⟩ := RxRouter.transition_true _ htransition
    refine hs.mono.of_queue hqueue ?_ hs.mono.connection rfl rfl
    refine ⟨(hle.trans_lt hlt).le,Nat.lt_succ_self _,?_,?_⟩
    · rw [hqueue]
      exact hafter
    · have hop' : ({ s with
          router := router
          control := .connecting attemptAt s.now false } : AttemptSystem F).operation =
          some operation := hop
      rw [hop',hqueue]
      exact hstep
  · cases he

/-- A response that passes the check is from this step, and everything behind it from
this attempt. -/
theorem StepSound.answer {operation : StaRxRouterOperation}
    (hop : (∃ a, operation = .authenticating a) ∨ ∃ a, operation = .associating a)
    (hsorted : (f :: queue).Pairwise (fun f g => f.routedAt ≤ g.routedAt))
    (h : StepSound codec (f :: queue) attemptAt stepAt answered (some operation))
    (hrel : codec.relevant operation f.frame = true) :
    (attemptAt < f.routedAt ∧ stepAt < f.routedAt) ∧
      StepSound codec queue attemptAt stepAt true (some operation) := by
  rcases hop with ⟨a,rfl⟩ | ⟨a,rfl⟩
  · obtain ⟨hstep,h⟩ := h
    have hf : attemptAt < f.routedAt := (h f List.mem_cons_self).1.mp hrel
    refine ⟨⟨hf,hstep ▸ hf⟩,hstep,?_⟩
    intro g hg
    have hfg := (List.pairwise_cons.mp hsorted).1 g hg
    exact ⟨(h g (List.mem_cons_of_mem f hg)).1,fun _ => hf.trans_le hfg⟩
  · obtain ⟨hf,hstep⟩ := h f List.mem_cons_self
    exact ⟨⟨hf,hstep hrel⟩,fun g hg => h g (List.mem_cons_of_mem f hg)⟩

theorem receiveConnectionResponse_sound {operation : StaRxRouterOperation}
    (hop : (∃ a, operation = .authenticating a) ∨ ∃ a, operation = .associating a)
    (hs : Sound codec s now) (hc : s.control = .connecting attemptAt stepAt answered)
    (ho : s.operation = some operation)
    (he : s.receiveConnectionResponse codec attemptAt stepAt operation = some t) :
    Sound codec t now := by
  unfold receiveConnectionResponse at he
  split at he
  · rename_i f router hr
    have hreceived := receive_sound hs hr
    obtain ⟨hhead,_,hops,_⟩ := RxRouter.receive_some hr
    cases hrel : codec.relevant operation f.frame with
    | false =>
      rw [hrel] at he
      cases he
      exact hreceived
    | true =>
      rw [hrel] at he
      cases he
      have hcontrol := hs.control
      rw [hc] at hcontrol
      obtain ⟨_,_,_,hstep⟩ := hcontrol
      have hsorted := hs.sorted
      rw [hhead] at hsorted hstep
      rw [ho] at hstep
      obtain ⟨hfresh,hanswered⟩ := StepSound.answer hop hsorted hstep hrel
      have hcontrol' := hreceived.control
      unfold ControlSound at hcontrol'
      dsimp only at hcontrol'
      rw [hc] at hcontrol'
      refine ⟨hreceived.sorted,hreceived.routed,?_,hreceived.connection,?_⟩
      · refine ⟨hcontrol'.1,hcontrol'.2.1,hcontrol'.2.2.1,?_⟩
        have hop' : ({ s with
            router := router
            control := .connecting attemptAt stepAt true
            responses := s.responses ++ [⟨attemptAt,stepAt,f.routedAt⟩] } :
            AttemptSystem F).operation = some operation := by
          rw [← ho]
          exact congrFun hops .foreground
        rw [hop']
        exact hanswered
      · refine ⟨List.forall_mem_append.mpr ⟨hs.fresh.1,?_⟩,hs.fresh.2⟩
        exact List.forall_mem_singleton.mpr hfresh
  · cases he

theorem runnerReceive_sound (hs : Sound codec s now) (ha : s.connection = some attemptAt)
    (he : s.runnerReceive codec attemptAt = some t) : Sound codec t now := by
  unfold runnerReceive at he
  split at he
  · rename_i f router hr
    have hreceived := receive_sound hs hr
    cases hends : codec.endsConnection f.frame with
    | false =>
      rw [hends] at he
      cases he
      exact hreceived
    | true =>
      rw [hends] at he
      cases he
      obtain ⟨hhead,_⟩ := RxRouter.receive_some hr
      have hafter := (hs.connection attemptAt ha).2
      rw [hhead] at hafter
      refine ⟨hreceived.sorted,hreceived.routed,hreceived.control,?_,hs.fresh.1,?_⟩
      · intro a ha'
        cases ha'
      · refine List.forall_mem_append.mpr ⟨hs.fresh.2,List.forall_mem_singleton.mpr ?_⟩
        exact hafter f List.mem_cons_self hends
  · cases he

theorem Sound.of_disconnected (hs : Sound codec s now) (hrouter : t.router = s.router)
    (hcontrol : t.control = s.control)
    (hconnection : t.connection = none ∨ t.connection = s.connection)
    (hresponses : t.responses = s.responses) (hdeauths : t.deauths = s.deauths) :
    Sound codec t now := by
  refine hs.of_queue (by rw [hrouter]) ?_ ?_ hresponses hdeauths
  · have hc := hs.control
    unfold ControlSound operation at hc ⊢
    rw [hrouter,hcontrol]
    exact hc
  · intro a ha
    rcases hconnection with hnone | hsame
    · rw [hnone] at ha
      cases ha
    · rw [hsame] at ha
      exact hs.connection a ha

theorem nextStep_perform_sound (hs : Sound codec s s.now)
    (he : s.perform codec queueDepth .nextStep = some t) : Sound codec t (s.now + 1) := by
  have hcontrol := hs.control
  simp only [perform] at he
  split at he
  · rename_i attemptAt stepAt a hc ho
    rw [hc] at hcontrol
    obtain ⟨_,_,_,hstep⟩ := hcontrol
    rw [ho] at hstep
    refine nextStep_sound hs hc ?_ he
    intro f hf
    obtain ⟨hiff,hanswered⟩ := hstep.2 f hf
    have hafter := hanswered rfl
    refine ⟨hafter,?_⟩
    -- only authentications are left, and they do not answer an association
    rw [not_relevant_associating (hiff.mpr hafter)]
    simp
  · rename_i attemptAt stepAt a hc _
    refine nextStep_sound hs hc ?_ he
    trivial
  · cases he

theorem perform_sound (hs : Sound codec s s.now) (hclear : s.StartsClear codec op)
    (he : s.perform codec queueDepth op = some t) : Sound codec t (s.now + 1) := by
  cases op with
  | routeFrame frame => exact routeFrame_sound hs frame he
  | startScan =>
    simp only [perform] at he
    split at he
    · refine start_sound hs.mono ?_ he
      trivial
    · cases he
  | receiveScan =>
    simp only [perform] at he
    split at he
    · exact (skip_sound hs he).mono
    · cases he
  | endScan =>
    simp only [perform] at he
    split at he <;> cases he
    exact (complete_sound hs hs.connection).mono
  | startConnect ownAddress =>
    simp only [perform] at he
    split at he
    · exact startConnect_sound hs hclear he
    · cases he
  | receiveConnectionResponse =>
    simp only [perform] at he
    split at he
    · rename_i a hc ho
      exact (receiveConnectionResponse_sound (Or.inl ⟨a,rfl⟩) hs hc ho he).mono
    · rename_i a hc ho
      exact (receiveConnectionResponse_sound (Or.inr ⟨a,rfl⟩) hs hc ho he).mono
    · cases he
  | nextStep => exact nextStep_perform_sound hs he
  | receiveHandshake =>
    simp only [perform] at he
    split at he
    · exact (skip_sound hs he).mono
    · cases he
  | finishConnect =>
    simp only [perform] at he
    split at he
    · rename_i hc _
      cases he
      exact (finish_sound hs hc).mono
    · rename_i hc _
      cases he
      exact (finish_sound hs hc).mono
    · cases he
  | failConnect =>
    simp only [perform] at he
    split at he <;> cases he
    exact (complete_sound hs hs.connection).mono
  | disconnect =>
    simp only [perform] at he
    split at he <;> cases he
    refine Sound.mono ?_
    exact hs.of_disconnected rfl rfl (Or.inl rfl) rfl rfl
  | runnerConnect =>
    simp only [perform] at he
    split at he <;> cases he
    refine Sound.mono ?_
    exact hs.of_disconnected rfl rfl (Or.inr rfl) rfl rfl
  | runnerReceive =>
    simp only [perform] at he
    split at he
    · rename_i attemptAt _ ha
      exact (runnerReceive_sound hs ha he).mono
    · cases he
  | runnerDisconnect =>
    simp only [perform] at he
    split at he <;> cases he
    refine Sound.mono ?_
    exact hs.of_disconnected rfl rfl (Or.inl rfl) rfl rfl

theorem step_sound (hs : Sound codec s s.now) (hclear : s.StartsClear codec op)
    (he : Step codec queueDepth s op t) : Sound codec t t.now := by
  obtain ⟨u,hu,rfl⟩ := Option.map_eq_some_iff.mp he
  have h := perform_sound hs hclear hu
  exact ⟨h.sorted,h.routed,h.control,h.connection,h.fresh⟩

theorem new_sound : Sound codec (new : AttemptSystem F) 0 := by
  refine ⟨List.Pairwise.nil,?_,trivial,?_,?_,?_⟩
  · intro q f hf
    cases q <;> cases hf
  · intro a ha
    cases ha
  · intro r hr
    cases hr
  · intro d hd
    cases hd

/-- In a run in which every attempt starts with no authentication frame in the foreground
queue and no deauthentication in the background queue, every response is from after the
start of its attempt and of its step, and no connection is ended by a deauthentication
from before its attempt. -/
theorem frames_fresh {ops : List (AttemptOp F)}
    (hr : Runs (Guarded (StartsClear codec) (Step codec queueDepth)) new ops s) : s.Fresh := by
  have hsound : Sound codec s s.now := by
    refine Runs.invariant (I := fun s => Sound codec s s.now) ?_ hr new_sound
    intro s op t hs he
    exact step_sound hs he.1 he.2
  exact hsound.fresh

/-- Management frames that parse, given by what the generic parser tells about them. -/
def headerCodec : ManagementCodec GenericFrame where
  genericFrame := some
  dataFrame _ := none
  potentiallyWrappedPayload _ := none
  snapLlcFrame _ := none
  parsesTyped _ := true

def managementFrame (subtype : ManagementFrameSubtype) : GenericFrame :=
  ⟨.management subtype,fun _ => 2,false⟩

/-- A duplicate of an authentication response that stays in the queue of one attempt is
discarded by its next step, and the connection ends with a deauthentication of its own. -/
theorem frames_fresh_connection : ∃ s : AttemptSystem GenericFrame,
    Runs (Guarded (StartsClear headerCodec) (Step headerCodec 4)) new
      [.startConnect (fun _ => 2),.routeFrame (managementFrame .authentication),
        .routeFrame (managementFrame .authentication),.receiveConnectionResponse,.nextStep,
        .routeFrame (managementFrame .associationResponse),.receiveConnectionResponse,
        .receiveConnectionResponse,.finishConnect,.runnerConnect,
        .routeFrame (managementFrame .deauthentication),.runnerReceive] s ∧
    s.responses = [⟨0,0,1⟩,⟨0,4,5⟩] ∧ s.deauths = [⟨0,10⟩] ∧ s.Fresh := by
  apply Runs.exists_of_execute (Runs.guarded_of_nextGuarded (fun _ _ _ h => h))
    (fun s => s.responses = [⟨0,0,1⟩,⟨0,4,5⟩] ∧ s.deauths = [⟨0,10⟩])
  · decide
  · rintro s hr ⟨hresponses,hdeauths⟩
    exact ⟨hresponses,hdeauths,frames_fresh hr⟩

/-- The first attempt fails with a duplicate of the authentication response in the queue,
which the second one takes for its own. A deauthentication routed after its connection
was given up ends that of the third attempt. -/
theorem frames_stale : ∃ s : AttemptSystem GenericFrame,
    Runs (Step headerCodec 4) new
      [.startConnect (fun _ => 2),.routeFrame (managementFrame .authentication),
        .routeFrame (managementFrame .authentication),.receiveConnectionResponse,.failConnect,
        .startConnect (fun _ => 2),.receiveConnectionResponse,.nextStep,
        .routeFrame (managementFrame .associationResponse),.receiveConnectionResponse,
        .finishConnect,.runnerConnect,.disconnect,
        .routeFrame (managementFrame .deauthentication),.runnerDisconnect,
        .startConnect (fun _ => 2),.routeFrame (managementFrame .authentication),
        .receiveConnectionResponse,.nextStep,
        .routeFrame (managementFrame .associationResponse),.receiveConnectionResponse,
        .finishConnect,.runnerConnect,.runnerReceive] s ∧
    s.responses = [⟨0,0,1⟩,⟨5,5,2⟩,⟨5,7,8⟩,⟨15,15,16⟩,⟨15,18,19⟩] ∧
    s.deauths = [⟨15,13⟩] ∧ ¬ s.Fresh := by
  apply Runs.exists_of_execute (fun _ _ _ h => h) (fun s =>
    s.responses = [⟨0,0,1⟩,⟨5,5,2⟩,⟨5,7,8⟩,⟨15,15,16⟩,⟨15,18,19⟩] ∧ s.deauths = [⟨15,13⟩])
  · decide
  · rintro s _ ⟨hresponses,hdeauths⟩
    refine ⟨hresponses,hdeauths,?_⟩
    rintro ⟨_,hfresh⟩
    rw [hdeauths] at hfresh
    have hlt := hfresh ⟨15,13⟩ (List.mem_singleton_self _)
    simp at hlt

end Invariant
end AttemptSystem
end FerrisOnAir.Sta

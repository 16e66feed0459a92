import FerrisOnAir.Sta.Freshness

/-! # Responses that belong to the current step

`receive_connection_response` of `foa_sta/src/rx_router.rs` and the steps of a connection
attempt around it. A frame is classified when it is routed and again when it is taken from
the queue, maybe under another operation. The operation is read once per call; the call
borrows the scoped operation, so no transition happens before it returned or was dropped by
its timeout. Routing, the background endpoint and scans between the attempts interleave
freely, and the router may hold any frames at the start.
-/
namespace FerrisOnAir.Sta
open Rsn Util
variable {F : Type*}

/-- `do_auth`, `do_assoc` and `do_4whs`. -/
inductive ConnectionStep
  | auth
  | assoc
  | handshake
deriving DecidableEq

/-- The frames that a step reads with a typed parser. -/
def ConnectionStep.parses : ConnectionStep → Option ManagementFrameSubtype
  | auth => some .authentication
  | assoc => some .associationResponse
  | handshake => none

/-- A call in progress: the operation it read, and for the record the frames queued for it
so far, those it took included, and the buffers released before it. -/
structure ResponseCall (F : Type*) where
  operation : StaRxRouterOperation
  available : List F
  releasedBefore : List F

inductive ResponseTask (F : Type*)
  | idle
  | scanning
  | stepping (step : ConnectionStep)
  | receiving (step : ConnectionStep) (call : ResponseCall F)
  | answered (step : ConnectionStep)

/-- A call that returned. -/
structure ConnectionResponse (F : Type*) extends ResponseCall F where
  step : ConnectionStep
  frame : F
  remaining : List F
  releasedAfter : List F

structure ResponseSystem (F : Type*) where
  router : RxRouter F StaRxRouterOperation
  task : ResponseTask F
  released : List F
  responses : List (ConnectionResponse F)

inductive ResponseOp (F : Type*)
  | routeFrame (frame : F)
  | receiveBackground
  | startScan
  | receiveScan
  | endScan
  | startConnect (ownAddress : Bytes 6)
  | callReceive
  | pollReceive
  | timeout
  | nextStep
  | receiveHandshake
  | finishConnect

/-- The loop of `receive_connection_response` on the frames in the queue: those it drops,
the one it returns and the rest. -/
def receiveConnectionResponse (codec : ManagementCodec F) (operation : StaRxRouterOperation) :
    List F → List F × Option F × List F
  | [] => ([],none,[])
  | frame :: queue =>
    if codec.relevant operation frame then ([],some frame,queue)
    else
      let r := receiveConnectionResponse codec operation queue
      (frame :: r.1,r.2)

def ResponseTask.step : ResponseTask F → Option ConnectionStep
  | .idle => none
  | .scanning => none
  | .stepping step => some step
  | .receiving step _ => some step
  | .answered step => some step

/-- A frame that reaches the foreground queue during a call is recorded for it. -/
def ResponseTask.arrive (arrived : List F) : ResponseTask F → ResponseTask F
  | .receiving step call => .receiving step { call with available := call.available ++ arrived }
  | task => task

namespace ResponseSystem
variable (codec : ManagementCodec F) (queueDepth : ℕ) (s : ResponseSystem F)

def new (router : RxRouter F StaRxRouterOperation) : ResponseSystem F := ⟨router,.idle,[],[]⟩

def operation : Option StaRxRouterOperation := s.router.operationState .foreground

def queue : List F := s.router.queue .foreground

def setQueue (queue : List F) : ResponseSystem F :=
  let state := { s.router.queueState .foreground with queue := queue }
  { s with router := s.router.setQueueState state .foreground }

def config : RxRouterConfig F GenericFrame StaRxRouterOperation :=
  staRouter codec.genericFrame queueDepth

/-- The endpoint starts an operation once nothing is in its way. -/
def start (operation : StaRxRouterOperation) (task : ResponseTask F) : Option (ResponseSystem F) :=
  match s.router.startOperation (config codec queueDepth) .foreground operation with
  | some router => some { s with router := router, task := task }
  | none => none

/-- Takes a frame for something else. -/
def skip (q : RxRouterQueue) : Option (ResponseSystem F) :=
  match s.router.receive q with
  | some (_,router) => some { s with router := router }
  | none => none

/-- A transition that fails is a panic. -/
def transition (operation : StaRxRouterOperation) (step : ConnectionStep) :
    Option (ResponseSystem F) :=
  match s.router.transition (config codec queueDepth) .foreground operation with
  | some (true,router) => some { s with router := router, task := .stepping step }
  | _ => none

def routeFrame (frame : F) : ResponseSystem F :=
  let router := (s.router.routeFrame (config codec queueDepth) frame).2
  { s with
    router := router
    task := s.task.arrive ((router.queue .foreground).drop s.queue.length) }

def pollReceive (step : ConnectionStep) (call : ResponseCall F) : ResponseSystem F :=
  let r := receiveConnectionResponse codec call.operation s.queue
  let t := { s.setQueue r.2.2 with released := s.released ++ r.1 }
  match r.2.1 with
  | some frame => { t with
      task := .answered step
      responses := s.responses ++ [⟨call,step,frame,r.2.2,s.released ++ r.1⟩] }
  | none => t

def perform : ResponseOp F → Option (ResponseSystem F)
  | .routeFrame frame => some (s.routeFrame codec queueDepth frame)
  | .receiveBackground => s.skip .background
  | .startScan =>
    match s.task with
    | .idle => s.start codec queueDepth .scanning .scanning
    | _ => none
  | .receiveScan =>
    match s.task with
    | .scanning => s.skip .foreground
    | _ => none
  | .endScan =>
    match s.task with
    | .scanning => some { s with router := s.router.dropOperation .foreground, task := .idle }
    | _ => none
  | .startConnect ownAddress =>
    match s.task with
    | .idle => s.start codec queueDepth (.authenticating ownAddress) (.stepping .auth)
    | _ => none
  | .callReceive =>
    match s.task,s.operation with
    | .stepping .handshake,_ => none
    | .stepping step,some operation =>
      some { s with task := .receiving step ⟨operation,s.queue,s.released⟩ }
    | _,_ => none
  | .pollReceive =>
    match s.task with
    | .receiving step call => some (s.pollReceive codec step call)
    | _ => none
  | .timeout =>
    match s.task with
    | .receiving step _ => some { s with task := .stepping step }
    | _ => none
  | .nextStep =>
    match s.task,s.operation with
    | .answered .auth,some (.authenticating a) =>
      s.transition codec queueDepth (.associating a) .assoc
    | .answered .assoc,some (.associating a) =>
      s.transition codec queueDepth (.cryptoHandshake a) .handshake
    | _,_ => none
  | .receiveHandshake =>
    match s.task with
    | .stepping .handshake => s.skip .foreground
    | _ => none
  | .finishConnect =>
    match s.task.step with
    | some _ => some { s with router := s.router.dropOperation .foreground, task := .idle }
    | none => none

def Step (s : ResponseSystem F) (op : ResponseOp F) (t : ResponseSystem F) : Prop :=
  s.perform codec queueDepth op = some t

end ResponseSystem

/-- The operation of a step. -/
def ConnectionStep.Performs : ConnectionStep → StaRxRouterOperation → Prop
  | .auth,operation => ∃ a, operation = .authenticating a
  | .assoc,operation => ∃ a, operation = .associating a
  | .handshake,operation => ∃ a, operation = .cryptoHandshake a

/-- The response is the first frame for the operation of its call, the frames before it and
no others were dropped, and it has the type that its step parses. -/
structure ConnectionResponse.Correct (codec : ManagementCodec F) (r : ConnectionResponse F) :
    Prop where
  first : ∃ dropped, r.available = dropped ++ r.frame :: r.remaining ∧
    r.releasedAfter = r.releasedBefore ++ dropped ∧
    ∀ frame ∈ dropped, codec.relevant r.operation frame = false
  relevant : codec.relevant r.operation r.frame = true
  parsed : ∃ subtype, r.step.parses = some subtype ∧
    (codec.genericFrame r.frame).map GenericFrame.frameType = some (.management subtype)

/-- A call in progress has dropped the frames before the present queue. -/
structure ResponseCall.Correct (codec : ManagementCodec F) (call : ResponseCall F)
    (s : ResponseSystem F) : Prop where
  operation : s.router.operationState .foreground = some call.operation
  dropped : ∃ dropped, call.available = dropped ++ s.router.queue .foreground ∧
    s.released = call.releasedBefore ++ dropped ∧
    ∀ frame ∈ dropped, codec.relevant call.operation frame = false

/-- The loop splits the queue at the first relevant frame. -/
theorem receiveConnectionResponse_spec (codec : ManagementCodec F)
    (operation : StaRxRouterOperation) (queue : List F) :
    let r := receiveConnectionResponse codec operation queue
    (∀ frame ∈ r.1, codec.relevant operation frame = false) ∧
      ((∃ frame, r.2.1 = some frame ∧ codec.relevant operation frame = true ∧
        queue = r.1 ++ frame :: r.2.2) ∨ r.2.1 = none ∧ r.2.2 = [] ∧ queue = r.1) := by
  induction queue with
  | nil => exact ⟨by rintro _ ⟨⟩,.inr ⟨rfl,rfl,rfl⟩⟩
  | cons frame queue ih =>
    rw [receiveConnectionResponse]
    cases hrelevant : codec.relevant operation frame with
    | true => exact ⟨by rintro _ ⟨⟩,.inl ⟨frame,rfl,hrelevant,rfl⟩⟩
    | false =>
      obtain ⟨hdropped,hrest⟩ := ih
      refine ⟨List.forall_mem_cons.mpr ⟨hrelevant,hdropped⟩,?_⟩
      rcases hrest with ⟨found,hfound,hr,hqueue⟩ | ⟨hnone,hnil,hqueue⟩
      · exact .inl ⟨found,hfound,hr,congrArg (frame :: ·) hqueue⟩
      · exact .inr ⟨hnone,hnil,congrArg (frame :: ·) hqueue⟩

/-- A frame relevant for the operation of a step has the type that the step parses. -/
theorem parsed_of_relevant {codec : ManagementCodec F} {step : ConnectionStep}
    {operation : StaRxRouterOperation} {frame : F} (hstep : step ≠ .handshake)
    (hoperation : step.Performs operation) (h : codec.relevant operation frame = true) :
    ∃ subtype, step.parses = some subtype ∧
      (codec.genericFrame frame).map GenericFrame.frameType = some (.management subtype) := by
  obtain ⟨g,hg,hrelevant⟩ := (Option.any_eq_true _ _).mp h
  rw [hg,Option.map_some]
  cases step with
  | auth =>
    obtain ⟨a,rfl⟩ := hoperation
    exact ⟨.authentication,rfl,congrArg some (eq_of_beq hrelevant)⟩
  | assoc =>
    obtain ⟨a,rfl⟩ := hoperation
    exact ⟨.associationResponse,rfl,congrArg some (eq_of_beq hrelevant)⟩
  | handshake => exact absurd rfl hstep

namespace ResponseSystem
open AttemptSystem (headerCodec managementFrame)
variable (codec : ManagementCodec F) {queueDepth : ℕ} {s t : ResponseSystem F} {op : ResponseOp F}

/-- The operation of the router is that of the step, a call under way is correct and so are
all responses. -/
structure Revalidates (s : ResponseSystem F) : Prop where
  operation : ∀ step, s.task.step = some step →
    ∃ operation, s.router.operationState .foreground = some operation ∧ step.Performs operation
  call : ∀ step call, s.task = .receiving step call → step ≠ .handshake ∧ call.Correct codec s
  responses : ∀ r ∈ s.responses, r.Correct codec

variable {codec}

/-- Steps that keep the responses and end outside of a call. -/
theorem Revalidates.of_task (h : s.Revalidates codec) (hresponses : t.responses = s.responses)
    (hoperation : ∀ step, t.task.step = some step →
      ∃ operation, t.router.operationState .foreground = some operation ∧ step.Performs operation)
    (htask : ∀ step call, t.task ≠ .receiving step call) : t.Revalidates codec where
  operation := hoperation
  call step call hcall := absurd hcall (htask step call)
  responses := by
    rw [hresponses]
    exact h.responses

theorem revalidates_start {operation : StaRxRouterOperation} {task : ResponseTask F}
    (h : s.Revalidates codec) (hstart : s.start codec queueDepth operation task = some t)
    (htask : ∀ step call, task ≠ .receiving step call)
    (hperforms : ∀ step, task.step = some step → step.Performs operation) :
    t.Revalidates codec := by
  unfold start at hstart
  cases hr : s.router.startOperation (config codec queueDepth) .foreground operation with
  | none =>
    rw [hr] at hstart
    cases hstart
  | some router =>
    rw [hr] at hstart
    cases hstart
    refine h.of_task rfl ?_ htask
    intro step hstep
    refine ⟨operation,?_,hperforms step hstep⟩
    rw [RxRouter.startOperation_some _ hr,RxRouter.operationState_startOperationInternal,if_pos rfl]

theorem revalidates_transition {operation : StaRxRouterOperation} {step : ConnectionStep}
    (h : s.Revalidates codec)
    (htransition : s.transition codec queueDepth operation step = some t)
    (hperforms : step.Performs operation) : t.Revalidates codec := by
  unfold transition at htransition
  cases hr : s.router.transition (config codec queueDepth) .foreground operation with
  | none =>
    rw [hr] at htransition
    cases htransition
  | some result =>
    obtain ⟨possible,router⟩ := result
    rw [hr] at htransition
    cases possible with
    | false => cases htransition
    | true =>
      cases htransition
      refine h.of_task rfl ?_ (by rintro _ _ ⟨⟩)
      rintro _ ⟨⟩
      exact ⟨operation,(RxRouter.transition_true _ hr).1,hperforms⟩

/-- Routing only appends to the foreground queue. -/
theorem queue_routeFrame (codec : ManagementCodec F) (queueDepth : ℕ) (s : ResponseSystem F)
    (frame : F) :
    let t := s.routeFrame codec queueDepth frame
    t.queue = s.queue ++ t.queue.drop s.queue.length := by
  intro t
  rcases s.router.routeFrame_queue (config codec queueDepth) frame .foreground with h | ⟨h,-⟩
  · change t.queue = s.queue at h
    rw [h,List.drop_length,List.append_nil]
  · change t.queue = s.queue ++ [frame] at h
    rw [h,List.drop_left]

theorem step_arrive (task : ResponseTask F) (arrived : List F) :
    (task.arrive arrived).step = task.step := by
  cases task <;> rfl

theorem arrive_eq_receiving {task : ResponseTask F} {arrived : List F} {step : ConnectionStep}
    {call : ResponseCall F} (h : task.arrive arrived = .receiving step call) :
    ∃ call', task = .receiving step call' ∧
      call = { call' with available := call'.available ++ arrived } := by
  cases task with
  | receiving step' call' =>
    cases h
    exact ⟨call',rfl,rfl⟩
  | idle => cases h
  | scanning => cases h
  | stepping step' => cases h
  | answered step' => cases h

theorem revalidates_routeFrame (h : s.Revalidates codec) (frame : F) :
    (s.routeFrame codec queueDepth frame).Revalidates codec := by
  have hops : (s.routeFrame codec queueDepth frame).router.operationState =
      s.router.operationState := RxRouter.routeFrame_operationState _ frame
  have hqueue := queue_routeFrame codec queueDepth s frame
  refine ⟨?_,?_,h.responses⟩
  · intro step hstep
    rw [hops]
    exact h.operation step ((step_arrive _ _).symm.trans hstep)
  · intro step call htask
    obtain ⟨call',htask',rfl⟩ := arrive_eq_receiving htask
    obtain ⟨hstep,hcall⟩ := h.call step call' htask'
    obtain ⟨dropped,havailable,hreleased,hirrelevant⟩ := hcall.dropped
    refine ⟨hstep,?_,dropped,?_,hreleased,hirrelevant⟩
    · rw [hops]
      exact hcall.operation
    · calc call'.available ++ _ = dropped ++ (s.queue ++ _) := by
            rw [havailable,List.append_assoc]
            rfl
        _ = _ := congrArg (dropped ++ ·) hqueue.symm

/-- Taking a frame leaves the operations alone; from the background it also leaves the
foreground queue alone. -/
theorem revalidates_skip {q : RxRouterQueue} (h : s.Revalidates codec) (hskip : s.skip q = some t)
    (hcall : q = .foreground → ∀ step call, s.task ≠ .receiving step call) :
    t.Revalidates codec := by
  unfold skip at hskip
  cases hr : s.router.receive q with
  | none =>
    rw [hr] at hskip
    cases hskip
  | some result =>
    obtain ⟨frame,router⟩ := result
    rw [hr] at hskip
    cases hskip
    obtain ⟨-,hother,hops,-⟩ := RxRouter.receive_some hr
    refine ⟨?_,?_,h.responses⟩
    · rw [hops]
      exact h.operation
    · intro step call htask
      cases q with
      | foreground => exact absurd htask (hcall rfl step call)
      | background =>
        obtain ⟨hstep,hcorrect⟩ := h.call step call htask
        refine ⟨hstep,?_,?_⟩
        · rw [hops]
          exact hcorrect.operation
        · rw [hother .foreground (by rintro ⟨⟩)]
          exact hcorrect.dropped

/-- A poll drops frames up to the first relevant one; if there is one it is the
response. -/
theorem revalidates_pollReceive {step : ConnectionStep} {call : ResponseCall F}
    (h : s.Revalidates codec) (htask : s.task = .receiving step call) :
    (s.pollReceive codec step call).Revalidates codec := by
  obtain ⟨hstep,hcall⟩ := h.call step call htask
  obtain ⟨operation,hoperation,hperforms⟩ := h.operation step (by rw [htask]; rfl)
  obtain rfl : operation = call.operation :=
    Option.some.inj (hoperation.symm.trans hcall.operation)
  obtain ⟨dropped,havailable,hreleased,hirrelevant⟩ := hcall.dropped
  obtain ⟨hnew,hrest⟩ := receiveConnectionResponse_spec codec call.operation s.queue
  have hops : ∀ queue, (s.setQueue queue).router.operationState = s.router.operationState :=
    fun queue => RxRouter.setQueue_operationState queue
  have hall : ∀ frame ∈ dropped ++ (receiveConnectionResponse codec call.operation s.queue).1,
      codec.relevant call.operation frame = false := by
    intro frame hframe
    rcases List.mem_append.mp hframe with hframe | hframe
    · exact hirrelevant frame hframe
    · exact hnew frame hframe
  rcases hrest with ⟨frame,hfound,hrelevant,hqueue⟩ | ⟨hnone,hnil,hqueue⟩
  · simp only [pollReceive,hfound]
    refine ⟨?_,by rintro _ _ ⟨⟩,?_⟩
    · rintro _ ⟨⟩
      exact ⟨call.operation,(congrFun (hops _) _).trans hoperation,hperforms⟩
    · intro r hr
      rcases List.mem_append.mp hr with hr | hr
      · exact h.responses r hr
      · obtain rfl := List.mem_singleton.mp hr
        refine ⟨⟨_,?_,?_,hall⟩,hrelevant,parsed_of_relevant hstep hperforms hrelevant⟩
        · rw [havailable,List.append_assoc,← hqueue]
          rfl
        · rw [hreleased,List.append_assoc]
  · simp only [pollReceive,hnone]
    refine ⟨?_,?_,h.responses⟩
    · intro step' hstep'
      obtain ⟨operation,ho,hp⟩ := h.operation step' hstep'
      exact ⟨operation,(congrFun (hops _) _).trans ho,hp⟩
    · intro step' call' htask'
      cases htask.symm.trans htask'
      refine ⟨hstep,(congrFun (hops _) _).trans hoperation,_,?_,?_,hall⟩
      · rw [havailable,List.append_assoc]
        refine congrArg (dropped ++ ·) ?_
        have hleft : (s.setQueue (receiveConnectionResponse codec call.operation
            s.queue).2.2).router.queue .foreground = [] := hnil
        change s.queue = _ ++ (s.setQueue _).router.queue .foreground
        rw [hleft,List.append_nil]
        exact hqueue
      · rw [hreleased,List.append_assoc]

theorem revalidates_step (h : s.Revalidates codec) (hs : Step codec queueDepth s op t) :
    t.Revalidates codec := by
  cases op with
  | routeFrame frame =>
    cases hs
    exact revalidates_routeFrame h frame
  | receiveBackground => exact revalidates_skip h hs (by rintro ⟨⟩)
  | startScan =>
    simp only [Step,perform] at hs
    split at hs
    · exact revalidates_start h hs (by rintro _ _ ⟨⟩) (by rintro _ ⟨⟩)
    · cases hs
  | receiveScan =>
    simp only [Step,perform] at hs
    split at hs
    · rename_i htask
      exact revalidates_skip h hs (fun _ _ _ => by rw [htask]; rintro ⟨⟩)
    · cases hs
  | endScan =>
    simp only [Step,perform] at hs
    split at hs
    · cases hs
      exact h.of_task rfl (by rintro _ ⟨⟩) (by rintro _ _ ⟨⟩)
    · cases hs
  | startConnect ownAddress =>
    simp only [Step,perform] at hs
    split at hs
    · refine revalidates_start h hs (by rintro _ _ ⟨⟩) ?_
      rintro _ ⟨⟩
      exact ⟨ownAddress,rfl⟩
    · cases hs
  | callReceive =>
    simp only [Step,perform] at hs
    split at hs
    · cases hs
    · rename_i step operation hne htask hoperation
      cases hs
      have hstep : step ≠ .handshake := fun heq => hne heq
      refine ⟨?_,?_,h.responses⟩
      · rintro _ ⟨⟩
        exact h.operation step (by rw [htask]; rfl)
      · rintro _ _ ⟨⟩
        exact ⟨hstep,hoperation,[],rfl,(List.append_nil _).symm,by rintro _ ⟨⟩⟩
    · cases hs
  | pollReceive =>
    simp only [Step,perform] at hs
    split at hs
    · rename_i htask
      cases hs
      exact revalidates_pollReceive h htask
    · cases hs
  | timeout =>
    simp only [Step,perform] at hs
    split at hs
    · rename_i htask
      cases hs
      refine h.of_task rfl ?_ (by rintro _ _ ⟨⟩)
      rintro _ ⟨⟩
      exact h.operation _ (by rw [htask]; rfl)
    · cases hs
  | nextStep =>
    simp only [Step,perform] at hs
    split at hs
    · exact revalidates_transition h hs ⟨_,rfl⟩
    · exact revalidates_transition h hs ⟨_,rfl⟩
    · cases hs
  | receiveHandshake =>
    simp only [Step,perform] at hs
    split at hs
    · rename_i htask
      exact revalidates_skip h hs (fun _ _ _ => by rw [htask]; rintro ⟨⟩)
    · cases hs
  | finishConnect =>
    simp only [Step,perform] at hs
    split at hs
    · cases hs
      exact h.of_task rfl (by rintro _ ⟨⟩) (by rintro _ _ ⟨⟩)
    · cases hs

theorem revalidates_new (router : RxRouter F StaRxRouterOperation) :
    (new router).Revalidates codec :=
  ⟨by rintro _ ⟨⟩,by rintro _ _ ⟨⟩,by rintro _ ⟨⟩⟩

/-- A poll with a relevant frame in the queue returns, and leaves the frames behind it. -/
theorem pollReceive_returns {step : ConnectionStep} {call : ResponseCall F} {frame : F}
    (hmem : frame ∈ s.queue) (hrelevant : codec.relevant call.operation frame = true) :
    ∃ r, (s.pollReceive codec step call).task = .answered step ∧
      (s.pollReceive codec step call).responses = s.responses ++ [r] ∧
      r.toResponseCall = call ∧ (s.pollReceive codec step call).queue = r.remaining ∧
      (s.pollReceive codec step call).released = r.releasedAfter := by
  obtain ⟨hnew,hrest⟩ := receiveConnectionResponse_spec codec call.operation s.queue
  rcases hrest with ⟨found,hfound,-,-⟩ | ⟨-,-,hqueue⟩
  · simp only [pollReceive,hfound]
    exact ⟨_,trivial,rfl,rfl,rfl,rfl⟩
  · rw [hqueue] at hmem
    cases (hnew frame hmem).symm.trans hrelevant

/-- In every run, with any frames in the router at its start: each response is the first
frame for the operation of its step, queued or arriving, the frames before it are released
once and those behind it stay; a call under way has released the frames before the queue and
returns at the next poll if the queue has a frame for it. -/
theorem connection_response_revalidated (codec : ManagementCodec F) (queueDepth : ℕ)
    (router : RxRouter F StaRxRouterOperation) (ops : List (ResponseOp F)) (t : ResponseSystem F)
    (hr : Runs (Step codec queueDepth) (new router) ops t) :
    (∀ r ∈ t.responses, r.Correct codec) ∧
    ∀ step call, t.task = .receiving step call → call.Correct codec t ∧
      ∀ frame ∈ t.queue, codec.relevant call.operation frame = true →
        ∃ u r, Step codec queueDepth t .pollReceive u ∧ u.task = .answered step ∧
          u.responses = t.responses ++ [r] ∧ r.toResponseCall = call ∧ r.Correct codec ∧
          u.queue = r.remaining ∧ u.released = r.releasedAfter := by
  have h : t.Revalidates codec := hr.invariant (fun _ _ _ => revalidates_step)
    (revalidates_new router)
  refine ⟨h.responses,?_⟩
  intro step call htask
  refine ⟨(h.call step call htask).2,?_⟩
  intro frame hmem hrelevant
  have hstep : Step codec queueDepth t .pollReceive (t.pollReceive codec step call) := by
    simp only [Step,perform,htask]
  obtain ⟨r,hanswered,hresponses,hcall,hqueue,hreleased⟩ := pollReceive_returns hmem hrelevant
  refine ⟨_,r,hstep,hanswered,hresponses,hcall,?_,hqueue,hreleased⟩
  refine (revalidates_step h hstep).responses r ?_
  rw [hresponses]
  exact List.mem_append_right _ (List.mem_singleton_self r)

/-- A duplicate of the authentication response waits when the association response
arrives. -/
theorem connection_response_behind_duplicate : ∃ t : ResponseSystem GenericFrame,
    Runs (Step headerCodec 4) (new .new)
      [.startConnect (fun _ => 2),.routeFrame (managementFrame .authentication),
        .routeFrame (managementFrame .authentication),.callReceive,.pollReceive,.nextStep,
        .routeFrame (managementFrame .associationResponse),.callReceive,.pollReceive] t ∧
      t.responses.map ConnectionResponse.frame =
        [managementFrame .authentication,managementFrame .associationResponse] ∧
      t.released = [managementFrame .authentication] ∧ ∀ r ∈ t.responses, r.Correct headerCodec :=
  Runs.exists_of_execute (fun _ _ _ h => h)
    (fun t => t.responses.map ConnectionResponse.frame =
        [managementFrame .authentication,managementFrame .associationResponse] ∧
      t.released = [managementFrame .authentication]) (by decide)
    (fun t hr h => ⟨h.1,h.2,(connection_response_revalidated headerCodec 4 .new _ t hr).1⟩)

end ResponseSystem

end FerrisOnAir.Sta

import FerrisOnAir.Foundation.Unwinding
import FerrisOnAir.Sta.CryptoLifetime
import FerrisOnAir.Sta.RxRouter
import FerrisOnAir.Tx.System

/-! # An attempt to connect, await by await

`foa_sta/src/operations/connect.rs`. The future of `connect` owns guards: itself, the
bringup operation, the router operation, up to five key slots, transmit buffers and a
pending transmission. They are dropped where the future is dropped and where it returns.
Between two awaits the other tasks of the station, the other interfaces and the other
users of the router, the transmit queues and the key slots take their steps. What the
frames of the access point say, and when the off channel operation completes, is part of
the label. An await that is ready at once is one that nothing comes before.
-/
namespace FerrisOnAir.Sta
open Lmac Rsn Util Tx
variable {n N : ℕ} {F C P E : Type*}

/-- The errors of `connect` after its bringup operation has begun. -/
inductive StaError
  | noKeySlotsAvailable
  | invalidPskLength
  | responseTimeout
  | frameDeserializationFailed
  | authenticationFailure (status : ℕ)
  | invalidBss
  | associationFailure (status : ℕ)
  | ackTimeout
  | txCompletionLost
deriving DecidableEq

inductive AttemptResult
  | connected
  | failed (error : StaError)
  | cancelled
deriving DecidableEq

/-- The uses of `do_bidirectional_connection_step`. -/
inductive Exchange
  | authentication
  | association
deriving DecidableEq

/-- What the response of the access point parses to. -/
inductive ResponseOutcome
  | malformed
  | refused (status : ℕ)
  | accepted
deriving DecidableEq

def Exchange.refusal (status : ℕ) : Exchange → StaError
  | authentication => .authenticationFailure status
  | association => .associationFailure status

/-- The frames of `do_4whs`; message 2 is repeated while the scratch buffer is held. -/
inductive EapolMessage (N : ℕ)
  | message2
  | message2Again (scratch : Fin N)
  | message4
deriving DecidableEq

/-- Where the future of `connect` is suspended. -/
inductive ConnectAwait (N : ℕ)
  | join (started completed : Bool)
  | requestBuffer (exchange : Exchange)
  | requestCompletion (exchange : Exchange) (retries frameLength g : ℕ)
  | response (exchange : Exchange) (retries frameLength : ℕ) (frame : Fin N)
  | message1
  | eapolBuffer (message : EapolMessage N)
  | eapolCompletion (message : EapolMessage N) (g : ℕ)
  | scratchBuffer
  | message3 (scratch : Fin N)
deriving DecidableEq

/-- The values of `connect` whose drop has an effect. -/
inductive ScopeGuard (N : ℕ)
  | connectionOperation
  | bringupOperation
  | startOperation
  | routerOperation
  | keySlot (i : ℕ)
  | txBuffer (i : Fin N)
  | pendingTransmission (g : ℕ)
deriving DecidableEq

def EapolMessage.guards : EapolMessage N → List (ScopeGuard N)
  | message2Again scratch => [.txBuffer scratch]
  | _ => []

namespace ConnectAwait

/-- The guards of the functions called by `run`. -/
def guards : ConnectAwait N → List (ScopeGuard N)
  | requestCompletion _ _ _ g => [.pendingTransmission g]
  | response _ _ _ frame => [.txBuffer frame]
  | eapolBuffer message => message.guards
  | eapolCompletion message g => message.guards ++ [.pendingTransmission g]
  | message3 scratch => [.txBuffer scratch]
  | _ => []

/-- The pending transmission it waits for. -/
def handle : ConnectAwait N → Option ℕ
  | requestCompletion _ _ _ g => some g
  | eapolCompletion _ g => some g
  | _ => none

end ConnectAwait

/-- The buffers among some guards. -/
def guardBuffers : List (ScopeGuard N) → Multiset (Fin N)
  | [] => 0
  | .txBuffer i :: guards => {i} + guardBuffers guards
  | _ :: guards => guardBuffers guards

/-- The station, the parser of its router and the queue of the default access category. -/
structure ConnectConfig (n : ℕ) (F : Type*) extends StaConfig n F where
  genericFrame : F → Option GenericFrame
  queueDepth : ℕ
  accessCategory : Fin 4

def ConnectConfig.router (k : ConnectConfig n F) :
    RxRouterConfig F GenericFrame StaRxRouterOperation := staRouter k.genericFrame k.queueDepth

/-- The station with what its attempts use. `others` are the transmit buffers held by other
tasks and `otherSlots` the key slots of other owners. Of the last attempt that began,
`acquired` are the key slots it has acquired, `cryptoBefore` is the crypto state it found
and `result` how it ended. -/
structure ConnectSystem (n N : ℕ) (F C P E : Type*) where
  sta : StaSystem n
  router : RouterSystem F StaRxRouterOperation
  tx : TxSystem N C P E
  hardwareKeys : ℕ → Bool
  handshakeRetries : ℕ
  task : Option (ConnectAwait N)
  others : Multiset (Fin N)
  otherSlots : List ℕ
  acquired : List ℕ
  cryptoBefore : Option CryptoState
  result : Option AttemptResult

/-- What lets the future of `connect` go on. -/
inductive ConnectEvent (C P : Type*)
  | join (offChannelCompleted pskValid : Bool)
  | buffer (frame : Option (C × ℕ)) (parameters : P)
  | completion (waker : Waker) (handshake : Handshake)
  | response (reply : ResponseOutcome) (handshake : Handshake)
  | timeout (parameters : P)
  | message1
  | message1Retry
  | message3
  | discard

inductive ConnectOp (n N : ℕ) (F C P E : Type*)
  | connect (attempt : Attempt) (handshakeRetries : ℕ)
  | poll (event : ConnectEvent C P)
  | cancel
  | sta (op : StaOp n F)
  | router (op : RouterOp F StaRxRouterOperation)
  | tx (op : TxOp N C P E)
  | otherAcquire
  | otherSetKey (i : ℕ)
  | otherRelease (i : ℕ)

def ControlTask.isIdle : ControlTask → Bool
  | .idle => true
  | _ => false

namespace ConnectSystem
variable [Zero C] [NeZero N] (k : ConnectConfig n F) (s : ConnectSystem n N F C P E)

/-- The station after `foa::init`. -/
def new (channel : ℕ) : ConnectSystem n N F C P E where
  sta := .new channel
  router := .new
  tx := .new
  hardwareKeys _ := false
  handshakeRetries := 0
  task := none
  others := 0
  otherSlots := []
  acquired := []
  cryptoBefore := none
  result := none

/-- A drop is never refused. -/
def txDrop (op : TxOp N C P E) : ConnectSystem n N F C P E :=
  match s.tx.step op with
  | .ok tx => { s with tx := tx }
  | .error _ => s

/-- The `Drop` implementations. A start that is dropped while it waits only gives its
endpoint back; dropping a key slot deletes its key and frees it. -/
def drop : ScopeGuard N → ConnectSystem n N F C P E
  | .connectionOperation => { s with sta := s.sta.clearFilters }
  | .bringupOperation => { s with sta := { s.sta with
      channelState := s.sta.channelState.unlockChannel k.interface } }
  | .startOperation => { s with router := { s.router with
      endpoints := Function.update s.router.endpoints .foreground .idle } }
  | .routerOperation => { s with router := { s.router with
      router := s.router.router.dropOperation .foreground
      endpoints := Function.update s.router.endpoints .foreground .idle } }
  | .keySlot i => { s with
      sta := { s.sta with keySlots := s.sta.keySlots.releaseKeySlot i }
      hardwareKeys := Function.update s.hardwareKeys i false }
  | .txBuffer i => s.txDrop (.dropBuffer i)
  | .pendingTransmission g => s.txDrop (.queue k.accessCategory (.dropHandle g))

/-- The guards of `run` behind its `join`. -/
def runGuards : List (ScopeGuard N) :=
  [.connectionOperation,.bringupOperation,.routerOperation] ++ s.sta.attemptSlots.map .keySlot

/-- Everything that is dropped with a suspended future. -/
def guards : ConnectAwait N → List (ScopeGuard N)
  | .join started _ => [.connectionOperation,.bringupOperation,
      if started then .routerOperation else .startOperation]
  | a => s.runGuards ++ a.guards

/-- The future ends and its guards are dropped. -/
def leave (result : AttemptResult) (guards : List (ScopeGuard N)) : ConnectSystem n N F C P E :=
  let t := unwind (drop k) s guards
  { t with sta := { t.sta with control := .idle }, task := none, result := some result }

/-- Returns an error from `run`, or from a function it calls with guards of its own. -/
def fail (error : StaError) (inner : List (ScopeGuard N)) : ConnectSystem n N F C P E :=
  s.leave k (.failed error) (s.runGuards ++ inner)

def txStep (op : TxOp N C P E) : Option (ConnectSystem n N F C P E) :=
  (s.tx.step op).toOption.map (fun tx => { s with tx := tx })

/-- `alloc_tx_buf`, once a buffer is free. -/
def allocTxBuf : Option (Fin N × ConnectSystem n N F C P E) :=
  match s.tx.manager.tryAlloc with
  | none => none
  | some (b,_) => (s.txStep .tryAlloc).map (fun t => (b.buffer,t))

/-- `transmit_edca` and the generation of the handle it returns. -/
def transmitEdca (i : Fin N) (frameLength : ℕ) (parameters : P) :
    Option (ℕ × ConnectSystem n N F C P E) :=
  (s.txStep (.transmitEdca k.accessCategory i frameLength parameters k.interface
    (.retryUntil 7))).map (fun t => ((s.tx.queues k.accessCategory).queue.counter,t))

/-- Takes a buffer, writes a frame into it and enqueues it. -/
def sendFrame (frame : C × ℕ) (parameters : P) : Option (ℕ × ConnectSystem n N F C P E) :=
  s.allocTxBuf.bind (fun r =>
    (r.2.txStep (.write r.1 frame.1)).bind (fun t => t.transmitEdca k r.1 frame.2 parameters))

/-- A poll of `wait_for_completion`. A future that is ready is dropped with its handle. -/
def pollCompletion (g : ℕ) (waker : Waker) :
    Option (Poll (Option (TxReturnData N C E)) × ConnectSystem n N F C P E) :=
  (s.txStep (.queue k.accessCategory (.waitForCompletion g waker))).map (fun t =>
    match ((s.tx.queues k.accessCategory).queue.waitForCompletion g waker).1 with
    | .pending => (.pending,t)
    | .ready r => (.ready r,t.drop k (.pendingTransmission g)))

/-- A frame from the foreground queue. -/
def receive : Option (ConnectSystem n N F C P E) :=
  (s.router.step k.router (.receive .foreground)).map (fun router => { s with router := router })

/-- The first frame of the foreground queue belongs to the active operation, which
`receive_connection_response` checks again. -/
def responseRelevant : Bool :=
  match s.router.router.queue .foreground,s.router.router.operationState .foreground with
  | frame :: _,some operation =>
    (k.genericFrame frame).any (fun g => operation.frameRelevantForOperation g)
  | _,_ => false

/-- `transition` with its `expect`. -/
def transition (operation : StaRxRouterOperation) : Option (ConnectSystem n N F C P E) :=
  match s.router.router.transition k.router .foreground operation with
  | some (true,_) => (s.router.step k.router (.transition .foreground operation)).map
      (fun router => { s with router := router })
  | _ => none

def await (a : ConnectAwait N) : ConnectSystem n N F C P E := { s with task := some a }

/-- An attempt whose bringup operation has begun polls the start of its router operation. -/
def begin : Option (ConnectSystem n N F C P E) :=
  match s.task,s.sta.control with
  | none,.starting _ =>
    (s.router.step k.router (.startOperation .foreground (.authenticating k.ownAddress))).map
      (fun router => { s with
        router := router
        task := some (.join (decide (router.endpoints .foreground = .scoped)) false)
        acquired := []
        cryptoBefore := s.sta.cryptoState
        result := none })
  | _,_ => some s

def configureRxFilters (attempt : Attempt) (slots : Option KeySlots) :
    ConnectSystem n N F C P E :=
  { s with sta := s.sta.configureRxFilters k.toStaConfig attempt slots }.await
    (.requestBuffer .authentication)

/-- From the end of the `join` to the buffer of the authentication frame. The five key slots
are all asked for before the PSK is checked. -/
def startOperation (pskValid : Bool) : Option (ConnectSystem n N F C P E) :=
  match s.sta.control with
  | .starting attempt =>
    if attempt.bss.securityConfig ≠ .openNetwork ∧ attempt.credentials = true then
      let r := s.sta.keySlots.acquireEach k.keySlotCount 5
      let t := { s with sta := { s.sta with keySlots := r.2 }, acquired := r.1 }
      if pskValid then
        match s.sta.keySlots.acquireKeySlots k.keySlotCount 5 with
        | none => some (t.fail k .noKeySlotsAvailable (r.1.map .keySlot))
        | some a => some (t.configureRxFilters k attempt (some (keySlotsOf a)))
      else some (t.fail k .invalidPskLength (r.1.map .keySlot))
    else some (s.configureRxFilters k attempt none)
  | _ => none

/-- A poll of the `join`, which polls both of its futures until each is done. -/
def pollJoin (started completed offChannelCompleted pskValid : Bool) :
    Option (ConnectSystem n N F C P E) :=
  (if started then some s.router else s.router.step k.router (.pollStart .foreground)).bind
    (fun router =>
      let started' := decide (router.endpoints .foreground = .scoped)
      let completed' := completed || offChannelCompleted
      let t := { s with router := router }.await (.join started' completed')
      if started' && completed' then t.startOperation k pskValid else some t)

/-- The keys in hardware after `CryptoState::new` and the drop of the old crypto state. -/
def programmedKeys (slots : Option KeySlots) (bssid : Bytes 6) (h : Handshake) : ℕ → Bool :=
  match slots with
  | none => s.hardwareKeys
  | some slots =>
    match CryptoState.new slots bssid (.established h.ptk h.gtk h.gtkId) h.message3Replay with
    | .error _ => s.hardwareKeys
    | .ok (_,commands) => fun i =>
      (commands.any (fun c => decide (c.keySlot = i)) || s.hardwareKeys i) &&
        !decide (i ∈ s.sta.cryptoSlots)

/-- The end of `run`: `self` and the bringup operation are forgotten, the router operation
is dropped. -/
def finish (handshake : Handshake) : Option (ConnectSystem n N F C P E) :=
  match s.sta.control with
  | .handshaking attempt slots =>
    match s.sta.finishConnect k.toStaConfig attempt slots handshake with
    | .error _ => none
    | .ok sta => some { { s with
        sta := sta
        hardwareKeys := s.programmedKeys slots attempt.bss.bssid handshake }.drop k
          .routerOperation with
      task := none
      result := some .connected }
  | _ => none

/-- Behind a successful response. -/
def proceed (handshake : Handshake) : Exchange → Option (ConnectSystem n N F C P E)
  | .authentication => (s.transition k (.associating k.ownAddress)).map
      (fun t => t.await (.requestBuffer .association))
  | .association =>
    match s.sta.control with
    | .handshaking _ none => s.finish k handshake
    | .handshaking _ (some _) => (s.transition k (.cryptoHandshake k.ownAddress)).map
        (fun t => t.await .message1)
    | _ => none

/-- Behind an acknowledged EAPOL frame. -/
def proceedHandshake (handshake : Handshake) : EapolMessage N → Option (ConnectSystem n N F C P E)
  | .message2 => some (s.await .scratchBuffer)
  | .message2Again scratch => some (s.await (.message3 scratch))
  | .message4 => s.finish k handshake

/-- One poll of the suspended future. -/
def resume : ConnectAwait N → ConnectEvent C P → Option (ConnectSystem n N F C P E)
  | .join started completed,.join offChannelCompleted pskValid =>
    s.pollJoin k started completed offChannelCompleted pskValid
  | .requestBuffer e,.buffer (some frame) p => (s.sendFrame k frame p).map
      (fun r => r.2.await (.requestCompletion e s.handshakeRetries frame.2 r.1))
  -- The SSID does not fit its element.
  | .requestBuffer .association,.buffer none _ => s.allocTxBuf.map
      (fun r => r.2.fail k .invalidBss [.txBuffer r.1])
  | .requestCompletion e retries length g,.completion waker _ => (s.pollCompletion k g waker).map
      (fun r => match r.1 with
        | .pending => r.2
        | .ready none => r.2.fail k .responseTimeout []
        | .ready (some data) => r.2.await (.response e retries length data.frame.buffer))
  | .response e _ _ i,.response reply handshake =>
    if s.responseRelevant k then (s.receive k).bind (fun t =>
      let t := t.drop k (.txBuffer i)
      match reply with
      | .malformed => some (t.fail k .frameDeserializationFailed [])
      | .refused status => some (t.fail k (e.refusal status) [])
      | .accepted => t.proceed k handshake e)
    else none
  | .response _ _ _ _,.discard => if s.responseRelevant k then none else s.receive k
  | .response _ 0 _ i,.timeout _ => some (s.fail k .responseTimeout [.txBuffer i])
  | .response e (retries + 1) length i,.timeout p => (s.transmitEdca k i length p).map
      (fun r => r.2.await (.requestCompletion e retries length r.1))
  | .message1,.message1 => (s.receive k).map (fun t => t.await (.eapolBuffer .message2))
  | .message1,.discard => s.receive k
  | .eapolBuffer m,.buffer (some frame) p => (s.sendFrame k frame p).map
      (fun r => r.2.await (.eapolCompletion m r.1))
  | .eapolCompletion m g,.completion waker handshake => (s.pollCompletion k g waker).bind
      (fun r => match r.1 with
        | .pending => some r.2
        | .ready none => some (r.2.fail k .txCompletionLost m.guards)
        | .ready (some data) =>
          let t := r.2.drop k (.txBuffer data.frame.buffer)
          match data.result with
          | .ok _ => t.proceedHandshake k handshake m
          | .error _ => some (t.fail k .ackTimeout m.guards))
  | .scratchBuffer,.buffer none _ => s.allocTxBuf.map (fun r => r.2.await (.message3 r.1))
  | .message3 scratch,.message1Retry => (s.receive k).map
      (fun t => t.await (.eapolBuffer (.message2Again scratch)))
  | .message3 scratch,.message3 => (s.receive k).map
      (fun t => (t.drop k (.txBuffer scratch)).await (.eapolBuffer .message4))
  | .message3 _,.discard => s.receive k
  | _,_ => none

/-- An operation of `StaSystem` by anybody else, and by `StaControl` between attempts. -/
def staStep (op : StaOp n F) : Option (ConnectSystem n N F C P E) :=
  (s.sta.step k.toStaConfig op).bind (fun sta => { s with sta := sta }.begin k)

/-- Operations that are not part of an attempt modelled here. -/
def outsideAttempt : StaOp n F → Bool
  | .connect _ => false
  | .startOperation _ => false
  | .finishConnect _ => false
  | .failConnect => s.task.isNone
  | _ => true

/-- Other tasks use their own buffers and handles. -/
def othersMay (op : TxOp N C P E) : Bool :=
  op.buffer.all (fun i => decide (i ∈ s.others)) &&
    op.handle.all (fun h => !decide (h.1 = k.accessCategory ∧
      s.task.bind ConnectAwait.handle = some h.2))

def step : ConnectOp n N F C P E → Option (ConnectSystem n N F C P E)
  | .connect attempt handshakeRetries =>
    if s.router.endpoints .foreground = .idle then
      { s with handshakeRetries := handshakeRetries }.staStep k (.connect attempt)
    else none
  | .poll event => s.task.bind (fun a => s.resume k a event)
  | .cancel => s.task.map (fun a => s.leave k .cancelled (s.guards a))
  | .sta op => if s.outsideAttempt op then s.staStep k op else none
  | .router op =>
    if op.endpoint = some .foreground && !s.sta.control.isIdle then none
    else (s.router.step k.router op).map (fun router => { s with router := router })
  | .tx op =>
    if s.othersMay k op then (s.tx.step op).toOption.map (fun tx => { s with
      tx := tx
      others := s.others + bufferIds tx.held - bufferIds s.tx.held })
    else none
  | .otherAcquire => (s.sta.keySlots.acquireKeySlot k.keySlotCount).map (fun r => { s with
      sta := { s.sta with keySlots := r.2 }
      otherSlots := r.1 :: s.otherSlots })
  | .otherSetKey i =>
    if i ∈ s.otherSlots ∨ i ∈ s.sta.cryptoSlots then
      some { s with hardwareKeys := Function.update s.hardwareKeys i true }
    else none
  | .otherRelease i =>
    if i ∈ s.otherSlots then some { s with
      sta := { s.sta with keySlots := s.sta.keySlots.releaseKeySlot i }
      hardwareKeys := Function.update s.hardwareKeys i false
      otherSlots := s.otherSlots.erase i }
    else none

def Step (s : ConnectSystem n N F C P E) (op : ConnectOp n N F C P E)
    (t : ConnectSystem n N F C P E) : Prop := s.step k op = some t

end ConnectSystem
end FerrisOnAir.Sta

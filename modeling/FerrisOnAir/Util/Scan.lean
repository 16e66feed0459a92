import FerrisOnAir.Foundation.Unwinding
import FerrisOnAir.Lmac.OffChannel
import FerrisOnAir.Util.RxRouter

/-! # Scanning

`foa/src/util/operations/scan.rs`, from one await to the next. A step of the scan is what
the future does until it awaits again, with the callback's reply to a beacon as part of the
label; in between the other tasks do what they like to the shared state, except that the
operation of a borrowed endpoint is not theirs. The time a channel is listened to is not
modelled: a timeout may come at any time.
-/
namespace FerrisOnAir.Util
open Lmac
variable {n : ℕ} {F G O R : Type*}

/-- The modes a scan sets. -/
inductive ScanningMode
  | disabled
  | beaconsOnly
deriving DecidableEq

inductive ScanStrategy
  | single (channel : ℕ)
  | currentChannel
  | linear
  | nonOverlappingFirst
  | custom (channels : List ℕ)

def ScanStrategy.channels (getChannel : ℕ) : ScanStrategy → List ℕ
  | single channel => [channel]
  | currentChannel => [getChannel]
  | linear => [1,2,3,4,5,6,7,8,9,10,11,12,13]
  | nonOverlappingFirst => [1,6,11,2,7,12,3,8,13,4,9,5,10]
  | custom channels => channels

inductive PostChannelScanAction (R : Type*)
  | continueScan
  | stop (res : R)
deriving DecidableEq

/-- A call of the callback: the channel it was made on, the reply, and how many channels had
been tuned to. -/
structure ScanCall (R : Type*) where
  channel : ℕ
  action : PostChannelScanAction R
  tuned : ℕ
deriving DecidableEq

/-- Where the future is suspended, or how it ended. A continuous scan over no channels
neither ends nor awaits. -/
inductive ScanPhase (n : ℕ) (R : Type*)
  | beginning
  | starting (operation : OffChannelOperation n)
  | onChannel (operation : OffChannelOperation n) (channel : ℕ) (rest : List ℕ)
  | spinning
  | returned (result : Except LMacError (Option R))
  | cancelled

/-- The shared state, the locals of `scan`, and what it has done so far. -/
structure ScanSystem (n : ℕ) (F O R : Type*) where
  channelState : ChannelState n
  scanningMode : ScanningMode
  router : RxRouter F O
  phase : ScanPhase n R
  channels : List ℕ
  res : Option R
  calls : List (ScanCall R)
  tuned : List ℕ

/-- The arguments of one call of `scan` and the channels the driver accepts. -/
structure Scan (n : ℕ) (F G O : Type*) where
  valid : ℕ → Bool
  interface : Fin n
  endpoint : RxRouterQueue
  routerConfig : RxRouterConfig F G O
  scanOperation : O
  isBeacon : F → Bool
  strategy : Option ScanStrategy
  continuous : Bool

/-- What a scope of `scan` owns, in the order of declaration. -/
inductive ScanGuard (n : ℕ)
  | offChannelOperation (operation : OffChannelOperation n)
  | routerOperation

inductive ScanOp (n : ℕ) (F O R : Type*)
  | beginOperation
  | beginFailed (alreadyInProgress : Bool)
  | pollStart
  | receive (action : PostChannelScanAction R)
  | timeout
  | cancel
  | routeFrame (frame : F)
  | others (channelState : ChannelState n) (scanningMode : ScanningMode) (router : RxRouter F O)

def ScanPhase.guards : ScanPhase n R → List (ScanGuard n)
  | starting o => [.offChannelOperation o]
  | onChannel o _ _ => [.offChannelOperation o,.routerOperation]
  | _ => []

def ScanPhase.suspended : ScanPhase n R → Bool
  | beginning => true
  | starting _ => true
  | onChannel _ _ _ => true
  | _ => false

namespace Scan
variable (scan : Scan n F G O) (s : ScanSystem n F O R)

/-- The channel an off channel operation is dropped to. -/
def restore (channelState : ChannelState n) (o : OffChannelOperation n) : ChannelState n :=
  match channelState.homeChannel.or o.previouslyLockedChannel with
  | some channel => (channelState.setChannel scan.valid channel).2
  | none => channelState

/-- `Drop` of the two guards. -/
def drop (s : ScanSystem n F O R) : ScanGuard n → ScanSystem n F O R
  | .offChannelOperation o => { s with
      channelState := { scan.restore s.channelState o with offChannelOperationInterface := none }
      scanningMode := .disabled }
  | .routerOperation => { s with router := s.router.dropOperation scan.endpoint }

/-- The end of the function, by `?` or at its last line. -/
def leave (o : OffChannelOperation n) (result : Except LMacError (Option R)) :
    ScanSystem n F O R :=
  { unwind scan.drop s [.offChannelOperation o,.routerOperation] with phase := .returned result }

/-- The head of the `for` loop up to the await in `scan_on_channel`. -/
def tune (o : OffChannelOperation n) (channel : ℕ) (rest : List ℕ) : ScanSystem n F O R :=
  match s.channelState.setChannel scan.valid channel with
  | (.ok _,channelState) => { s with
      channelState := channelState
      phase := .onChannel o channel rest
      tuned := s.tuned ++ [channel] }
  | (.error e,channelState) => scan.leave { s with channelState := channelState } o (.error e)

/-- Behind the `for` loop, whether it ran out of channels or was left by `break`. -/
def endSweep (o : OffChannelOperation n) : ScanSystem n F O R :=
  if scan.continuous then
    match s.channels with
    | [] => { s with phase := .spinning }
    | channel :: rest => scan.tune s o channel rest
  else scan.leave s o (.ok s.res)

def nextChannel (o : OffChannelOperation n) : List ℕ → ScanSystem n F O R
  | [] => scan.endSweep s o
  | channel :: rest => scan.tune s o channel rest

/-- Once the router operation is started. -/
def enter (o : OffChannelOperation n) (router : RxRouter F O) : ScanSystem n F O R :=
  scan.nextChannel { s with router := router, scanningMode := .beaconsOnly } o s.channels

/-- The operation of the scan and the state in which it starts the router operation. -/
def beginOperation : OffChannelOperation n × ScanSystem n F O R :=
  (⟨scan.interface,s.channelState.homeChannel⟩,{ s with
    channelState := { s.channelState with offChannelOperationInterface := some scan.interface }
    channels := (scan.strategy.getD .nonOverlappingFirst).channels s.channelState.channel })

/-- The body of `scan_on_channel` with the reply of the callback, if it is called. -/
def receive (o : OffChannelOperation n) (channel : ℕ) (action : PostChannelScanAction R)
    (frame : F) : ScanSystem n F O R :=
  if scan.isBeacon frame then
    let called := { s with calls := s.calls ++ [⟨channel,action,s.tuned.length⟩] }
    match action with
    | .continueScan => called
    | .stop res => scan.endSweep { called with res := some res } o
  else s

def step : ScanOp n F O R → Option (ScanSystem n F O R)
  | .beginOperation =>
    match s.phase with
    | .beginning =>
      let (o,begun) := scan.beginOperation s
      match s.router.startOperation scan.routerConfig scan.endpoint scan.scanOperation with
      | some router => some (scan.enter begun o router)
      | none => some { begun with phase := .starting o }
    | _ => none
  | .beginFailed alreadyInProgress =>
    match s.phase with
    | .beginning => some { s with phase := .returned (.error
        (if alreadyInProgress then .offChannelOperationAlreadyInProgress
        else .offChannelRequestRejected)) }
    | _ => none
  | .pollStart =>
    match s.phase with
    | .starting o => (s.router.pollStart scan.endpoint scan.scanOperation).map (scan.enter s o)
    | _ => none
  | .receive action =>
    match s.phase with
    | .onChannel o channel _ => (s.router.receive scan.endpoint).map (fun x =>
        scan.receive { s with router := x.2 } o channel action x.1)
    | _ => none
  | .timeout =>
    match s.phase with
    | .onChannel o _ rest => some (scan.nextChannel s o rest)
    | _ => none
  | .cancel =>
    if s.phase.suspended then
      some { unwind scan.drop s s.phase.guards with phase := .cancelled }
    else none
  | .routeFrame frame =>
    if s.phase.suspended then
      some { s with router := (s.router.routeFrame scan.routerConfig frame).2 }
    else none
  | .others channelState scanningMode router =>
    if s.phase.suspended then
      some { s with
        channelState := channelState
        scanningMode := scanningMode
        router := router.setOperationState scan.endpoint (s.router.operationState scan.endpoint) }
    else none

def Step (s : ScanSystem n F O R) (op : ScanOp n F O R) (t : ScanSystem n F O R) : Prop :=
  scan.step s op = some t

/-- The state in which the future is created: its endpoint is borrowed, so no operation of
that endpoint is alive. -/
def new (channelState : ChannelState n) (scanningMode : ScanningMode) (router : RxRouter F O) :
    ScanSystem n F O R :=
  ⟨channelState,scanningMode,router.setOperationState scan.endpoint none,.beginning,[],none,[],[]⟩

/-! ## What is asked of it -/

/-- The exits the guards have to answer for. An off channel operation that was refused never
began. -/
def Exited : ScanPhase n R → Prop
  | .returned (.ok _) => True
  | .returned (.error e) => e = .invalidChannel
  | .cancelled => True
  | _ => False

structure Clean (s : ScanSystem n F O R) : Prop where
  ended : s.router.operationState scan.endpoint = none
  disabled : s.scanningMode = .disabled
  home : ∀ channel, s.channelState.homeChannel = some channel → s.channelState.channel = channel

/-- The scan stops when told to, a single sweep goes through the channels in order, and
nothing is left behind. -/
structure Correct (s : ScanSystem n F O R) : Prop where
  onlyLast : ∀ call ∈ s.calls.dropLast, call.action = .continueScan
  stopped : ∀ call res, s.calls.getLast? = some call → call.action = .stop res →
    s.phase = .returned (.ok (some res)) ∧ s.tuned.length = call.tuned
  once : scan.continuous = false → s.tuned <+: s.channels ∧
    (s.phase = .returned (.ok none) → s.tuned = s.channels)
  clean : Exited s.phase → scan.Clean s

/-- The callback replies `Stop` to a beacon at the head of the queue. -/
def Stops (s : ScanSystem n F O R) (op : ScanOp n F O R) : Prop :=
  (∃ res, op = .receive (.stop res)) ∧
    ∃ x, s.router.receive scan.endpoint = some x ∧ scan.isBeacon x.1 = true

/-- The driver accepts the channel that is locked, or is on it already. -/
def Restorable (channelState : ChannelState n) : Prop :=
  ∀ channel, channelState.homeChannel = some channel →
    scan.valid channel = true ∨ channelState.channel = channel

/-- Cancelled while it waits for its off channel operation, a scan has nothing to restore. -/
def Settled (s : ScanSystem n F O R) (op : ScanOp n F O R) : Prop :=
  match s.phase,op with
  | .beginning,.cancel => scan.Clean s
  | _,_ => scan.Restorable s.channelState

/-- Only a scan that is not continuous is told to stop, and a scan ends only where the
channel that is locked can be restored. -/
def Obeys (s : ScanSystem n F O R) (op : ScanOp n F O R) : Prop :=
  (scan.Stops s op → scan.continuous = false) ∧
    ((∃ t, scan.Step s op t ∧ Exited t.phase) → scan.Settled s op)

/-- What a suspended scan knows: before the loops nothing has happened, and in a single
sweep the channels tuned to and those that are left are all. -/
def Tracked (s : ScanSystem n F O R) : Prop :=
  match s.phase with
  | .beginning => s.tuned = [] ∧ s.res = none ∧ s.router.operationState scan.endpoint = none
  | .starting _ => s.tuned = [] ∧ s.res = none ∧ s.router.operationState scan.endpoint = none
  | .onChannel _ _ rest => scan.continuous = false → s.tuned ++ rest = s.channels ∧ s.res = none
  | _ => True

section Exits
variable {scan} {s : ScanSystem n F O R} {o : OffChannelOperation n}

theorem restore_homeChannel (cs : ChannelState n) :
    (scan.restore cs o).homeChannel = cs.homeChannel := by
  unfold restore
  split
  · exact congrArg (Option.map Prod.snd) (ChannelState.setChannel_locks scan.valid _)
  · rfl

/-- The channel of the lock is restored exactly if it can be. -/
theorem restore_channel_iff (cs : ChannelState n) :
    (∀ channel, cs.homeChannel = some channel → (scan.restore cs o).channel = channel) ↔
      scan.Restorable cs := by
  refine forall_congr' fun channel => imp_congr_right fun hhome => ?_
  have hrestore : scan.restore cs o = (cs.setChannel scan.valid channel).2 := by
    unfold restore
    rw [hhome,Option.some_or]
  rw [hrestore,ChannelState.setChannel]
  cases hvalid : scan.valid channel with
  | true => simp
  | false => simp

/-- Whatever guards are alive, with the off channel operation dropped last. -/
theorem clean_unwind_iff {guards : List (ScanGuard n)} {phase : ScanPhase n R}
    (hended : (unwind scan.drop s guards).router.operationState scan.endpoint = none)
    (hkept : (unwind scan.drop s guards).channelState = s.channelState) :
    scan.Clean { unwind scan.drop s (.offChannelOperation o :: guards) with phase := phase } ↔
      scan.Restorable s.channelState := by
  rw [← restore_channel_iff (o := o)]
  constructor
  · rintro ⟨_,_,hhome⟩ channel hc
    rw [← hkept] at hc ⊢
    refine hhome channel ?_
    rw [← hc]
    exact restore_homeChannel _
  · intro h
    refine ⟨hended,rfl,?_⟩
    intro channel hc
    have hc' : s.channelState.homeChannel = some channel := by
      rw [← hc,← hkept]
      exact (restore_homeChannel _).symm
    have hchannel := h channel hc'
    rw [← hkept] at hchannel
    exact hchannel

theorem leave_clean_iff (result : Except LMacError (Option R)) :
    scan.Clean (scan.leave s o result) ↔ scan.Restorable s.channelState :=
  clean_unwind_iff (by simp [unwind,drop]) rfl

end Exits
section Sweeps
variable {scan} {s t : ScanSystem n F O R} {o : OffChannelOperation n} {rest : List ℕ}

/-- What the loops can do with the channels that are left. -/
inductive Swept (scan : Scan n F G O) (s : ScanSystem n F O R) (o : OffChannelOperation n)
    (rest : List ℕ) : ScanSystem n F O R → Prop
  | tuned (channel : ℕ) (rest' : List ℕ)
      (hrest : rest = channel :: rest' ∨ rest = [] ∧ scan.continuous = true) :
      Swept scan s o rest { s with
        channelState := { s.channelState with channel := channel }
        phase := .onChannel o channel rest'
        tuned := s.tuned ++ [channel] }
  | failed (hrest : rest ≠ [] ∨ scan.continuous = true) :
      Swept scan s o rest (scan.leave s o (.error .invalidChannel))
  | finished (hrest : rest = []) (honce : scan.continuous = false) :
      Swept scan s o rest (scan.leave s o (.ok s.res))
  | spinning (hforever : scan.continuous = true) : Swept scan s o rest { s with phase := .spinning }

theorem tune_swept {channel : ℕ} {rest' : List ℕ}
    (hrest : rest = channel :: rest' ∨ rest = [] ∧ scan.continuous = true) :
    Swept scan s o rest (scan.tune s o channel rest') := by
  unfold tune ChannelState.setChannel
  cases scan.valid channel with
  | true => exact .tuned channel rest' hrest
  | false =>
    refine .failed ?_
    rcases hrest with rfl | ⟨_,hforever⟩
    · exact Or.inl (by simp)
    · exact Or.inr hforever

theorem endSweep_swept : Swept scan s o [] (scan.endSweep s o) := by
  unfold endSweep
  cases hforever : scan.continuous with
  | false => exact .finished rfl hforever
  | true =>
    rw [if_pos rfl]
    split
    · exact .spinning hforever
    · exact tune_swept (Or.inr ⟨rfl,hforever⟩)

theorem nextChannel_swept : Swept scan s o rest (scan.nextChannel s o rest) := by
  cases rest with
  | nil => exact endSweep_swept
  | cons channel rest => exact tune_swept (Or.inl rfl)

theorem swept_tracked (h : Swept scan s o rest t)
    (honce : scan.continuous = false → rest ≠ [] → s.tuned ++ rest = s.channels ∧ s.res = none) :
    scan.Tracked t := by
  cases h with
  | tuned channel rest' hrest =>
    intro hsingle
    rcases hrest with rfl | ⟨_,hforever⟩
    · obtain ⟨htuned,hres⟩ := honce hsingle (by simp)
      refine ⟨?_,hres⟩
      rw [← htuned]
      simp
    · rw [hsingle] at hforever
      cases hforever
  | failed _ => trivial
  | finished _ _ => trivial
  | spinning _ => trivial

theorem swept_calls (h : Swept scan s o rest t) : t.calls = s.calls := by
  cases h with
  | tuned channel rest' hrest => rfl
  | failed _ => rfl
  | finished _ _ => rfl
  | spinning _ => rfl

theorem swept_clean_iff (h : Swept scan s o rest t) :
    (Exited t.phase → scan.Clean t) ↔ (Exited t.phase → scan.Restorable s.channelState) := by
  cases h with
  | tuned channel rest' hrest => exact ⟨nofun,nofun⟩
  | failed _ => exact imp_congr_right (fun _ => leave_clean_iff _)
  | finished _ _ => exact imp_congr_right (fun _ => leave_clean_iff _)
  | spinning _ => exact ⟨nofun,nofun⟩

/-- A scan that was never told to stop has only its exit to answer for. -/
theorem correct_iff_of_continue (hcalls : ∀ call ∈ s.calls, call.action = .continueScan)
    (honce : scan.continuous = false → s.tuned <+: s.channels ∧
      (s.phase = .returned (.ok none) → s.tuned = s.channels)) :
    scan.Correct s ↔ (Exited s.phase → scan.Clean s) := by
  constructor
  · intro h
    exact h.clean
  · intro hclean
    refine ⟨?_,?_,honce,hclean⟩
    · intro call hcall
      exact hcalls call (List.mem_of_mem_dropLast hcall)
    · intro call res hlast hstop
      rw [hcalls call (List.mem_of_mem_getLast? hlast)] at hstop
      cases hstop

theorem swept_correct_iff (h : Swept scan s o rest t)
    (hcalls : ∀ call ∈ s.calls, call.action = .continueScan)
    (honce : scan.continuous = false → s.tuned ++ rest = s.channels ∧ s.res = none) :
    scan.Correct t ↔ (Exited t.phase → scan.Restorable s.channelState) := by
  rw [← swept_clean_iff h]
  cases h with
  | tuned channel rest' hrest =>
    refine correct_iff_of_continue hcalls ?_
    intro hsingle
    refine ⟨?_,nofun⟩
    rcases hrest with rfl | ⟨_,hforever⟩
    · change s.tuned ++ [channel] <+: s.channels
      rw [← (honce hsingle).1]
      exact ⟨rest',by simp⟩
    · rw [hsingle] at hforever
      cases hforever
  | failed _ =>
    refine correct_iff_of_continue hcalls ?_
    intro hsingle
    refine ⟨?_,nofun⟩
    change s.tuned <+: s.channels
    rw [← (honce hsingle).1]
    exact List.prefix_append _ _
  | finished hrest _ =>
    refine correct_iff_of_continue hcalls ?_
    intro hsingle
    have htuned : s.tuned = s.channels := by
      rw [← (honce hsingle).1,hrest,List.append_nil]
    exact ⟨htuned ▸ List.prefix_refl _,fun _ => htuned⟩
  | spinning hforever =>
    refine correct_iff_of_continue hcalls ?_
    intro hsingle
    rw [hsingle] at hforever
    cases hforever

/-- With no channel left a single sweep returns and a continuous one does not. -/
theorem swept_nil_cases (h : Swept scan s o [] t) :
    scan.continuous = false ∧ t = scan.leave s o (.ok s.res) ∨
      scan.continuous = true ∧ ∀ res, t.phase ≠ .returned (.ok res) := by
  cases h with
  | tuned channel rest' hrest =>
    rcases hrest with hrest | ⟨_,hforever⟩
    · cases hrest
    · exact Or.inr ⟨hforever,nofun⟩
  | failed hrest =>
    rcases hrest with hrest | hforever
    · exact absurd rfl hrest
    · exact Or.inr ⟨hforever,nofun⟩
  | finished _ hsingle => exact Or.inl ⟨hsingle,rfl⟩
  | spinning hforever => exact Or.inr ⟨hforever,nofun⟩

/-- After a `Stop` only a single sweep returns. -/
theorem swept_stop_correct_iff {before : List (ScanCall R)} {channel : ℕ} {res : R}
    (h : Swept scan s o [] t) (hbefore : ∀ call ∈ before, call.action = .continueScan)
    (hcalls : s.calls = before ++ [⟨channel,.stop res,s.tuned.length⟩]) (hres : s.res = some res)
    (honce : scan.continuous = false → s.tuned <+: s.channels) :
    scan.Correct t ↔
      scan.continuous = false ∧ (Exited t.phase → scan.Restorable s.channelState) := by
  have hlast : s.calls.getLast? = some ⟨channel,.stop res,s.tuned.length⟩ := by
    rw [hcalls,List.getLast?_concat]
  rw [← swept_clean_iff h]
  have hkept := swept_calls h
  rcases swept_nil_cases h with ⟨hsingle,rfl⟩ | ⟨hforever,hphase⟩
  · constructor
    · intro hc
      exact ⟨hsingle,hc.clean⟩
    · rintro ⟨_,hclean⟩
      refine ⟨?_,?_,?_,hclean⟩
      · intro call hcall
        rw [hkept,hcalls,List.dropLast_concat] at hcall
        exact hbefore call hcall
      · intro call res' hlast' hstop
        rw [hkept] at hlast'
        obtain rfl := Option.some.inj (hlast.symm.trans hlast')
        cases hstop
        refine ⟨?_,rfl⟩
        change ScanPhase.returned (.ok s.res) = _
        rw [hres]
      · intro _
        refine ⟨honce hsingle,?_⟩
        intro hnone
        change ScanPhase.returned (.ok s.res) = _ at hnone
        rw [hres] at hnone
        cases hnone
  · constructor
    · intro hc
      rw [← hkept] at hlast
      exact absurd (hc.stopped _ res hlast rfl).1 (hphase _)
    · rintro ⟨hsingle,_⟩
      rw [hsingle] at hforever
      cases hforever

end Sweeps

section Steps
variable {scan} {s t : ScanSystem n F O R} {op : ScanOp n F O R}

/-- What a step of the scan itself can do, and what the other tasks can. -/
inductive Change (scan : Scan n F G O) (s : ScanSystem n F O R) (op : ScanOp n F O R)
    (t : ScanSystem n F O R) : Prop
  | waits (hphase : s.phase = .beginning) (hop : op = .beginOperation) (o : OffChannelOperation n)
      (ht : t = { (scan.beginOperation s).2 with phase := .starting o })
  | enters (u : ScanSystem n F O R) (o : OffChannelOperation n)
      (hcalls : u.calls = s.calls) (htuned : u.tuned = s.tuned) (hres : u.res = s.res)
      (hfresh : s.phase = .beginning ∨ ∃ o, s.phase = .starting o)
      (hstate : scan.Restorable u.channelState ↔ scan.Restorable s.channelState)
      (hsweep : Swept scan u o u.channels t) (hop : op = .beginOperation ∨ op = .pollStart)
  | fails (e : LMacError) (he : e ≠ .invalidChannel) (hop : ∃ b, op = .beginFailed b)
      (ht : t = { s with phase := .returned (.error e) })
  | continues (o : OffChannelOperation n) (channel : ℕ) (rest : List ℕ)
      (hphase : s.phase = .onChannel o channel rest) (hop : op = .timeout)
      (hsweep : Swept scan s o rest t)
  | skips (router : RxRouter F O) (action : PostChannelScanAction R) (hop : op = .receive action)
      (hstops : ¬ scan.Stops s op) (o : OffChannelOperation n) (channel : ℕ) (rest : List ℕ)
      (hphase : s.phase = .onChannel o channel rest) (calls : List (ScanCall R))
      (hcalls : ∀ call ∈ calls, call ∈ s.calls ∨ call.action = .continueScan)
      (ht : t = { s with router := router, calls := calls })
  | stops (u : ScanSystem n F O R) (o : OffChannelOperation n) (channel : ℕ) (rest : List ℕ)
      (hphase : s.phase = .onChannel o channel rest) (res : R) (hop : op = .receive (.stop res))
      (hstops : scan.Stops s op)
      (hcalls : u.calls = s.calls ++ [⟨channel,.stop res,u.tuned.length⟩]) (hres : u.res = some res)
      (htuned : u.tuned = s.tuned) (hchannels : u.channels = s.channels)
      (hstate : u.channelState = s.channelState) (hsweep : Swept scan u o [] t)
  | cancels (hop : op = .cancel)
      (ht : t = { unwind scan.drop s s.phase.guards with phase := .cancelled })
  | others (channelState : ChannelState n) (scanningMode : ScanningMode) (router : RxRouter F O)
      (hop : (∃ frame, op = .routeFrame frame) ∨ ∃ cs mode r, op = .others cs mode r)
      (hrouter : router.operationState scan.endpoint = s.router.operationState scan.endpoint)
      (ht : t = { s with
        channelState := channelState, scanningMode := scanningMode, router := router })

theorem receive_change {o : OffChannelOperation n} {channel : ℕ} {rest : List ℕ}
    {action : PostChannelScanAction R} {x : F × RxRouter F O}
    (hphase : s.phase = .onChannel o channel rest)
    (hx : s.router.receive scan.endpoint = some x) :
    scan.Change s (.receive action)
      (scan.receive { s with router := x.2 } o channel action x.1) := by
  unfold receive
  cases hbeacon : scan.isBeacon x.1 with
  | false =>
    refine .skips x.2 action rfl ?_ o channel rest hphase s.calls (fun _ h => Or.inl h) rfl
    rintro ⟨_,y,hy,hb⟩
    obtain rfl := Option.some.inj (hx.symm.trans hy)
    rw [hbeacon] at hb
    cases hb
  | true =>
    rw [if_pos rfl]
    cases action with
    | continueScan =>
      refine .skips x.2 .continueScan rfl ?_ o channel rest hphase
        (s.calls ++ [⟨channel,.continueScan,s.tuned.length⟩]) ?_ rfl
      · rintro ⟨⟨res,hres⟩,_⟩
        cases hres
      · intro call hcall
        rcases List.mem_append.mp hcall with hcall | hcall
        · exact Or.inl hcall
        · rw [List.mem_singleton.mp hcall]
          exact Or.inr rfl
    | stop res =>
      exact .stops { s with
          router := x.2
          res := some res
          calls := s.calls ++ [⟨channel,.stop res,s.tuned.length⟩] }
        o channel rest hphase res rfl ⟨⟨res,rfl⟩,x,hx,hbeacon⟩ rfl rfl rfl rfl rfl endSweep_swept

theorem step_change (he : scan.Step s op t) : s.phase.suspended = true ∧ scan.Change s op t := by
  unfold Step at he
  cases op with
  | beginOperation =>
    simp only [step] at he
    split at he
    · rename_i hphase
      refine ⟨by rw [hphase]; rfl,?_⟩
      split at he
      · rename_i router _
        cases he
        exact .enters { (scan.beginOperation s).2 with
            router := router
            scanningMode := .beaconsOnly }
          _ rfl rfl rfl (Or.inl hphase) Iff.rfl nextChannel_swept (Or.inl rfl)
      · cases he
        exact .waits hphase rfl _ rfl
    · cases he
  | beginFailed alreadyInProgress =>
    simp only [step] at he
    split at he
    · rename_i hphase
      cases he
      refine ⟨by rw [hphase]; rfl,.fails _ ?_ ⟨_,rfl⟩ rfl⟩
      cases alreadyInProgress with
      | false => simp
      | true => simp
    · cases he
  | pollStart =>
    simp only [step] at he
    split at he
    · rename_i o hphase
      obtain ⟨router,_,rfl⟩ := Option.map_eq_some_iff.mp he
      exact ⟨by rw [hphase]; rfl,.enters { s with router := router, scanningMode := .beaconsOnly }
        o rfl rfl rfl (Or.inr ⟨o,hphase⟩) Iff.rfl nextChannel_swept (Or.inr rfl)⟩
    · cases he
  | receive action =>
    simp only [step] at he
    split at he
    · rename_i o channel rest hphase
      obtain ⟨x,hx,rfl⟩ := Option.map_eq_some_iff.mp he
      exact ⟨by rw [hphase]; rfl,receive_change hphase hx⟩
    · cases he
  | timeout =>
    simp only [step] at he
    split at he
    · rename_i o channel rest hphase
      cases he
      exact ⟨by rw [hphase]; rfl,.continues o channel rest hphase rfl nextChannel_swept⟩
    · cases he
  | cancel =>
    simp only [step] at he
    split at he <;> cases he
    rename_i hsuspended
    exact ⟨hsuspended,.cancels rfl rfl⟩
  | routeFrame frame =>
    simp only [step] at he
    split at he <;> cases he
    rename_i hsuspended
    refine ⟨hsuspended,.others _ _ _ (Or.inl ⟨frame,rfl⟩) ?_ rfl⟩
    rw [RxRouter.routeFrame_operationState]
  | others channelState scanningMode router =>
    simp only [step] at he
    split at he <;> cases he
    rename_i hsuspended
    refine ⟨hsuspended,.others _ _ _ (Or.inr ⟨_,_,_,rfl⟩) ?_ rfl⟩
    simp

/-- Before the loops nothing has happened. -/
theorem tracked_fresh (hs : scan.Tracked s)
    (hfresh : s.phase = .beginning ∨ ∃ o, s.phase = .starting o) :
    s.tuned = [] ∧ s.res = none ∧ s.router.operationState scan.endpoint = none := by
  unfold Tracked at hs
  rcases hfresh with hphase | ⟨o,hphase⟩
  · rw [hphase] at hs
    exact hs
  · rw [hphase] at hs
    exact hs

theorem step_tracked (hs : scan.Tracked s) (he : scan.Step s op t) : scan.Tracked t := by
  cases (step_change he).2 with
  | waits hphase hop o ht =>
    subst ht
    have hfresh := tracked_fresh hs (Or.inl hphase)
    exact hfresh
  | enters u o hcalls htuned hres hfresh _ hsweep _ =>
    obtain ⟨hempty,hnone,_⟩ := tracked_fresh hs hfresh
    refine swept_tracked hsweep ?_
    intro _ _
    rw [htuned,hempty,hres]
    exact ⟨rfl,hnone⟩
  | fails e he hop ht =>
    subst ht
    trivial
  | continues o channel rest hphase _ hsweep =>
    unfold Tracked at hs
    rw [hphase] at hs
    exact swept_tracked hsweep (fun hsingle _ => hs hsingle)
  | skips router action hop hstops o channel rest hphase calls hcalls ht =>
    subst ht
    unfold Tracked at hs ⊢
    dsimp only
    rw [hphase] at hs ⊢
    exact hs
  | stops u o channel rest hphase res hop hstops hcalls hres htuned hchannels hstate hsweep =>
    exact swept_tracked hsweep (fun _ hne => absurd rfl hne)
  | cancels hop ht =>
    subst ht
    trivial
  | others channelState scanningMode router hop hrouter ht =>
    subst ht
    unfold Tracked at hs ⊢
    dsimp only
    rw [hrouter]
    exact hs

theorem continue_of_suspended (hc : scan.Correct s) (h : s.phase.suspended = true) :
    ∀ call ∈ s.calls, call.action = .continueScan := by
  intro call hcall
  rcases List.eq_nil_or_concat s.calls with hnil | ⟨before,last,hsplit⟩
  · rw [hnil] at hcall
    cases hcall
  · rw [List.concat_eq_append] at hsplit
    rw [hsplit] at hcall
    rcases List.mem_append.mp hcall with hcall | hcall
    · refine hc.onlyLast call ?_
      rw [hsplit,List.dropLast_concat]
      exact hcall
    · rw [List.mem_singleton.mp hcall]
      cases hlast : last.action with
      | continueScan => rfl
      | stop res =>
        have hphase := (hc.stopped last res (by rw [hsplit,List.getLast?_concat]) hlast).1
        rw [hphase] at h
        cases h

theorem obeys_iff (he : scan.Step s op t) : scan.Obeys s op ↔
    (scan.Stops s op → scan.continuous = false) ∧ (Exited t.phase → scan.Settled s op) := by
  refine and_congr_right fun _ => ?_
  constructor
  · intro h hexit
    exact h ⟨t,he,hexit⟩
  · rintro h ⟨u,hu,hexit⟩
    obtain rfl := Option.some.inj (he.symm.trans hu)
    exact h hexit

theorem not_exited_of_suspended {phase : ScanPhase n R} (h : phase.suspended = true) :
    ¬ Exited phase := by
  cases phase with
  | beginning => exact id
  | starting o => exact id
  | onChannel o channel rest => exact id
  | spinning => cases h
  | returned result => cases h
  | cancelled => cases h

theorem not_stops (h : ∀ res, op ≠ .receive (.stop res)) : ¬ scan.Stops s op := by
  rintro ⟨⟨res,hop⟩,_⟩
  exact h res hop

/-- Only a cancelled wait asks for something else. -/
theorem settled_iff_restorable (h : s.phase ≠ .beginning ∨ op ≠ .cancel) :
    scan.Settled s op ↔ scan.Restorable s.channelState := by
  unfold Settled
  split
  · rename_i hphase
    rcases h with h | h
    · exact absurd hphase h
    · exact absurd rfl h
  · exact Iff.rfl

/-- A step that is neither a `Stop` nor a cancelled wait obeys if its exit can be
restored. -/
theorem obeys_iff_restorable (he : scan.Step s op t) (hstops : ¬ scan.Stops s op)
    (hop : op ≠ .cancel) :
    scan.Obeys s op ↔ (Exited t.phase → scan.Restorable s.channelState) := by
  rw [obeys_iff he,settled_iff_restorable (Or.inr hop)]
  exact ⟨And.right,fun h => ⟨fun hs => absurd hs hstops,h⟩⟩

/-- Guards know nothing of the scan itself. -/
theorem unwind_frame (scan : Scan n F G O) (s : ScanSystem n F O R) (guards : List (ScanGuard n)) :
    (unwind scan.drop s guards).calls = s.calls ∧ (unwind scan.drop s guards).tuned = s.tuned ∧
      (unwind scan.drop s guards).channels = s.channels := by
  refine unwind_keeps (P := fun u : ScanSystem n F O R => u.calls = s.calls ∧
    u.tuned = s.tuned ∧ u.channels = s.channels) ?_ ⟨rfl,rfl,rfl⟩
  intro u g hu
  cases g with
  | offChannelOperation o => exact hu
  | routerOperation => exact hu

/-- Cancelling drops the guards that are alive. -/
theorem cancel_clean_iff (hs : scan.Tracked s) (h : s.phase.suspended = true) :
    scan.Clean { unwind scan.drop s s.phase.guards with phase := .cancelled } ↔
      scan.Settled s .cancel := by
  unfold Tracked at hs
  unfold Settled
  cases hphase : s.phase with
  | beginning =>
    constructor
    · rintro ⟨hended,hdisabled,hhome⟩
      exact ⟨hended,hdisabled,hhome⟩
    · rintro ⟨hended,hdisabled,hhome⟩
      exact ⟨hended,hdisabled,hhome⟩
  | starting o =>
    rw [hphase] at hs
    exact clean_unwind_iff hs.2.2 rfl
  | onChannel o channel rest => exact clean_unwind_iff (by simp [unwind,drop]) rfl
  | spinning => rw [hphase] at h; cases h
  | returned result => rw [hphase] at h; cases h
  | cancelled => rw [hphase] at h; cases h

/-- A step that leaves the scan suspended and appends no `Stop` is correct. -/
theorem correct_of_suspended (hcalls : ∀ call ∈ t.calls, call.action = .continueScan)
    (htuned : scan.continuous = false → t.tuned <+: t.channels)
    (h : t.phase.suspended = true) : scan.Correct t := by
  refine (correct_iff_of_continue hcalls ?_).mpr ?_
  · intro hsingle
    refine ⟨htuned hsingle,?_⟩
    intro hphase
    rw [hphase] at h
    cases h
  · intro hexit
    exact absurd hexit (not_exited_of_suspended h)

theorem obeys_of_suspended (he : scan.Step s op t) (hstops : ¬ scan.Stops s op)
    (h : t.phase.suspended = true) : scan.Obeys s op := by
  rw [obeys_iff he]
  exact ⟨fun hs => absurd hs hstops,fun hexit => absurd hexit (not_exited_of_suspended h)⟩

/-- Entering the loops, from either of the two awaits in front of them. -/
theorem enters_correct_iff {u : ScanSystem n F O R} {o : OffChannelOperation n}
    (hs : scan.Tracked s) (hcontinue : ∀ call ∈ s.calls, call.action = .continueScan)
    (he : scan.Step s op t) (hop : op = .beginOperation ∨ op = .pollStart)
    (hfresh : s.phase = .beginning ∨ ∃ o, s.phase = .starting o) (hcalls : u.calls = s.calls)
    (htuned : u.tuned = s.tuned) (hres : u.res = s.res)
    (hstate : scan.Restorable u.channelState ↔ scan.Restorable s.channelState)
    (hsweep : Swept scan u o u.channels t) : scan.Correct t ↔ scan.Obeys s op := by
  obtain ⟨hempty,hnone,_⟩ := tracked_fresh hs hfresh
  have hreply : ∀ res, op ≠ .receive (.stop res) := by
    rintro res rfl
    rcases hop with hop | hop
    · cases hop
    · cases hop
  have hcancel : op ≠ .cancel := by
    rintro rfl
    rcases hop with hop | hop
    · cases hop
    · cases hop
  rw [obeys_iff_restorable he (not_stops hreply) hcancel,← hstate]
  refine swept_correct_iff hsweep ?_ ?_
  · rw [hcalls]
    exact hcontinue
  · intro _
    rw [htuned,hempty,hres]
    exact ⟨rfl,hnone⟩

theorem cancels_correct_iff (hs : scan.Tracked s) (hc : scan.Correct s)
    (hsuspended : s.phase.suspended = true)
    (he : scan.Step s .cancel { unwind scan.drop s s.phase.guards with phase := .cancelled }) :
    scan.Correct { unwind scan.drop s s.phase.guards with phase := .cancelled } ↔
      scan.Obeys s .cancel := by
  obtain ⟨hcalls,htuned,hchannels⟩ := unwind_frame scan s s.phase.guards
  rw [obeys_iff he]
  refine (correct_iff_of_continue ?_ ?_).trans ?_
  · change ∀ call ∈ (unwind scan.drop s s.phase.guards).calls, _
    rw [hcalls]
    exact continue_of_suspended hc hsuspended
  · intro hsingle
    change (unwind scan.drop s s.phase.guards).tuned <+:
      (unwind scan.drop s s.phase.guards).channels ∧ _
    rw [htuned,hchannels]
    exact ⟨(hc.once hsingle).1,nofun⟩
  · rw [cancel_clean_iff hs hsuspended]
    exact ⟨fun h => ⟨fun hstops => absurd hstops (not_stops nofun),h⟩,And.right⟩

/-- A step keeps the scan correct exactly if it obeys. -/
theorem step_correct_iff (hs : scan.Tracked s) (hc : scan.Correct s) (he : scan.Step s op t) :
    scan.Correct t ↔ scan.Obeys s op := by
  obtain ⟨hsuspended,hchange⟩ := step_change he
  have hcontinue := continue_of_suspended hc hsuspended
  cases hchange with
  | waits hphase hop o ht =>
    subst ht hop
    have hempty := (tracked_fresh hs (Or.inl hphase)).1
    refine iff_of_true (correct_of_suspended hcontinue ?_ rfl)
      (obeys_of_suspended he (not_stops nofun) rfl)
    intro _
    change s.tuned <+: _
    rw [hempty]
    exact List.nil_prefix
  | enters u o hcalls htuned hres hfresh hstate hsweep hop =>
    exact enters_correct_iff hs hcontinue he hop hfresh hcalls htuned hres hstate hsweep
  | fails e hne hop ht =>
    obtain ⟨alreadyInProgress,rfl⟩ := hop
    subst ht
    rw [obeys_iff_restorable he (not_stops nofun) nofun]
    refine Iff.trans (correct_iff_of_continue ?_ ?_) ?_
    · exact hcontinue
    · intro hsingle
      exact ⟨(hc.once hsingle).1,nofun⟩
    · constructor
      · intro _ hexit
        exact absurd hexit hne
      · intro _ hexit
        exact absurd hexit hne
  | continues o channel rest hphase hop hsweep =>
    subst hop
    rw [obeys_iff_restorable he (not_stops nofun) nofun]
    unfold Tracked at hs
    rw [hphase] at hs
    exact swept_correct_iff hsweep hcontinue hs
  | skips router action hop hstops o channel rest hphase calls hcalls ht =>
    subst ht
    refine iff_of_true (correct_of_suspended ?_ (fun h => (hc.once h).1) hsuspended)
      (obeys_of_suspended he hstops hsuspended)
    intro call hcall
    rcases hcalls call hcall with hold | hnew
    · exact hcontinue call hold
    · exact hnew
  | stops u o channel rest hphase res hop hstops hcalls hres htuned hchannels hstate hsweep =>
    rw [swept_stop_correct_iff hsweep hcontinue hcalls hres
      (fun h => by rw [htuned,hchannels]; exact (hc.once h).1),obeys_iff he,hstate]
    rw [settled_iff_restorable (Or.inl (by rw [hphase]; exact nofun))]
    exact and_congr_left fun _ => ⟨fun h _ => h,fun h => h hstops⟩
  | cancels hop ht =>
    subst ht hop
    exact cancels_correct_iff hs hc hsuspended he
  | others channelState scanningMode router hop hrouter ht =>
    subst ht
    refine iff_of_true (correct_of_suspended hcontinue (fun h => (hc.once h).1) hsuspended)
      (obeys_of_suspended he (not_stops ?_) hsuspended)
    rintro res rfl
    rcases hop with ⟨frame,hop⟩ | ⟨cs,mode,r,hop⟩
    · cases hop
    · cases hop

theorem new_tracked (channelState : ChannelState n) (scanningMode : ScanningMode)
    (router : RxRouter F O) :
    scan.Tracked (scan.new channelState scanningMode router : ScanSystem n F O R) := by
  refine ⟨rfl,rfl,?_⟩
  change (router.setOperationState scan.endpoint none).operationState scan.endpoint = none
  simp

theorem new_correct (channelState : ChannelState n) (scanningMode : ScanningMode)
    (router : RxRouter F O) :
    scan.Correct (scan.new channelState scanningMode router : ScanSystem n F O R) := by
  refine correct_of_suspended ?_ ?_ rfl
  · intro call hcall
    cases hcall
  · intro _
    exact List.nil_prefix

/-- A single sweep that nobody stops ends with its last timeout. -/
theorem timeouts_return {o : OffChannelOperation n} {rest : List ℕ} {channel : ℕ}
    (hsingle : scan.continuous = false) (hvalid : ∀ c ∈ rest, scan.valid c = true)
    (hs : scan.Tracked s) (hphase : s.phase = .onChannel o channel rest) :
    ∃ t, Runs scan.Step s (List.replicate (rest.length + 1) .timeout) t ∧
      t.phase = .returned (.ok none) ∧ t.tuned = t.channels := by
  induction rest generalizing s channel with
  | nil =>
    unfold Tracked at hs
    rw [hphase] at hs
    obtain ⟨htuned,hres⟩ := hs hsingle
    refine ⟨scan.leave s o (.ok s.res),.step ?_ (.refl _),?_,?_⟩
    · simp only [Step,step,hphase,nextChannel,endSweep,hsingle,Bool.false_eq_true,if_false]
    · change ScanPhase.returned (.ok s.res) = _
      rw [hres]
    · change s.tuned = s.channels
      rw [← htuned,List.append_nil]
  | cons next rest ih =>
    obtain ⟨hnext,hrest⟩ := List.forall_mem_cons.mp hvalid
    have he : scan.Step s .timeout { s with
        channelState := { s.channelState with channel := next }
        phase := .onChannel o next rest
        tuned := s.tuned ++ [next] } := by
      simp only [Step,step,hphase,nextChannel,tune,ChannelState.setChannel,hnext,if_true]
    obtain ⟨t,hr,hend⟩ := ih hrest (step_tracked hs he) rfl
    exact ⟨t,.step he hr,hend⟩

/-- In every run the scan stops when told to, a single sweep goes through the channels once
and in order, and every exit leaves nothing behind, exactly if only a scan that is not
continuous is told to stop and the channel that is locked can be restored on exit. A single
sweep returns once it has timed out on every channel. -/
theorem scan_correct_iff (scan : Scan n F G O) (channelState : ChannelState n)
    (scanningMode : ScanningMode) (router : RxRouter F O) :
    (∀ ops (s : ScanSystem n F O R),
      Runs (Within scan.Correct scan.Step) (scan.new channelState scanningMode router) ops s ↔
        Runs (Guarded scan.Obeys scan.Step) (scan.new channelState scanningMode router) ops s) ∧
    ∀ ops (s : ScanSystem n F O R) o channel rest,
      Runs scan.Step (scan.new channelState scanningMode router) ops s →
      s.phase = .onChannel o channel rest → scan.continuous = false →
      (∀ c ∈ rest, scan.valid c = true) →
      ∃ t, Runs scan.Step s (List.replicate (rest.length + 1) .timeout) t ∧
        t.phase = .returned (.ok none) ∧ t.tuned = t.channels := by
  constructor
  · intro ops s
    exact Runs.within_iff_guarded (I := scan.Tracked) (fun _ _ _ hs he => step_tracked hs he)
      (fun _ _ _ hs hc he => step_correct_iff hs hc he) (new_tracked ..) (new_correct ..)
  · intro ops s o channel rest hr hphase hsingle hvalid
    have hs : scan.Tracked s :=
      hr.invariant (fun _ _ _ hs he => step_tracked hs he) (new_tracked ..)
    exact timeouts_return hsingle hvalid hs hphase

end Steps
section TwoChannels

/-- Frames are true if they are beacons. -/
def beaconRouter : RxRouterConfig Bool Bool Unit where
  concurrentOperationsSupported := false
  frameRelevantForOperation _ frame := frame
  compatibleWith _ _ := false
  genericFrame := some
  queueDepth := 4

/-- Interface 0 scans the channels 1 and 11. -/
def twoChannels (continuous : Bool) : Scan 2 Bool Bool Unit where
  valid channel := decide (1 ≤ channel ∧ channel ≤ 14)
  interface := ⟨0,by decide⟩
  endpoint := .foreground
  routerConfig := beaconRouter
  scanOperation := ()
  isBeacon := id
  strategy := some (.custom [1,11])
  continuous := continuous

/-- Interface 1 holds the lock on channel 6. -/
def lockedOnSix : ChannelState 2 := ⟨some (fun i => i == ⟨1,by decide⟩,6),none,6⟩

/-- A single sweep that is stopped on its first channel is back on channel 6, and one that
is not stopped ends after both. -/
theorem scan_correct_twoChannels :
    (∃ s : ScanSystem 2 Bool Unit ℕ, Runs (Within (twoChannels false).Correct (twoChannels false).Step)
      ((twoChannels false).new lockedOnSix .disabled .new)
        [.beginOperation,.routeFrame true,.receive (.stop 7)] s ∧
      s.phase = .returned (.ok (some 7)) ∧ s.channelState.channel = 6) ∧
    ∃ s t : ScanSystem 2 Bool Unit ℕ, Runs (twoChannels false).Step
        ((twoChannels false).new lockedOnSix .disabled .new) [.beginOperation] s ∧
      Runs (twoChannels false).Step s [.timeout,.timeout] t ∧
      t.phase = .returned (.ok none) ∧ t.tuned = t.channels := by
  obtain ⟨hcorrect,hreturns⟩ := scan_correct_iff (R := ℕ) (twoChannels false) lockedOnSix .disabled
    .new
  have hobeys : ∀ (s : ScanSystem 2 Bool Unit ℕ) op, s.channelState.homeChannel = some 6 →
      op ≠ .cancel → (twoChannels false).Obeys s op := by
    intro s op hhome hop
    refine ⟨fun _ => rfl,fun _ => (settled_iff_restorable (Or.inr hop)).mpr ?_⟩
    intro channel hc
    obtain rfl := Option.some.inj (hhome.symm.trans hc)
    exact Or.inl rfl
  constructor
  · refine ⟨_,(hcorrect _ _).mpr (.step ⟨hobeys _ _ rfl nofun,rfl⟩
      (.step ⟨hobeys _ _ rfl nofun,rfl⟩ (.step ⟨hobeys _ _ rfl nofun,rfl⟩ (.refl _)))),rfl,rfl⟩
  · have hr : Runs (twoChannels false).Step
        ((twoChannels false).new lockedOnSix .disabled .new : ScanSystem 2 Bool Unit ℕ)
        [.beginOperation] _ := .step rfl (.refl _)
    obtain ⟨t,hrun,hend⟩ := hreturns _ _ _ _ _ hr rfl rfl (by decide)
    exact ⟨_,t,hr,hrun,hend⟩

/-- A continuous scan that is told to stop on channel 1 starts over there and hands the next
beacon to the callback. -/
theorem scan_continuous_not_stopped : ∃ s : ScanSystem 2 Bool Unit ℕ,
    Runs (twoChannels true).Step ((twoChannels true).new lockedOnSix .disabled .new)
      [.beginOperation,.routeFrame true,.receive (.stop 7),.routeFrame true,
        .receive .continueScan] s ∧
    s.calls = [⟨1,.stop 7,1⟩,⟨1,.continueScan,2⟩] ∧ s.tuned = [1,1] ∧
    ¬ (twoChannels true).Correct s := by
  apply Runs.exists_of_execute (fun _ _ _ h => h)
    (fun s => s.calls = [⟨1,.stop 7,1⟩,⟨1,.continueScan,2⟩] ∧ s.tuned = [1,1])
  · decide
  · rintro s _ ⟨hcalls,htuned⟩
    refine ⟨hcalls,htuned,?_⟩
    intro hc
    have hlast : PostChannelScanAction.stop 7 = .continueScan :=
      hc.onlyLast ⟨1,.stop 7,1⟩ (by rw [hcalls]; exact List.mem_singleton_self _)
    cases hlast

end TwoChannels
end Scan

end FerrisOnAir.Util

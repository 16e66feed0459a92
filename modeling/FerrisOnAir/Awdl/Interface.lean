import FerrisOnAir.Awdl.Events
import FerrisOnAir.Lmac.ChannelRuns

/-! # An AWDL interface

`AwdlControl` and the loop of `AwdlRunner::run`. The control starts and stops sessions by a
signal that keeps its last value only; the runner takes the value when it is polled, tears
down the session it is in and sets up the one that was asked for. A start first locks the
channel, and gives the lock back if it is dropped while it waits for off channel operations.
Other interfaces use the channel at will.
-/
namespace FerrisOnAir.Awdl
open Lmac

inductive AwdlState
  | active (ourAddress : Address) (channel : UInt8)
  | inactive
deriving DecidableEq

inductive LinkState
  | down
  | up
deriving DecidableEq

def awdlBssid : Address := fun i => [0x00,0x25,0x00,0xff,0x94,0x73].get i

/-- The channel of the control is the one `new_awdl_interface` sets. -/
def awdlChannel : UInt8 := 6

/-- The interface among those of the driver, with the channels that the driver accepts. -/
structure InterfaceConfig (n : ℕ) where
  interface : Fin n
  valid : ℕ → Bool
  implementation : CacheImplementation
  eventQueueDepth : ℕ

def InterfaceConfig.session {n : ℕ} (config : InterfaceConfig n) (ourAddress : Address) :
    SessionConfig :=
  ⟨ourAddress,config.implementation,config.eventQueueDepth⟩

/-- `state` is what the runner took from the signal last: it is in a session or waits for the
next value. A bringup operation is alive while a start waits. -/
structure AwdlInterface (n : ℕ) where
  lmac : ChannelSystem n
  bssidFilter : Option Address
  receiverAddressFilter : Option Address
  macAddress : Address
  bringup : Bool
  stateSignal : Option AwdlState
  state : AwdlState
  resources : CommonResources
  hardwareAddress : Address
  linkState : LinkState

inductive InterfaceOp (n : ℕ)
  | beginStart
  | completeStart
  | dropStart
  | stop
  | setMacAddress (macAddress : Address)
  | poll (now : ℕ)
  | session (op : SessionOp)
  | nextEvent
  | lmac (op : ChannelOp n)

namespace AwdlInterface
variable {n : ℕ} (config : InterfaceConfig n) (s : AwdlInterface n)

/-- `new_awdl_interface`, on a driver in any state. -/
def new (lmac : ChannelSystem n) (factoryMac : Address) : AwdlInterface n where
  lmac := lmac.unlock config.interface
  bssidFilter := some awdlBssid
  receiverAddressFilter := none
  macAddress := factoryMac
  bringup := false
  stateSignal := none
  state := .inactive
  resources := ⟨⟨[],List.nodup_nil⟩,⟨fun _ => 6,0⟩,.new (fun _ => 0),[]⟩
  hardwareAddress := factoryMac
  linkState := .down

def clearPeerCache : AwdlInterface n :=
  { s with resources := { s.resources with peerCache := ⟨[],List.nodup_nil⟩ } }

/-- The end of a session. -/
def leave : AwdlInterface n :=
  match s.state with
  | .active _ _ => { s.clearPeerCache with linkState := .down }
  | .inactive => s

/-- The loop of `run` with a value of the signal. -/
def enter (state : AwdlState) (now : ℕ) : AwdlInterface n :=
  match state with
  | .inactive => { s with state := .inactive }
  | .active ourAddress channel =>
    { s with
      state := state
      resources :=
        s.resources.initializeSessionParameters (config.session ourAddress) channel now
      hardwareAddress := ourAddress
      linkState := .up }

/-- What begins a start: the lock of the channel and a bringup operation, if there is none. -/
def beginStart : AwdlInterface n :=
  let r := s.lmac.offChannel.channelState.lockChannelInternal config.valid config.interface
    awdlChannel.toNat
  { s with
    lmac := { s.lmac with offChannel := { s.lmac.offChannel with channelState := r.2 } }
    bringup := match r.1 with
      | .ok _ => true
      | .error _ => false }

/-- A start has the control to itself, so nothing but its end or its drop comes between. -/
def next : InterfaceOp n → Option (AwdlInterface n)
  | .beginStart => if s.bringup then none else some (s.beginStart config)
  | .completeStart =>
    if s.bringup then some { s with
      bssidFilter := some awdlBssid
      receiverAddressFilter := some s.macAddress
      stateSignal := some (.active s.macAddress awdlChannel)
      bringup := false }
    else none
  | .dropStart =>
    if s.bringup then some { s with lmac := s.lmac.unlock config.interface, bringup := false }
    else none
  | .stop =>
    if s.bringup then none
    else some { s with
      lmac := s.lmac.unlock config.interface
      bssidFilter := none
      receiverAddressFilter := none
      stateSignal := some .inactive }
  | .setMacAddress macAddress => if s.bringup then none else some { s with macAddress := macAddress }
  | .poll now => s.stateSignal.map (fun state =>
      { s.leave with stateSignal := none }.enter config state now)
  | .session op =>
    match s.state with
    | .active ourAddress _ => some { s with
        resources := s.resources.step (config.session ourAddress) op }
    | .inactive => none
  | .nextEvent => some { s with
      resources := { s.resources with eventQueue := s.resources.eventQueue.tail } }
  | .lmac op => if s.lmac.caller op = some config.interface then none
      else (s.lmac.step config.valid op).map (fun lmac => { s with lmac := lmac })

def Step (s : AwdlInterface n) (op : InterfaceOp n) (t : AwdlInterface n) : Prop :=
  s.next config op = some t

/-! ## What was asked for -/

/-- What the user of the control sees of it. -/
structure Request where
  macAddress : Address
  state : AwdlState
deriving DecidableEq

/-- A start asks for a session with the address at its end. -/
def Request.step (r : Request) : InterfaceOp n → Request
  | .completeStart => { r with state := .active r.macAddress awdlChannel }
  | .stop => { r with state := .inactive }
  | .setMacAddress macAddress => { r with macAddress := macAddress }
  | _ => r

/-- The value that the runner has not taken counts. -/
def request : Request := ⟨s.macAddress,s.stateSignal.getD s.state⟩

/-- Frames come in exactly under the address of the session that was asked for. -/
def FiltersMatch : Prop :=
  match s.request.state with
  | .active ourAddress _ =>
    s.receiverAddressFilter = some ourAddress ∧ s.bssidFilter = some awdlBssid
  | .inactive => s.receiverAddressFilter = none

/-- The runner is in a session that began with an empty cache and under the address that the
network stack knows, or it waits with the link down and an empty cache. -/
def InSession : Prop :=
  match s.state with
  | .active ourAddress channel =>
    s.linkState = .up ∧ s.hardwareAddress = ourAddress ∧
      ∃ (r : CommonResources) (now : ℕ) (ops : List SessionOp), r.peerCache.entries = [] ∧
        Runs (CommonResources.Step (config.session ourAddress))
          (r.initializeSessionParameters (config.session ourAddress) channel now) ops s.resources
  | .inactive => s.linkState = .down ∧ s.resources.peerCache.entries = []

/-- No start is given up while a session is asked for. -/
def NoneGivenUp (s : AwdlInterface n) (op : InterfaceOp n) : Prop :=
  op = .dropStart → s.request.state = .inactive

/-- The lock of a session or of a start. -/
def Locked : Prop :=
  s.bringup = true ∨ s.request.state ≠ .inactive →
    s.lmac.offChannel.channelState.Holds config.interface awdlChannel.toNat

variable {config s} {t : AwdlInterface n} {op : InterfaceOp n}

/-- What a step does, with its guards. -/
inductive Progress (config : InterfaceConfig n) (s : AwdlInterface n) :
    InterfaceOp n → AwdlInterface n → Prop
  | beginStart (h : s.bringup = false) : Progress config s .beginStart (s.beginStart config)
  | completeStart (h : s.bringup = true) : Progress config s .completeStart
      { s with
        bssidFilter := some awdlBssid
        receiverAddressFilter := some s.macAddress
        stateSignal := some (.active s.macAddress awdlChannel)
        bringup := false }
  | dropStart (h : s.bringup = true) : Progress config s .dropStart
      { s with lmac := s.lmac.unlock config.interface, bringup := false }
  | stop (h : s.bringup = false) : Progress config s .stop
      { s with
        lmac := s.lmac.unlock config.interface
        bssidFilter := none
        receiverAddressFilter := none
        stateSignal := some .inactive }
  | setMacAddress {macAddress : Address} (h : s.bringup = false) :
      Progress config s (.setMacAddress macAddress) { s with macAddress := macAddress }
  | poll {state : AwdlState} {now : ℕ} (h : s.stateSignal = some state) :
      Progress config s (.poll now) ({ s.leave with stateSignal := none }.enter config state now)
  | session {ourAddress : Address} {channel : UInt8} {op : SessionOp}
      (h : s.state = .active ourAddress channel) : Progress config s (.session op)
      { s with resources := s.resources.step (config.session ourAddress) op }
  | nextEvent : Progress config s .nextEvent
      { s with resources := { s.resources with eventQueue := s.resources.eventQueue.tail } }
  | lmac {op : ChannelOp n} {lmac : ChannelSystem n}
      (hother : s.lmac.caller op ≠ some config.interface)
      (h : ChannelSystem.Step config.valid s.lmac op lmac) :
      Progress config s (.lmac op) { s with lmac := lmac }

theorem step_progress (h : Step config s op t) : Progress config s op t := by
  cases op with
  | beginStart =>
    simp only [Step,next] at h
    split at h
    · cases h
    · rename_i hb
      cases h
      exact .beginStart (Bool.eq_false_of_not_eq_true hb)
  | completeStart =>
    simp only [Step,next] at h
    split at h
    · rename_i hb
      cases h
      exact .completeStart hb
    · cases h
  | dropStart =>
    simp only [Step,next] at h
    split at h
    · rename_i hb
      cases h
      exact .dropStart hb
    · cases h
  | stop =>
    simp only [Step,next] at h
    split at h
    · cases h
    · rename_i hb
      cases h
      exact .stop (Bool.eq_false_of_not_eq_true hb)
  | setMacAddress macAddress =>
    simp only [Step,next] at h
    split at h
    · cases h
    · rename_i hb
      cases h
      exact .setMacAddress (Bool.eq_false_of_not_eq_true hb)
  | poll now =>
    obtain ⟨state,hsignal,rfl⟩ := Option.map_eq_some_iff.mp h
    exact .poll hsignal
  | session op =>
    simp only [Step,next] at h
    split at h
    · rename_i hstate
      cases h
      exact .session hstate
    · cases h
  | nextEvent =>
    cases h
    exact .nextEvent
  | lmac op =>
    simp only [Step,next] at h
    split at h
    · cases h
    · rename_i hother
      obtain ⟨lmac,hlmac,rfl⟩ := Option.map_eq_some_iff.mp h
      exact .lmac hother hlmac

/-- The end of a session concerns its cache and the link. -/
theorem leave_eq (s : AwdlInterface n) : ∃ resources linkState,
    s.leave = { s with resources := resources, linkState := linkState } := by
  unfold leave
  split
  · exact ⟨_,_,rfl⟩
  · exact ⟨s.resources,s.linkState,rfl⟩

/-- It leaves the cache empty and the link down, from wherever it starts. -/
theorem leave_ends (h : s.InSession config) :
    s.leave.resources.peerCache.entries = [] ∧ s.leave.linkState = .down := by
  unfold InSession at h
  unfold leave
  split
  · exact ⟨rfl,rfl⟩
  · rename_i hstate
    simp only [hstate] at h
    exact ⟨h.2,h.1⟩

theorem request_step (h : Step config s op t) : t.request = s.request.step op := by
  cases step_progress h with
  | @poll state now hsignal =>
    obtain ⟨resources,linkState,hleave⟩ := s.leave_eq
    rw [hleave,request,request,hsignal]
    cases state with
    | active ourAddress channel => rfl
    | inactive => rfl
  | _ => rfl

theorem request_of_runs {ops : List (InterfaceOp n)} (hr : Runs (Step config) s ops t) :
    t.request = ops.foldl Request.step s.request := by
  induction hr with
  | refl => rfl
  | step h _ ih => rw [List.foldl_cons,← request_step h,ih]

/-- The filters change with the request and with nothing else. -/
theorem filtersMatch_step (hs : s.FiltersMatch) (h : Step config s op t) : t.FiltersMatch := by
  have hrequest := request_step h
  cases step_progress h with
  | completeStart _ => exact ⟨rfl,rfl⟩
  | stop _ => exact rfl
  | @poll state now hsignal =>
    obtain ⟨resources,linkState,hleave⟩ := s.leave_eq
    have hstate := congrArg Request.state hrequest
    change _ = s.request.state at hstate
    rw [FiltersMatch,hstate,hleave]
    cases state with
    | active ourAddress channel => exact hs
    | inactive => exact hs
  | _ => exact hs

theorem inSession_step (hs : s.InSession config) (h : Step config s op t) :
    t.InSession config := by
  cases step_progress h with
  | @poll state now hsignal =>
    obtain ⟨hempty,hdown⟩ := leave_ends hs
    cases state with
    | active ourAddress channel => exact ⟨rfl,rfl,_,now,[],hempty,.refl _⟩
    | inactive => exact ⟨hdown,hempty⟩
  | @session ourAddress channel op hstate =>
    unfold InSession at hs ⊢
    simp only [hstate] at hs ⊢
    obtain ⟨hlink,haddress,r,now,ops,hempty,hr⟩ := hs
    exact ⟨hlink,haddress,r,now,ops ++ [op],hempty,hr.append (.step rfl (.refl _))⟩
  | nextEvent =>
    cases hstate : s.state with
    | active ourAddress channel =>
      unfold InSession at hs ⊢
      simp only [hstate] at hs ⊢
      obtain ⟨hlink,haddress,r,now,ops,hempty,hr⟩ := hs
      exact ⟨hlink,haddress,r,now,ops ++ [.nextEvent],hempty,hr.append (.step rfl (.refl _))⟩
    | inactive =>
      unfold InSession at hs ⊢
      simp only [hstate] at hs ⊢
      exact hs
  | _ => exact hs

/-- A lock that is held is granted again. -/
theorem beginStart_holds (hv : config.valid awdlChannel.toNat = true)
    (h : s.lmac.offChannel.channelState.Holds config.interface awdlChannel.toNat) :
    (s.beginStart config).lmac.offChannel.channelState.Holds config.interface
      awdlChannel.toNat := by
  obtain ⟨held,hlocks,hi⟩ := h
  have hholder : ∀ held' ch, s.lmac.offChannel.channelState.locks = some (held',ch) →
      ∃ i, held' i = true := by
    intro held' ch hl
    cases hlocks.symm.trans hl
    exact ⟨_,hi⟩
  have hhome : s.lmac.offChannel.channelState.homeChannel = some awdlChannel.toNat := by
    rw [ChannelState.homeChannel,hlocks]
    rfl
  obtain ⟨r,hr⟩ := (ChannelState.acquireLock_ok_iff hholder).mpr (.inr hhome)
  refine ChannelState.lockChannelInternal_holds config.valid ?_
  rcases ChannelState.lockChannelInternal_valid (s := s.lmac.offChannel.channelState)
    (i := config.interface) hv with ⟨e,hacq,-⟩ | ⟨changed,locks,-,hlock⟩
  · cases hr.symm.trans hacq
  · rw [hlock]

theorem locked_step (hv : config.valid awdlChannel.toNat = true) (hs : s.Locked config)
    (h : Guarded NoneGivenUp (Step config) s op t) : t.Locked config := by
  obtain ⟨hok,h⟩ := h
  have hrequest := request_step h
  cases step_progress h with
  | beginStart hb =>
    rintro (hbringup | hactive)
    · refine ChannelState.lockChannelInternal_holds config.valid ?_
      change (match (s.lmac.offChannel.channelState.lockChannelInternal config.valid
        config.interface awdlChannel.toNat).1 with
        | .ok _ => true
        | .error _ => false) = true at hbringup
      split at hbringup
      · assumption
      · cases hbringup
    · rw [hrequest] at hactive
      exact beginStart_holds hv (hs (.inr hactive))
  | completeStart hb => exact fun _ => hs (.inl hb)
  | dropStart hb =>
    rintro (hbringup | hactive)
    · cases hbringup
    · exact absurd (hok rfl) hactive
  | stop hb =>
    rintro (hbringup | hactive)
    · cases hb.symm.trans hbringup
    · exact absurd rfl hactive
  | @poll state now hsignal =>
    obtain ⟨resources,linkState,hleave⟩ := s.leave_eq
    unfold Locked at hs ⊢
    rw [hrequest,hleave]
    cases state with
    | active ourAddress channel => exact hs
    | inactive => exact hs
  | lmac hother hlmac =>
    intro hactive
    exact ChannelSystem.step_holds (hs hactive) hother hlmac
  | _ => exact hs

/-- The interface runs the session that was asked for last, or will at the next poll, in
whatever order requests, polls and the sessions themselves come. Each session is one from the
start, so what holds in every state of a session holds here. As long as no start is given up
while a session is asked for, the channel is locked for it; one that is given up takes the
lock with it, whatever it is about to replace. -/
theorem interface_of_runs {lmac : ChannelSystem n} {factoryMac : Address}
    {ops : List (InterfaceOp n)} (hv : config.valid awdlChannel.toNat = true)
    (hr : Runs (Step config) (new config lmac factoryMac) ops s) :
    s.request = ops.foldl Request.step ⟨factoryMac,.inactive⟩ ∧ s.FiltersMatch ∧
    s.InSession config ∧
    (∀ ourAddress channel, s.state = .active ourAddress channel →
      s.resources.MasterConsistent (config.session ourAddress) ∧
        s.resources.electionState.generateTlvV2.isSome) ∧
    (∀ now t, Step config s (.poll now) t →
      t.state = s.request.state ∧ ∀ now' u, ¬ Step config t (.poll now') u) ∧
    (Runs (Guarded NoneGivenUp (Step config)) (new config lmac factoryMac) ops s →
      s.Locked config) ∧
    ∀ t channel, Step config s .dropStart t →
      ¬ t.lmac.offChannel.channelState.Holds config.interface channel := by
  have hsession : s.InSession config :=
    hr.invariant (I := InSession config) (fun _ _ _ => inSession_step) ⟨rfl,rfl⟩
  refine ⟨request_of_runs hr,?_,hsession,?_,?_,?_,?_⟩
  · exact hr.invariant (I := FiltersMatch) (fun _ _ _ => filtersMatch_step) rfl
  · intro ourAddress channel hstate
    unfold InSession at hsession
    simp only [hstate] at hsession
    obtain ⟨-,-,r,now,ops,-,hr⟩ := hsession
    obtain ⟨hconsistent,hsome,-⟩ := CommonResources.masterConsistent_of_runs hr
    exact ⟨hconsistent,hsome⟩
  · intro now t h
    cases step_progress h with
    | @poll state _ hsignal =>
      have hnone : ({ s.leave with stateSignal := none }.enter config state now).stateSignal =
          none := by
        cases state <;> rfl
      refine ⟨?_,?_⟩
      · rw [request,hsignal]
        cases state <;> rfl
      · intro now' u hpoll
        cases step_progress hpoll with
        | poll hsignal' => cases hnone.symm.trans hsignal'
  · intro hguarded
    refine hguarded.invariant (I := Locked config) (fun _ _ _ => locked_step hv) ?_
    rintro (⟨⟨⟩⟩ | hactive)
    exact absurd rfl hactive
  · intro t channel h
    cases step_progress h with
    | dropStart _ => exact ChannelState.unlockChannel_releases

/-- A start, a session that hears a peer, and a start under another address. -/
def restarted : List (InterfaceOp 1) :=
  [.beginStart,.completeStart,.poll 100,
    .session (.processActionFrame (fun _ => 3)
      { channelSequence := some (.simple (fun _ => 6))
        synchronizationParameters :=
          some (SynchronizationState.generateTlv ⟨fun _ => 6,0⟩ (fun _ => 3) 0 5000)
        txDelta := 0
        electionParametersV2 := none
        electionParameters := some ⟨70,4,fun _ => 4,90⟩
        serviceResponses := [] } 5000 5000),
    .setMacAddress (fun _ => 9),.beginStart,.completeStart,.poll 6000]

theorem interface_of_runs_restarted : ∃ s : AwdlInterface 1,
    s.request = ⟨fun _ => 9,.active (fun _ => 9) 6⟩ ∧ s.hardwareAddress = (fun _ => 9) ∧
    s.resources.peerCache.entries = [] ∧
    s.FiltersMatch ∧ s.Locked ⟨0,fun _ => true,⟨some 16,fun keys _ => keys.length⟩,4⟩ := by
  let config : InterfaceConfig 1 := ⟨0,fun _ => true,⟨some 16,fun keys _ => keys.length⟩,4⟩
  have hr : Runs (Guarded NoneGivenUp (Step config)) (new config (.new 1) (fun _ => 1)) restarted
      _ :=
    .step ⟨by rintro ⟨⟩,rfl⟩ (.step ⟨by rintro ⟨⟩,rfl⟩ (.step ⟨by rintro ⟨⟩,rfl⟩
      (.step ⟨by rintro ⟨⟩,rfl⟩ (.step ⟨by rintro ⟨⟩,rfl⟩ (.step ⟨by rintro ⟨⟩,rfl⟩
        (.step ⟨by rintro ⟨⟩,rfl⟩ (.step ⟨by rintro ⟨⟩,rfl⟩ (.refl _))))))))
  obtain ⟨hrequest,hfilters,-,-,-,hlocked,-⟩ := interface_of_runs rfl hr.of_guarded
  exact ⟨_,hrequest,rfl,rfl,hfilters,hlocked hr⟩

end AwdlInterface

end FerrisOnAir.Awdl

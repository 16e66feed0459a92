import FerrisOnAir.Foundation.Signal
import FerrisOnAir.Sta.Connection

/-! # The runner and the connection state

`ConnectionStateTracker` of `foa_sta/src/connection_state.rs` with the one task that waits on
it, the loop of `ConnectionRunner::run`. A poll of the task goes as far as it can; whether
`run_connection` ends in it is part of the label. The executor polls the task only when it is
scheduled, which it also is by the other futures of the loop.
-/
namespace FerrisOnAir.Sta

/-- The tracker, and the runner with whether it is scheduled and the link it has reported. It is
nowhere before its first poll. -/
structure TrackerSystem where
  connectionState : ConnectionState
  connectionStateSignal : Signal
  scheduled : Bool
  runner : Option RunnerTask
  linkUp : Bool
deriving DecidableEq

inductive TrackerOp
  | signalState (newState : ConnectionState)
  | wake
  | poll (ended : Option DisconnectionReason)

def ConnectionState.connectionInfo : ConnectionState → Option ConnectionInfo
  | connected info => some info
  | disconnected _ => none

def ConnectionState.disconnectionReason : ConnectionState → Option DisconnectionReason
  | connected _ => none
  | disconnected reason => some reason

namespace TrackerSystem
variable (s : TrackerSystem)

def new : TrackerSystem := ⟨.disconnected .user,.none,true,none,false⟩

def connected : Bool := s.connectionState.connectionInfo.isSome

def signalState (newState : ConnectionState) : TrackerSystem := { s with
  connectionState := newState
  connectionStateSignal := s.connectionStateSignal.signal.1
  scheduled := s.scheduled || s.connectionStateSignal.signal.2 }

/-- The end of a connection, up to the next wait. -/
def disconnect (reason : DisconnectionReason) : TrackerSystem :=
  let ended := s.signalState (.disconnected reason)
  { ended with
    connectionStateSignal := (ended.connectionStateSignal.enterWait ended.connected).2
    runner := some .waitingForConnection
    linkUp := false }

/-- A poll of the select, in which waiting for the disconnection comes first. -/
def select (wait : Bool × Signal) (ended : Option DisconnectionReason) : TrackerSystem :=
  let polled := { s with connectionStateSignal := wait.2 }
  match (if wait.1 then s.connectionState.disconnectionReason else none).or ended with
  | some reason => polled.disconnect reason
  | none => polled

/-- What follows a poll of the wait for a connection. -/
def connect (wait : Bool × Signal) (ended : Option DisconnectionReason) : TrackerSystem :=
  match (if wait.1 then s.connectionState.connectionInfo else none) with
  | some info =>
    { s with runner := some (.running info), linkUp := true }.select
      (wait.2.enterWait (!s.connected)) ended
  | none => { s with connectionStateSignal := wait.2, runner := some .waitingForConnection }

def poll (ended : Option DisconnectionReason) : TrackerSystem :=
  let polled := { s with scheduled := false }
  match s.runner with
  | none => polled.connect (s.connectionStateSignal.enterWait s.connected) ended
  | some .waitingForConnection =>
    polled.connect (s.connectionStateSignal.waitUntil s.connected) ended
  | some (.running _) =>
    polled.select (s.connectionStateSignal.waitUntil (!s.connected)) ended

def next : TrackerOp → Option TrackerSystem
  | .signalState newState => some (s.signalState newState)
  | .wake => some { s with scheduled := true }
  | .poll ended => if s.scheduled then some (s.poll ended) else none

def Step (s : TrackerSystem) (op : TrackerOp) (t : TrackerSystem) : Prop := s.next op = some t

/-- What the runner is suspended for, and what it has reported. -/
def Suspended (s : TrackerSystem) : Prop :=
  match s.runner with
  | none => s.scheduled = true ∧ s.linkUp = false
  | some .waitingForConnection =>
    s.connectionStateSignal.Awaits s.connected s.scheduled ∧ s.linkUp = false
  | some (.running _) =>
    s.connectionStateSignal.Awaits (!s.connected) s.scheduled ∧ s.linkUp = true

def Running (s : TrackerSystem) : Prop := ∃ info, s.runner = some (.running info)

/-- The runner runs no other connection than the present one. -/
def Follows (s : TrackerSystem) : Prop := ∀ info info', s.runner = some (.running info) →
  s.connectionState = .connected info' → info' = info

/-- A new connection is signalled only once the runner has seen the end of the last one. -/
def Handed (s : TrackerSystem) (op : TrackerOp) : Prop := ∀ info info',
  s.runner = some (.running info) → op = .signalState (.connected info') → info' = info

variable {s} {t : TrackerSystem} {op : TrackerOp}

/-- After the end of a connection the runner waits for the next one. -/
structure Waits (t : TrackerSystem) : Prop where
  runner : t.runner = some .waitingForConnection
  signal : t.connectionStateSignal = .waiting
  connected : t.connected = false
  linkUp : t.linkUp = false

/-- It runs the present connection. -/
structure Serves (t : TrackerSystem) (info : ConnectionInfo) : Prop where
  runner : t.runner = some (.running info)
  signal : t.connectionStateSignal = .waiting
  connected : t.connected = true
  linkUp : t.linkUp = true

theorem connected_iff : s.connected = true ↔ ∃ info, s.connectionState = .connected info := by
  unfold connected
  cases s.connectionState with
  | connected info => exact iff_of_true rfl ⟨info,rfl⟩
  | disconnected reason => exact iff_of_false Bool.false_ne_true (by rintro ⟨info,⟨⟩⟩)

theorem waits_disconnect (reason : DisconnectionReason) : (s.disconnect reason).Waits where
  runner := rfl
  signal := by
    change (Signal.enterWait _ false).2 = _
    rw [Signal.enterWait_false]
  connected := rfl
  linkUp := rfl

/-- A poll of the select that does not end it leaves all but the signal as it is. -/
theorem select_cases (wait : Bool × Signal) (ended : Option DisconnectionReason) :
    (s.select wait ended).Waits ∨ (s.select wait ended = { s with connectionStateSignal := wait.2 } ∧
      ended = none ∧ (wait.1 = true → s.connected = true)) := by
  unfold select
  split
  · exact Or.inl (waits_disconnect _)
  · rename_i hnone
    obtain ⟨hwait,hended⟩ := Option.or_eq_none_iff.mp hnone
    refine Or.inr ⟨rfl,hended,fun hreturned => ?_⟩
    rw [hreturned,if_pos rfl] at hwait
    unfold connected
    cases hstate : s.connectionState with
    | connected info => rfl
    | disconnected reason =>
      rw [hstate] at hwait
      cases hwait

theorem connect_waits (h : s.connected = false) (hdown : s.linkUp = false)
    (ended : Option DisconnectionReason) : (s.connect (false,.waiting) ended).Waits :=
  ⟨rfl,rfl,h,hdown⟩

/-- A connection that is found is run at once, unless it ends at once. -/
theorem connect_serves (h : s.connected = true) (signal : Signal)
    (ended : Option DisconnectionReason) : (s.connect (true,signal) ended).Waits ∨
      ∃ info, s.connectionState = .connected info ∧ (s.connect (true,signal) ended).Serves info ∧
        (s.connect (true,signal) ended).connectionState = s.connectionState := by
  obtain ⟨info,hinfo⟩ := connected_iff.mp h
  have hconnect : s.connect (true,signal) ended =
      select { s with runner := some (.running info), linkUp := true } (false,.waiting) ended := by
    unfold connect
    rw [hinfo,h,Bool.not_true,Signal.enterWait_false]
    rfl
  rw [hconnect]
  rcases select_cases (s := { s with runner := some (.running info), linkUp := true }) (false,.waiting)
      ended with
    hwaits | ⟨hsame,-,-⟩
  · exact Or.inl hwaits
  · rw [hsame]
    exact Or.inr ⟨info,hinfo,⟨rfl,rfl,h,rfl⟩,rfl⟩

theorem poll_none (h : s.runner = none) (ended : Option DisconnectionReason) : s.poll ended =
    connect { s with scheduled := false } (s.connectionStateSignal.enterWait s.connected) ended := by
  unfold poll
  rw [h]

theorem poll_waiting (h : s.runner = some .waitingForConnection)
    (ended : Option DisconnectionReason) : s.poll ended =
    connect { s with scheduled := false } (s.connectionStateSignal.waitUntil s.connected) ended := by
  unfold poll
  rw [h]

theorem poll_running {info : ConnectionInfo} (h : s.runner = some (.running info))
    (ended : Option DisconnectionReason) : s.poll ended =
    select { s with scheduled := false } (s.connectionStateSignal.waitUntil (!s.connected)) ended := by
  unfold poll
  rw [h]

/-- What a poll can lead to: the runner waits without a connection, or runs one, the present one
or else the one that it ran before. -/
def Polled (s t : TrackerSystem) : Prop :=
  t.Waits ∨ ∃ info, t.Serves info ∧ t.connectionState = s.connectionState ∧
    (s.connectionState = .connected info ∨ s.runner = some (.running info))

theorem polled_connect {wait : Bool × Signal} (ended : Option DisconnectionReason)
    (hwait : s.connected = true ∧ wait.1 = true ∨ s.connected = false ∧ wait = (false,.waiting))
    (hdown : s.linkUp = false) : Polled s (connect { s with scheduled := false } wait ended) := by
  obtain ⟨returned,signal⟩ := wait
  rcases hwait with ⟨hconnected,hreturned⟩ | ⟨hconnected,hwait⟩
  · obtain rfl : returned = true := hreturned
    rcases connect_serves (s := { s with scheduled := false }) hconnected signal ended with
      hwaits | ⟨info,hinfo,hserves,hsame⟩
    · exact Or.inl hwaits
    · exact Or.inr ⟨info,hserves,hsame,Or.inl hinfo⟩
  · rw [hwait]
    exact Or.inl (connect_waits (s := { s with scheduled := false }) hconnected hdown ended)

theorem polled_select {info : ConnectionInfo} (hrunner : s.runner = some (.running info))
    (ended : Option DisconnectionReason) (hup : s.linkUp = true)
    (hs : s.connectionStateSignal.Awaits (!s.connected) s.scheduled) :
    Polled s (select { s with scheduled := false }
      (s.connectionStateSignal.waitUntil (!s.connected)) ended) := by
  rcases select_cases (s := { s with scheduled := false })
    (s.connectionStateSignal.waitUntil (!s.connected)) ended with
    hwaits | ⟨hsame,-,hgoes⟩
  · exact Or.inl hwaits
  · rw [hsame]
    refine Or.inr ⟨info,?_,rfl,Or.inr hrunner⟩
    rcases Signal.waitUntil_cases hs with ⟨hdone,hwait⟩ | ⟨hdone,hwait⟩
    · rw [hwait] at hgoes
      have hconnected : s.connected = true := hgoes rfl
      rw [hconnected] at hdone
      cases hdone
    · rw [hwait]
      exact ⟨hrunner,rfl,Bool.not_eq_eq_eq_not.mp hdone,hup⟩

theorem polled_poll (hs : s.Suspended) (ended : Option DisconnectionReason) :
    Polled s (s.poll ended) := by
  unfold Suspended at hs
  cases hrunner : s.runner with
  | none =>
    rw [hrunner] at hs
    rw [poll_none hrunner]
    refine polled_connect ended ?_ hs.2
    cases s.connected with
    | true => exact Or.inl ⟨rfl,rfl⟩
    | false => exact Or.inr ⟨rfl,Signal.enterWait_false⟩
  | some task =>
    rw [hrunner] at hs
    cases task with
    | waitingForConnection =>
      rw [poll_waiting hrunner]
      refine polled_connect ended ?_ hs.2
      rcases Signal.waitUntil_cases hs.1 with ⟨hconnected,hwait⟩ | ⟨hconnected,hwait⟩
      · exact Or.inl ⟨hconnected,by rw [hwait]⟩
      · exact Or.inr ⟨hconnected,hwait⟩
    | running info =>
      rw [poll_running hrunner]
      exact polled_select hrunner ended hs.2 hs.1

theorem Waits.suspended (h : t.Waits) : t.Suspended := by
  unfold Suspended
  rw [h.runner,h.signal,h.connected]
  exact ⟨Signal.awaits_waiting _,h.linkUp⟩

theorem Serves.suspended {info : ConnectionInfo} (h : t.Serves info) : t.Suspended := by
  unfold Suspended
  rw [h.runner,h.signal,h.connected]
  exact ⟨Signal.awaits_waiting _,h.linkUp⟩

theorem suspended_step (hs : s.Suspended) (h : Step s op t) : t.Suspended := by
  cases op with
  | signalState newState =>
    cases h
    unfold Suspended at hs ⊢
    change match s.runner with
      | none => _
      | some .waitingForConnection => _
      | some (.running _) => _
    cases hrunner : s.runner with
    | none =>
      rw [hrunner] at hs
      refine ⟨?_,hs.2⟩
      change (s.scheduled || _) = true
      rw [hs.1]
      rfl
    | some task =>
      rw [hrunner] at hs
      cases task with
      | waitingForConnection => exact ⟨hs.1.signal _,hs.2⟩
      | running info => exact ⟨hs.1.signal _,hs.2⟩
  | wake =>
    cases h
    unfold Suspended at hs ⊢
    change match s.runner with
      | none => _
      | some .waitingForConnection => _
      | some (.running _) => _
    cases hrunner : s.runner with
    | none =>
      rw [hrunner] at hs
      exact ⟨rfl,hs.2⟩
    | some task =>
      rw [hrunner] at hs
      cases task with
      | waitingForConnection => exact ⟨hs.1.wake,hs.2⟩
      | running info => exact ⟨hs.1.wake,hs.2⟩
  | poll ended =>
    obtain ⟨-,h⟩ := Option.ite_none_right_eq_some.mp h
    cases h
    rcases polled_poll hs ended with hwaits | ⟨info,hserves,-,-⟩
    · exact hwaits.suspended
    · exact hserves.suspended

theorem suspended_new : new.Suspended := ⟨rfl,rfl⟩

theorem suspended_of_runs {ops : List TrackerOp} (hr : Runs Step new ops s) : s.Suspended :=
  hr.invariant (fun _ _ _ => suspended_step) suspended_new

theorem Waits.not_running (h : t.Waits) : ¬ t.Running := by
  rintro ⟨info,hinfo⟩
  rw [h.runner] at hinfo
  cases hinfo

/-- Only a signal can make the runner run another connection than the present one. -/
theorem step_follows_iff (hs : s.Suspended) (hf : s.Follows) (h : Step s op t) :
    t.Follows ↔ s.Handed op := by
  cases op with
  | signalState newState =>
    cases h
    constructor
    · rintro ht info info' hrunner ⟨⟩
      exact ht info info' hrunner rfl
    · intro hhanded info info' hrunner hstate
      exact hhanded info info' hrunner (congrArg TrackerOp.signalState hstate)
  | wake =>
    cases h
    exact iff_of_true hf (fun _ _ _ hop => by cases hop)
  | poll ended =>
    obtain ⟨-,h⟩ := Option.ite_none_right_eq_some.mp h
    cases h
    refine iff_of_true ?_ (fun _ _ _ hop => by cases hop)
    intro info info' hrunner hstate
    rcases polled_poll hs ended with hwaits | ⟨served,hserves,hsame,hwhich⟩
    · exact absurd ⟨info,hrunner⟩ hwaits.not_running
    · rw [hserves.runner] at hrunner
      cases hrunner
      rw [hsame] at hstate
      rcases hwhich with hpresent | hbefore
      · rw [hpresent] at hstate
        cases hstate
        rfl
      · exact hf _ _ hbefore hstate

theorem linkUp_iff (hs : s.Suspended) : s.linkUp = true ↔ s.Running := by
  unfold Suspended at hs
  unfold Running
  cases hrunner : s.runner with
  | none =>
    rw [hrunner] at hs
    exact iff_of_false (by rw [hs.2]; exact Bool.false_ne_true) (by rintro ⟨info,⟨⟩⟩)
  | some task =>
    rw [hrunner] at hs
    cases task with
    | waitingForConnection =>
      exact iff_of_false (by rw [hs.2]; exact Bool.false_ne_true) (by rintro ⟨info,⟨⟩⟩)
    | running info => exact iff_of_true hs.2 ⟨info,rfl⟩

/-- No wakeup is lost. -/
theorem scheduled_of_suspended (hs : s.Suspended) (h : ¬ (s.Running ↔ s.connected = true)) :
    s.scheduled = true := by
  unfold Suspended at hs
  cases hrunner : s.runner with
  | none =>
    rw [hrunner] at hs
    exact hs.1
  | some task =>
    rw [hrunner] at hs
    cases task with
    | waitingForConnection =>
      refine hs.1.isScheduled ?_
      by_contra hnot
      refine h (iff_of_false ?_ hnot)
      rintro ⟨info,hinfo⟩
      rw [hrunner] at hinfo
      cases hinfo
    | running info =>
      refine hs.1.isScheduled ?_
      cases hconnected : s.connected with
      | true => exact absurd (iff_of_true ⟨info,hrunner⟩ hconnected) h
      | false => rfl

/-- A poll brings the runner to where the state is, or ends the connection. -/
theorem running_poll_iff (hs : s.Suspended) (ended : Option DisconnectionReason) :
    (s.poll ended).Running ↔ (s.poll ended).connected = true := by
  rcases polled_poll hs ended with hwaits | ⟨info,hserves,-,-⟩
  · exact iff_of_false hwaits.not_running (by rw [hwaits.connected]; exact Bool.false_ne_true)
  · exact iff_of_true ⟨info,hserves.runner⟩ hserves.connected

/-- After every run the link is reported as up exactly while the runner runs a connection. Where
that is not what the state says, the runner is scheduled, and its next poll settles it. It runs
none but the present connection exactly if none is signalled before it has seen the end of the
last one. -/
theorem link_of_runs {ops : List TrackerOp} (hr : Runs Step new ops s) :
    (s.linkUp = true ↔ s.Running) ∧
      (¬ (s.linkUp = true ↔ s.connected = true) → s.scheduled = true) ∧
      (∀ ended t, Step s (.poll ended) t → (t.linkUp = true ↔ t.connected = true)) ∧
      (Runs (Within Follows Step) new ops s ↔ Runs (Guarded Handed Step) new ops s) := by
  have hs := suspended_of_runs hr
  refine ⟨linkUp_iff hs,?_,?_,?_⟩
  · rw [linkUp_iff hs]
    exact scheduled_of_suspended hs
  · intro ended t h
    rw [linkUp_iff (suspended_step hs h)]
    obtain ⟨-,h⟩ := Option.ite_none_right_eq_some.mp h
    cases h
    exact running_poll_iff hs ended
  · refine Runs.within_iff_guarded (fun _ _ _ => suspended_step)
      (fun _ _ _ => step_follows_iff) suspended_new ?_
    intro info info' hrunner
    cases hrunner

/-- The beacon timeout ends a connection that the control side has ended in the meantime, and the
runner waits for the next one. -/
theorem link_of_runs_again : ∃ s, Runs Step new
    [.poll none,.signalState (.connected ⟨⟨0,1,.wpa2⟩,2⟩),.poll none,
      .signalState (.disconnected .user),.poll (some .beaconTimeout),
      .signalState (.connected ⟨⟨3,6,.wpa2⟩,2⟩)] s ∧
    s.linkUp = false ∧ s.connected = true ∧ s.scheduled = true := by
  refine Runs.exists_of_execute (fun _ _ _ h => h)
    (fun s => s.linkUp = false ∧ s.connected = true) (by decide) ?_
  rintro s hr ⟨hdown,hconnected⟩
  refine ⟨hdown,hconnected,(link_of_runs hr).2.1 ?_⟩
  rw [hdown,hconnected]
  exact fun h => Bool.false_ne_true (h.mpr rfl)

end TrackerSystem

end FerrisOnAir.Sta

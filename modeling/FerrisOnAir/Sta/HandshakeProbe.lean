import FerrisOnAir.Foundation.RingLog
import FerrisOnAir.Foundation.Runs

/-! # The handshake recorder

`foa_sta/src/handshake_probe.rs`: the events of a connection attempt in a ring of 64 cells,
with the time of each phase and counters of what was routed. A reset begins a new attempt. The
recorder is compared with an unbounded log of the attempt, of which a snapshot shows the end.
Sums wrap, as the release profile has no overflow checks.
-/
namespace FerrisOnAir.Sta
open RingLog

structure HandshakeEvent where
  us : ℕ
  phase : ℕ
  kind : ℕ
  a : ℕ
  b : ℕ
deriving DecidableEq

structure HandshakeSnapshot where
  phase : ℕ
  phaseUs : Fin 11 → ℕ
  queues : ℕ × ℕ
  eapolRouted : ℕ
  eapolDropped : ℕ
  routeFailures : ℕ
  events : Fin 64 → HandshakeEvent
  totalEvents : ℕ

def HandshakeSnapshot.empty : HandshakeSnapshot where
  phase := 0
  phaseUs := fun _ => 2 ^ 32 - 1
  queues := (0,0)
  eapolRouted := 0
  eapolDropped := 0
  routeFailures := 0
  events := fun _ => ⟨0,0,0,0,0⟩
  totalEvents := 0

/-- The `State` of the recorder. -/
structure HandshakeProbe where
  start : ℕ
  snapshot : HandshakeSnapshot

/-- The calls of the recorder. Every caller names a phase that there is. -/
inductive HandshakeProbeOp
  | reset
  | phase (phase : Fin 11)
  | event (kind a b : ℕ)
  | routed (kind : ℕ) (success : Bool) (queues : ℕ × ℕ)

/-- `wrapping_sub` on two clocks of 32 bits. -/
def wrappingSub (a b : ℕ) : ℕ := (a + (2 ^ 32 - b)) % 2 ^ 32

def wrappingSucc (a : ℕ) : ℕ := (a + 1) % 2 ^ 32

/-- The queue lengths in one word, the first above the second. -/
def packQueues (queues : ℕ × ℕ) : ℕ :=
  (queues.1 % 2 ^ 32 * 2 ^ 16) % 2 ^ 32 ||| queues.2 % 2 ^ 32

namespace HandshakeProbe
variable (s : HandshakeProbe)

def new : HandshakeProbe := ⟨0,.empty⟩

def append (now kind a b : ℕ) : HandshakeProbe :=
  { s with snapshot := { s.snapshot with
      events := Function.update s.snapshot.events
        ⟨s.snapshot.totalEvents % 64,Nat.mod_lt _ (by decide)⟩
        ⟨wrappingSub now s.start,s.snapshot.phase,kind,a,b⟩
      totalEvents := wrappingSucc s.snapshot.totalEvents } }

def phase (phase : Fin 11) (now : ℕ) : HandshakeProbe :=
  append { s with snapshot := { s.snapshot with
      phase := phase
      phaseUs := Function.update s.snapshot.phaseUs phase (wrappingSub now s.start) } }
    now 1 phase 0

/-- What a routed frame counts for. -/
def count (kind : ℕ) (success : Bool) (queues : ℕ × ℕ) : HandshakeProbe :=
  { s with snapshot := { s.snapshot with
      queues := queues
      routeFailures :=
        if success then s.snapshot.routeFailures else wrappingSucc s.snapshot.routeFailures
      eapolRouted := if kind = 1 ∧ success = true then wrappingSucc s.snapshot.eapolRouted
        else s.snapshot.eapolRouted
      eapolDropped := if kind = 1 ∧ success = false then wrappingSucc s.snapshot.eapolDropped
        else s.snapshot.eapolDropped } }

/-- After local completion ordinary traffic is left out. -/
def routed (kind : ℕ) (success : Bool) (queues : ℕ × ℕ) (now : ℕ) : HandshakeProbe :=
  if s.snapshot.phase = 10 ∧ kind = 0 then s
  else
    let s' := s.count kind success queues
    if kind = 0 then s'
    else s'.append now (if kind = 1 then 6 else 7) (kind * 2 ^ 8 ||| success.toNat)
      (packQueues queues)

/-- A call at a time on the clock of 32 bits. -/
def step : HandshakeProbeOp → ℕ → HandshakeProbe
  | .reset,now => ⟨now,.empty⟩
  | .phase phase,now => s.phase phase now
  | .event kind a b,now => s.append now kind a b
  | .routed kind success queues,now => s.routed kind success queues now

def Step (s : HandshakeProbe) (op : HandshakeProbeOp × ℕ) (t : HandshakeProbe) : Prop :=
  t = s.step op.1 op.2

end HandshakeProbe

/-- A connection attempt without bounds: every event, every phase with its time and every
routed frame that counts, in their order. -/
structure AttemptLog where
  start : ℕ
  events : List HandshakeEvent
  phases : List (Fin 11 × ℕ)
  routes : List (ℕ × Bool × (ℕ × ℕ))

namespace AttemptLog
variable (log : AttemptLog)

def new : AttemptLog := ⟨0,[],[],[]⟩

/-- The phase that the attempt is in. -/
def current : ℕ := (log.phases.getLast?.map (fun phase => phase.1.val)).getD 0

def elapsed (now : ℕ) : ℕ := wrappingSub now log.start

def record (now phase kind a b : ℕ) : AttemptLog :=
  { log with events := log.events ++ [⟨log.elapsed now,phase,kind,a,b⟩] }

def step : HandshakeProbeOp → ℕ → AttemptLog
  | .reset,now => ⟨now,[],[],[]⟩
  | .phase phase,now => { log.record now phase 1 phase 0 with
      phases := log.phases ++ [(phase,log.elapsed now)] }
  | .event kind a b,now => log.record now log.current kind a b
  | .routed kind success queues,now =>
    if log.current = 10 ∧ kind = 0 then log
    else if kind = 0 then { log with routes := log.routes ++ [(kind,success,queues)] }
    else { log.record now log.current (if kind = 1 then 6 else 7)
        (kind * 2 ^ 8 ||| success.toNat) (packQueues queues) with
      routes := log.routes ++ [(kind,success,queues)] }

/-- The attempt that a sequence of calls is about: a reset forgets the one before. -/
def ofCalls (calls : List (HandshakeProbeOp × ℕ)) : AttemptLog :=
  calls.foldl (fun log call => log.step call.1 call.2) new

def eapolRouted : ℕ := log.routes.countP (fun route => route.1 = 1 ∧ route.2.1 = true)

def eapolDropped : ℕ := log.routes.countP (fun route => route.1 = 1 ∧ route.2.1 = false)

def routeFailures : ℕ := log.routes.countP (fun route => route.2.1 = false)

/-- When the attempt was last in a phase, as far as it was. -/
def phaseUs (phase : Fin 11) : ℕ :=
  ((log.phases.reverse.find? (fun entry => entry.1 = phase)).map Prod.snd).getD (2 ^ 32 - 1)

end AttemptLog

/-- What a snapshot shows of an attempt. -/
structure HandshakeProbe.Shows (s : HandshakeProbe) (log : AttemptLog) : Prop where
  start : s.start = log.start
  phase : s.snapshot.phase = log.current
  phaseUs : s.snapshot.phaseUs = log.phaseUs
  queues : s.snapshot.queues = (log.routes.getLast?.map (fun route => route.2.2)).getD (0,0)
  eapolRouted : s.snapshot.eapolRouted = log.eapolRouted % 2 ^ 32
  eapolDropped : s.snapshot.eapolDropped = log.eapolDropped % 2 ^ 32
  routeFailures : s.snapshot.routeFailures = log.routeFailures % 2 ^ 32
  totalEvents : s.snapshot.totalEvents = log.events.length % 2 ^ 32
  events : HoldsEnd s.snapshot.events log.events

/-- How a snapshot is read: the cells from the oldest one that the total leaves. -/
def HandshakeSnapshot.recent (snapshot : HandshakeSnapshot) : List HandshakeEvent :=
  readEnd (by decide) snapshot.events snapshot.totalEvents

namespace HandshakeProbe
variable {s : HandshakeProbe} {log : AttemptLog}

theorem wrappingSucc_mod (n : ℕ) : wrappingSucc (n % 2 ^ 32) = (n + 1) % 2 ^ 32 := by
  rw [wrappingSucc,Nat.mod_add_mod]

/-- The cell of the next event is that of its number, since 64 divides the size of a word. -/
theorem totalEvents_mod (h : s.Shows log) :
    s.snapshot.totalEvents % 64 = log.events.length % 64 := by
  rw [h.totalEvents,Nat.mod_mod_of_dvd _ (by decide)]

theorem shows_append (h : s.Shows log) (now kind a b : ℕ) :
    (s.append now kind a b).Shows (log.record now log.current kind a b) where
  start := h.start
  phase := h.phase
  phaseUs := h.phaseUs
  queues := h.queues
  eapolRouted := h.eapolRouted
  eapolDropped := h.eapolDropped
  routeFailures := h.routeFailures
  totalEvents := by
    change wrappingSucc s.snapshot.totalEvents = (log.events ++ [_]).length % 2 ^ 32
    rw [h.totalEvents,wrappingSucc_mod,List.length_append,List.length_singleton]
  events := by
    change HoldsEnd (Function.update s.snapshot.events _
      ⟨wrappingSub now s.start,s.snapshot.phase,kind,a,b⟩) (log.events ++ [_])
    rw [h.start,h.phase]
    exact h.events.push _ (totalEvents_mod h)

/-- Entering a phase, before its event. -/
theorem shows_enter (h : s.Shows log) (phase : Fin 11) (us : ℕ) :
    Shows { s with snapshot := { s.snapshot with
        phase := phase
        phaseUs := Function.update s.snapshot.phaseUs phase us } }
      { log with phases := log.phases ++ [(phase,us)] } where
  start := h.start
  phase := by
    change phase.val = ((log.phases ++ [(phase,us)]).getLast?.map _).getD 0
    rw [List.getLast?_concat]
    rfl
  phaseUs := by
    funext p
    change Function.update s.snapshot.phaseUs phase us p =
      (((log.phases ++ [(phase,us)]).reverse.find? (fun entry => entry.1 = p)).map
        Prod.snd).getD (2 ^ 32 - 1)
    rw [List.reverse_concat,List.find?_cons]
    by_cases hp : phase = p
    · subst hp
      simp
    · rw [Function.update_of_ne (Ne.symm hp),h.phaseUs]
      simp [hp,AttemptLog.phaseUs]
  queues := h.queues
  eapolRouted := h.eapolRouted
  eapolDropped := h.eapolDropped
  routeFailures := h.routeFailures
  totalEvents := h.totalEvents
  events := h.events

/-- A counter that follows the number of routes with a property. -/
theorem count_concat {routes : List (ℕ × Bool × (ℕ × ℕ))} {p : ℕ × Bool × (ℕ × ℕ) → Bool}
    {counter : ℕ} (h : counter = routes.countP p % 2 ^ 32) (route : ℕ × Bool × (ℕ × ℕ)) :
    (if p route then wrappingSucc counter else counter) =
      (routes ++ [route]).countP p % 2 ^ 32 := by
  rw [List.countP_append,List.countP_singleton]
  split
  · rw [h,wrappingSucc_mod]
  · exact h

theorem shows_count (h : s.Shows log) (kind : ℕ) (success : Bool) (queues : ℕ × ℕ) :
    (s.count kind success queues).Shows
      { log with routes := log.routes ++ [(kind,success,queues)] } where
  start := h.start
  phase := h.phase
  phaseUs := h.phaseUs
  queues := by
    change queues = ((log.routes ++ [(kind,success,queues)]).getLast?.map _).getD (0,0)
    rw [List.getLast?_concat]
    rfl
  eapolRouted := by
    rw [AttemptLog.eapolRouted,← count_concat h.eapolRouted]
    simp [count]
  eapolDropped := by
    rw [AttemptLog.eapolDropped,← count_concat h.eapolDropped]
    simp [count]
  routeFailures := by
    rw [AttemptLog.routeFailures,← count_concat h.routeFailures]
    cases success <;> simp [count]
  totalEvents := h.totalEvents
  events := h.events

theorem shows_empty (start : ℕ) : Shows ⟨start,.empty⟩ ⟨start,[],[],[]⟩ where
  start := rfl
  phase := rfl
  phaseUs := rfl
  queues := rfl
  eapolRouted := rfl
  eapolDropped := rfl
  routeFailures := rfl
  totalEvents := rfl
  events := holdsEnd_nil _

/-- Every call shows in the snapshot what it adds to the log of the attempt. -/
theorem shows_step (h : s.Shows log) (op : HandshakeProbeOp) (now : ℕ) :
    (s.step op now).Shows (log.step op now) := by
  cases op with
  | reset => exact shows_empty now
  | phase phase =>
    have henter := shows_append (shows_enter h phase (wrappingSub now s.start)) now 1 phase 0
    have hcurrent : AttemptLog.current
        { log with phases := log.phases ++ [(phase,wrappingSub now s.start)] } = phase := by
      rw [AttemptLog.current,List.getLast?_concat]
      rfl
    rw [hcurrent,h.start] at henter
    rw [step,HandshakeProbe.phase,h.start]
    exact henter
  | event kind a b => exact shows_append h now kind a b
  | routed kind success queues =>
    simp only [step,routed,AttemptLog.step,h.phase]
    by_cases hskip : log.current = 10 ∧ kind = 0
    · rw [if_pos hskip,if_pos hskip]
      exact h
    · rw [if_neg hskip,if_neg hskip]
      have hcount := shows_count h kind success queues
      by_cases hkind : kind = 0
      · rw [if_pos hkind,if_pos hkind]
        exact hcount
      · rw [if_neg hkind,if_neg hkind]
        exact shows_append hcount now _ _ _

theorem shows_of_runs {calls : List (HandshakeProbeOp × ℕ)} (h : s.Shows log)
    {t : HandshakeProbe} (hr : Runs Step s calls t) :
    t.Shows (calls.foldl (fun log call => log.step call.1 call.2) log) := by
  induction hr generalizing log with
  | refl => exact h
  | step he _ ih =>
    subst he
    exact ih (shows_step h _ _)

/-- A snapshot taken at any time shows the attempt since the last reset: its phase and when
each phase was entered last, how many frames were routed and dropped, and its last events in
their order, 64 of them or as many as there are. Only after 2 ^ 32 events it may show less. -/
theorem snapshot_shows {calls : List (HandshakeProbeOp × ℕ)} (hr : Runs Step new calls s) :
    let log := AttemptLog.ofCalls calls
    s.snapshot.phase = log.current ∧ s.snapshot.phaseUs = log.phaseUs ∧
    s.snapshot.eapolRouted = log.eapolRouted % 2 ^ 32 ∧
    s.snapshot.eapolDropped = log.eapolDropped % 2 ^ 32 ∧
    s.snapshot.routeFailures = log.routeFailures % 2 ^ 32 ∧
    s.snapshot.recent =
      log.events.drop (log.events.length - min (log.events.length % 2 ^ 32) 64) ∧
    (log.events.length < 2 ^ 32 →
      s.snapshot.recent = log.events.drop (log.events.length - 64)) := by
  intro log
  have h : s.Shows log := shows_of_runs (shows_empty 0) hr
  have hrecent : s.snapshot.recent =
      log.events.drop (log.events.length - min (log.events.length % 2 ^ 32) 64) := by
    rw [HandshakeSnapshot.recent,h.events.readEnd_eq _ _ (totalEvents_mod h),h.totalEvents]
    rw [h.totalEvents]
    exact Nat.mod_le _ _
  refine ⟨h.phase,h.phaseUs,h.eapolRouted,h.eapolDropped,h.routeFailures,hrecent,?_⟩
  intro hlt
  rw [hrecent,Nat.mod_eq_of_lt hlt]
  refine congrArg (log.events.drop ·) ?_
  omega

/-- A second attempt, with a frame that was dropped and one that was not. -/
theorem snapshot_shows_second : ∃ s : HandshakeProbe,
    Runs Step new [(.phase 10,90),(.reset,100),(.phase 0,110),(.routed 1 false (16,0),120),
      (.routed 2 true (1,0),130)] s ∧
    s.snapshot.phase = 0 ∧ s.snapshot.eapolDropped = 1 ∧ s.snapshot.routeFailures = 1 ∧
    s.snapshot.recent = [⟨10,0,1,0,0⟩,⟨20,0,6,256,1048576⟩,⟨30,0,7,513,65536⟩] := by
  have hr : Runs Step new [(.phase 10,90),(.reset,100),(.phase 0,110),
      (.routed 1 false (16,0),120),(.routed 2 true (1,0),130)] _ :=
    .step rfl (.step rfl (.step rfl (.step rfl (.step rfl (.refl _)))))
  obtain ⟨hphase,-,-,hdropped,hfailures,-,hrecent⟩ := snapshot_shows hr
  exact ⟨_,hr,hphase,hdropped,hfailures,hrecent (by decide)⟩

end HandshakeProbe

end FerrisOnAir.Sta

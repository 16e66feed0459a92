import FerrisOnAir.Foundation.Ticker
import FerrisOnAir.Sta.Connection

/-! # Watching for beacons

`run_connection` of `foa_sta/src/runner.rs`, from one select to the next: a request for an off
channel operation comes first, then a frame of the background queue, and last the ticker of the
beacon timeout. Frames that the router drops do not arrive.
-/
namespace FerrisOnAir.Sta
open Rsn

/-- A frame of the background queue. -/
inductive BgFrame
  | keyFrame
  | deauthentication
  | beacon
  | other
deriving DecidableEq

/-- A frame with the time at which it was put into the queue. -/
structure BgArrival where
  frame : BgFrame
  time : ℕ

/-- A frame that was taken out of the queue, and when. -/
structure Handled where
  arrival : BgArrival
  time : ℕ

structure DeauthenticationFrame where
  receiverAddress : Bytes 6
  transmitterAddress : Bytes 6
  bssid : Bytes 6

def deauthenticate (bssid staAddress : Bytes 6) (toAp : Bool) : DeauthenticationFrame where
  receiverAddress := if toAp then bssid else staAddress
  transmitterAddress := if toAp then staAddress else bssid
  bssid := bssid

/-- The connection that is run. -/
structure WatchConfig where
  bssid : Bytes 6
  ownAddress : Bytes 6
  beaconTimeout : Option ℕ

/-- Where `run_connection` awaits. -/
inductive WatchAwait
  | selecting
  | offChannelCompletion
  | eapolRetry
  | deauthenticating
  | returned (reason : DisconnectionReason)
  | cancelled
deriving DecidableEq

/-- The shared state and the locals of `run_connection`, what has arrived and what was handled,
and the time of the timeout. -/
structure ConnectionWatch where
  now : ℕ
  started : ℕ
  offChannelRequest : Bool
  queue : List BgArrival
  beaconTimeout : Option Ticker
  await : WatchAwait
  arrived : List BgArrival
  handled : List Handled
  timedOutAt : Option ℕ
  transmitted : List DeauthenticationFrame

inductive WatchOp
  | advance (ticks : ℕ)
  | arrive (frame : BgFrame)
  | requestOffChannel
  | select
  | completeOffChannel
  | replyEapol
  | allocTxBuf
  | cancel

def WatchAwait.ended : WatchAwait → Bool
  | returned _ => true
  | cancelled => true
  | _ => false

namespace ConnectionWatch
variable (config : WatchConfig) (s : ConnectionWatch)

def begin (now : ℕ) : ConnectionWatch where
  now := now
  started := now
  offChannelRequest := false
  queue := []
  beaconTimeout := config.beaconTimeout.map (Ticker.every · now)
  await := .selecting
  arrived := []
  handled := []
  timedOutAt := none
  transmitted := []

/-- The second branch of the select, with `handle_bg_rx`. -/
def handleFrame (s : ConnectionWatch) : BgFrame → ConnectionWatch
  | .keyFrame => { s with await := .eapolRetry }
  | .deauthentication => { s with await := .returned .deauthenticated }
  | .beacon => { s with beaconTimeout := s.beaconTimeout.map (Ticker.reset · s.now) }
  | .other => s

/-- The third branch, if the ticker is ready. -/
def timeout (s : ConnectionWatch) : ConnectionWatch :=
  match s.beaconTimeout.bind (Ticker.next · s.now) with
  | some ticker => { s with
      beaconTimeout := some ticker
      await := .deauthenticating
      timedOutAt := some s.now }
  | none => s

def select : ConnectionWatch :=
  if s.offChannelRequest then { s with offChannelRequest := false, await := .offChannelCompletion }
  else match s.queue with
    | arrival :: queue =>
      handleFrame { s with queue := queue, handled := s.handled ++ [⟨arrival,s.now⟩] } arrival.frame
    | [] => s.timeout

def next : WatchOp → Option ConnectionWatch
  | .advance ticks => some { s with now := s.now + ticks }
  | .arrive frame => some { s with
      queue := s.queue ++ [⟨frame,s.now⟩]
      arrived := s.arrived ++ [⟨frame,s.now⟩] }
  | .requestOffChannel => some { s with offChannelRequest := true }
  | .select => if s.await = .selecting then some s.select else none
  | .completeOffChannel =>
    if s.await = .offChannelCompletion then some { s with await := .selecting } else none
  | .replyEapol => if s.await = .eapolRetry then some { s with await := .selecting } else none
  | .allocTxBuf =>
    if s.await = .deauthenticating then some { s with
      await := .returned .beaconTimeout
      transmitted := s.transmitted ++ [deauthenticate config.bssid config.ownAddress true] }
    else none
  | .cancel => if s.await.ended then none else some { s with await := .cancelled }

def Step (s : ConnectionWatch) (op : WatchOp) (t : ConnectionWatch) : Prop :=
  s.next config op = some t

/-! ## What the timeout stands for -/

/-- The last time at which a beacon was handled, or else the start. -/
structure IsLastReset (s : ConnectionWatch) (reset : ℕ) : Prop where
  occurred : reset = s.started ∨ ∃ h ∈ s.handled, h.arrival.frame = .beacon ∧ h.time = reset
  started : s.started ≤ reset
  last : ∀ h ∈ s.handled, h.arrival.frame = .beacon → h.time ≤ reset

/-- The ticker runs since the last reset. -/
def Running (s : ConnectionWatch) : Prop :=
  match config.beaconTimeout with
  | none => s.beaconTimeout = none
  | some duration =>
    ∃ reset, s.beaconTimeout = some ⟨duration,reset + duration⟩ ∧ s.IsLastReset reset

/-- When it timed out no beacon had arrived for the whole duration. -/
def Silent (s : ConnectionWatch) : Prop :=
  ∃ duration decided, config.beaconTimeout = some duration ∧ s.timedOutAt = some decided ∧
    s.started + duration ≤ decided ∧ decided ≤ s.now ∧
    ∀ a ∈ s.arrived, a.frame = .beacon → a.time + duration ≤ decided ∨ decided ≤ a.time

/-- What is known of the ticker and of the frames that were sent. -/
def Settled (s : ConnectionWatch) : WatchAwait → Prop
  | .deauthenticating => s.Silent config ∧ s.transmitted = []
  | .returned .beaconTimeout => s.Silent config ∧
      s.transmitted = [deauthenticate config.bssid config.ownAddress true]
  | .returned .deauthenticated => s.transmitted = [] ∧
      ∃ h, s.handled.getLast? = some h ∧ h.arrival.frame = .deauthentication
  | .returned .user => False
  | .cancelled => s.transmitted = []
  | _ => s.Running config ∧ s.transmitted = []

structure Watched (s : ConnectionWatch) : Prop where
  fifo : s.arrived = s.handled.map Handled.arrival ++ s.queue
  queued : ∀ a ∈ s.queue, a.time ≤ s.now
  handled : ∀ h ∈ s.handled, h.arrival.time ≤ h.time ∧ h.time ≤ s.now
  started : s.started ≤ s.now
  settled : s.Settled config s.await

variable {config s} {t : ConnectionWatch} {op : WatchOp} {reset : ℕ}

theorem lastReset_unique {reset' : ℕ} (h : s.IsLastReset reset) (h' : s.IsLastReset reset') :
    reset = reset' := by
  have hle : ∀ {a b}, s.IsLastReset a → s.IsLastReset b → a ≤ b := by
    intro a b ha hb
    rcases ha.occurred with rfl | ⟨h,hmem,hbeacon,rfl⟩
    · exact hb.started
    · exact hb.last h hmem hbeacon
  exact le_antisymm (hle h h') (hle h' h)

/-- A frame that is not a beacon does not touch the ticker. -/
theorem IsLastReset.other (h : s.IsLastReset reset) {handled : Handled}
    (hhandled : t.handled = s.handled ++ [handled]) (hstarted : t.started = s.started)
    (hother : handled.arrival.frame ≠ .beacon) : t.IsLastReset reset where
  occurred := by
    rw [hstarted,hhandled]
    refine h.occurred.imp_right ?_
    rintro ⟨b,hb,hbeacon,htime⟩
    exact ⟨b,List.mem_append_left _ hb,hbeacon,htime⟩
  started := hstarted.le.trans h.started
  last b hb hbeacon := by
    rw [hhandled] at hb
    rcases List.mem_append.mp hb with hb | hb
    · exact h.last b hb hbeacon
    · rw [List.mem_singleton.mp hb] at hbeacon
      exact absurd hbeacon hother

/-- Progress of the clock and new arrivals change nothing of what is settled. -/
theorem Settled.mono {a : WatchAwait} (h : s.Settled config a) (hnow : s.now ≤ t.now)
    (harrived : ∀ b ∈ t.arrived, b ∈ s.arrived ∨ s.now ≤ b.time) (hstarted : t.started = s.started)
    (hticker : t.beaconTimeout = s.beaconTimeout) (hhandled : t.handled = s.handled)
    (htimed : t.timedOutAt = s.timedOutAt) (htransmitted : t.transmitted = s.transmitted) :
    t.Settled config a := by
  have hrunning : s.Running config → t.Running config := by
    unfold Running
    split
    · intro h
      rw [hticker,h]
    · rintro ⟨reset,hexpires,hreset⟩
      rw [hticker]
      refine ⟨reset,hexpires,?_,?_,?_⟩
      · rw [hstarted,hhandled]
        exact hreset.occurred
      · rw [hstarted]
        exact hreset.started
      · rw [hhandled]
        exact hreset.last
  have hsilent : s.Silent config → t.Silent config := by
    rintro ⟨duration,decided,hduration,hdecided,hfrom,hpast,hbeacons⟩
    refine ⟨duration,decided,hduration,htimed.trans hdecided,?_,hpast.trans hnow,?_⟩
    · rwa [hstarted]
    · intro b hb hbeacon
      rcases harrived b hb with hold | hnew
      · exact hbeacons b hold hbeacon
      · exact Or.inr (hpast.trans hnew)
  cases a with
  | returned reason =>
    cases reason with
    | user => exact h
    | beaconTimeout => exact ⟨hsilent h.1,htransmitted.trans h.2⟩
    | deauthenticated =>
      obtain ⟨hnothing,hlast⟩ := h
      refine ⟨htransmitted.trans hnothing,?_⟩
      rwa [hhandled]
  | deauthenticating => exact ⟨hsilent h.1,htransmitted.trans h.2⟩
  | cancelled => exact htransmitted.trans h
  | selecting => exact ⟨hrunning h.1,htransmitted.trans h.2⟩
  | offChannelCompletion => exact ⟨hrunning h.1,htransmitted.trans h.2⟩
  | eapolRetry => exact ⟨hrunning h.1,htransmitted.trans h.2⟩

theorem Running.other (h : s.Running config) {handled : Handled}
    (hhandled : t.handled = s.handled ++ [handled]) (hstarted : t.started = s.started)
    (hticker : t.beaconTimeout = s.beaconTimeout) (hother : handled.arrival.frame ≠ .beacon) :
    t.Running config := by
  unfold Running at h ⊢
  split at h
  · rw [hticker,h]
  · obtain ⟨reset,hexpires,hreset⟩ := h
    exact ⟨reset,hticker.trans hexpires,hreset.other hhandled hstarted hother⟩

/-- A beacon that is handled is the last reset. -/
theorem Running.beacon (h : s.Running config) (hs : s.Watched config) {handled : Handled}
    (hhandled : t.handled = s.handled ++ [handled]) (htime : handled.time = s.now)
    (hstarted : t.started = s.started)
    (hticker : t.beaconTimeout = s.beaconTimeout.map (Ticker.reset · s.now))
    (hbeacon : handled.arrival.frame = .beacon) : t.Running config := by
  unfold Running at h ⊢
  split at h
  · rw [hticker,h]
    rfl
  · obtain ⟨reset,hexpires,-⟩ := h
    refine ⟨s.now,by rw [hticker,hexpires]; rfl,Or.inr ⟨handled,?_,hbeacon,htime⟩,?_,?_⟩
    · rw [hhandled]
      exact List.mem_append_right _ (List.mem_singleton_self _)
    · rw [hstarted]
      exact hs.started
    · intro b hb _
      rw [hhandled] at hb
      rcases List.mem_append.mp hb with hb | hb
      · exact (hs.handled b hb).2
      · rw [List.mem_singleton.mp hb,htime]

/-- The ticker is ready exactly if the duration has passed since the last reset. -/
theorem Running.ready_iff (h : s.Running config) :
    (∃ ticker, s.beaconTimeout.bind (Ticker.next · s.now) = some ticker) ↔
      ∃ duration reset, config.beaconTimeout = some duration ∧ s.IsLastReset reset ∧
        reset + duration ≤ s.now := by
  unfold Running at h
  split at h
  · rename_i hnone
    simp [h,hnone]
  · rename_i duration hsome
    obtain ⟨reset,hexpires,hreset⟩ := h
    rw [hexpires,Option.bind_some,hsome]
    constructor
    · rintro ⟨ticker,hready⟩
      refine ⟨duration,reset,rfl,hreset,?_⟩
      by_contra hlater
      rw [Ticker.next,if_neg hlater] at hready
      cases hready
    · rintro ⟨duration',reset',heq,hreset',hpassed⟩
      rw [← Option.some.inj heq,← lastReset_unique hreset hreset'] at hpassed
      exact ⟨_,if_pos hpassed⟩

/-- A timeout comes when every frame was handled, so that no beacon can have arrived. -/
theorem silent_of_ready (h : s.Running config) (hs : s.Watched config) (hqueue : s.queue = [])
    (hready : ∃ ticker, s.beaconTimeout.bind (Ticker.next · s.now) = some ticker)
    (htimed : t.timedOutAt = some s.now) (hnow : t.now = s.now) (hstarted : t.started = s.started)
    (harrived : t.arrived = s.arrived) : t.Silent config := by
  obtain ⟨duration,reset,hduration,hreset,hpassed⟩ := h.ready_iff.mp hready
  refine ⟨duration,s.now,hduration,htimed,?_,hnow.ge,?_⟩
  · have hfrom := hreset.started
    rw [hstarted]
    omega
  · intro a ha hbeacon
    rw [harrived,hs.fifo,hqueue,List.append_nil] at ha
    obtain ⟨b,hb,rfl⟩ := List.mem_map.mp ha
    have hlast := hreset.last b hb hbeacon
    have htaken := (hs.handled b hb).1
    exact Or.inl (by omega)

theorem watched_handleFrame (hs : s.Watched config) (hawait : s.await = .selecting)
    {arrival : BgArrival} {queue : List BgArrival} (hqueue : s.queue = arrival :: queue) :
    (handleFrame { s with queue := queue, handled := s.handled ++ [⟨arrival,s.now⟩] }
      arrival.frame).Watched config := by
  have hsettled := hs.settled
  rw [hawait] at hsettled
  obtain ⟨hrunning,hnothing⟩ := hsettled
  have hfifo : s.arrived =
      (s.handled ++ [Handled.mk arrival s.now]).map Handled.arrival ++ queue := by
    rw [hs.fifo,hqueue,List.map_append,List.append_assoc]
    rfl
  have hqueued : ∀ a ∈ queue, a.time ≤ s.now := by
    intro a ha
    refine hs.queued a ?_
    rw [hqueue]
    exact List.mem_cons_of_mem _ ha
  have hhandled : ∀ h ∈ s.handled ++ [⟨arrival,s.now⟩], h.arrival.time ≤ h.time ∧
      h.time ≤ s.now := by
    intro h hh
    rcases List.mem_append.mp hh with hh | hh
    · exact hs.handled h hh
    · rw [List.mem_singleton.mp hh]
      refine ⟨hs.queued arrival ?_,le_rfl⟩
      rw [hqueue]
      exact List.mem_cons_self
  cases hframe : arrival.frame with
  | keyFrame =>
    exact ⟨hfifo,hqueued,hhandled,hs.started,
      hrunning.other rfl rfl rfl (by rw [hframe]; exact BgFrame.noConfusion),hnothing⟩
  | deauthentication =>
    exact ⟨hfifo,hqueued,hhandled,hs.started,hnothing,_,List.getLast?_concat,hframe⟩
  | beacon =>
    refine ⟨hfifo,hqueued,hhandled,hs.started,?_⟩
    change Settled config _ s.await
    rw [hawait]
    exact ⟨hrunning.beacon hs rfl rfl rfl rfl hframe,hnothing⟩
  | other =>
    refine ⟨hfifo,hqueued,hhandled,hs.started,?_⟩
    change Settled config _ s.await
    rw [hawait]
    exact ⟨hrunning.other rfl rfl rfl (by rw [hframe]; exact BgFrame.noConfusion),hnothing⟩

theorem watched_select (hs : s.Watched config) (hawait : s.await = .selecting) :
    s.select.Watched config := by
  have hsettled := hs.settled
  rw [hawait] at hsettled
  unfold select
  split
  · refine ⟨hs.fifo,hs.queued,hs.handled,hs.started,?_⟩
    exact Settled.mono (a := .offChannelCompletion) hsettled le_rfl (fun b hb => Or.inl hb)
      rfl rfl rfl rfl rfl
  · split
    · rename_i arrival queue hqueue
      exact watched_handleFrame hs hawait hqueue
    · rename_i hqueue
      unfold timeout
      split
      · rename_i ticker hready
        refine ⟨hs.fifo,hs.queued,hs.handled,hs.started,?_,hsettled.2⟩
        exact silent_of_ready hsettled.1 hs hqueue ⟨ticker,hready⟩ rfl rfl rfl rfl
      · exact hs

theorem watched_step (hs : s.Watched config) (h : Step config s op t) : t.Watched config := by
  cases op with
  | advance ticks =>
    cases h
    have hlater : s.now ≤ s.now + ticks := Nat.le_add_right _ _
    refine ⟨hs.fifo,fun a ha => (hs.queued a ha).trans hlater,?_,hs.started.trans hlater,?_⟩
    · exact fun b hb => ⟨(hs.handled b hb).1,(hs.handled b hb).2.trans hlater⟩
    · exact hs.settled.mono hlater (fun b hb => Or.inl hb) rfl rfl rfl rfl rfl
  | arrive frame =>
    cases h
    refine ⟨?_,?_,hs.handled,hs.started,?_⟩
    · change s.arrived ++ _ = _ ++ (s.queue ++ _)
      rw [hs.fifo,List.append_assoc]
    · intro a ha
      rcases List.mem_append.mp ha with ha | ha
      · exact hs.queued a ha
      · rw [List.mem_singleton.mp ha]
    · refine hs.settled.mono le_rfl ?_ rfl rfl rfl rfl rfl
      intro b hb
      rcases List.mem_append.mp hb with hb | hb
      · exact Or.inl hb
      · rw [List.mem_singleton.mp hb]
        exact Or.inr le_rfl
  | requestOffChannel =>
    cases h
    exact ⟨hs.fifo,hs.queued,hs.handled,hs.started,
      hs.settled.mono le_rfl (fun b hb => Or.inl hb) rfl rfl rfl rfl rfl⟩
  | select =>
    obtain ⟨hawait,h⟩ := Option.ite_none_right_eq_some.mp h
    cases h
    exact watched_select hs hawait
  | completeOffChannel =>
    obtain ⟨hawait,h⟩ := Option.ite_none_right_eq_some.mp h
    cases h
    have hsettled := hs.settled
    rw [hawait] at hsettled
    exact ⟨hs.fifo,hs.queued,hs.handled,hs.started,Settled.mono (a := .selecting) hsettled le_rfl
      (fun b hb => Or.inl hb) rfl rfl rfl rfl rfl⟩
  | replyEapol =>
    obtain ⟨hawait,h⟩ := Option.ite_none_right_eq_some.mp h
    cases h
    have hsettled := hs.settled
    rw [hawait] at hsettled
    exact ⟨hs.fifo,hs.queued,hs.handled,hs.started,Settled.mono (a := .selecting) hsettled le_rfl
      (fun b hb => Or.inl hb) rfl rfl rfl rfl rfl⟩
  | allocTxBuf =>
    obtain ⟨hawait,h⟩ := Option.ite_none_right_eq_some.mp h
    cases h
    have hsettled := hs.settled
    rw [hawait] at hsettled
    obtain ⟨hsilent,hnothing⟩ := hsettled
    refine ⟨hs.fifo,hs.queued,hs.handled,hs.started,hsilent,?_⟩
    rw [hnothing,List.nil_append]
  | cancel =>
    obtain ⟨hrunning,h⟩ := Option.ite_none_left_eq_some.mp h
    cases h
    refine ⟨hs.fifo,hs.queued,hs.handled,hs.started,?_⟩
    have hsettled := hs.settled
    cases hawait : s.await with
    | returned reason =>
      rw [hawait] at hrunning
      exact absurd rfl hrunning
    | cancelled =>
      rw [hawait] at hrunning
      exact absurd rfl hrunning
    | selecting =>
      rw [hawait] at hsettled
      exact hsettled.2
    | offChannelCompletion =>
      rw [hawait] at hsettled
      exact hsettled.2
    | eapolRetry =>
      rw [hawait] at hsettled
      exact hsettled.2
    | deauthenticating =>
      rw [hawait] at hsettled
      exact hsettled.2

section Selects

/-- The ticker is looked at only if there is nothing else to do. -/
theorem select_times_out_iff (hs : s.Watched config) (hawait : s.await = .selecting) :
    s.select.await = .deauthenticating ↔ s.offChannelRequest = false ∧ s.queue = [] ∧
      ∃ duration reset, config.beaconTimeout = some duration ∧ s.IsLastReset reset ∧
        reset + duration ≤ s.now := by
  have hsettled := hs.settled
  rw [hawait] at hsettled
  rw [← hsettled.1.ready_iff]
  unfold select
  cases s.offChannelRequest with
  | true => simp
  | false =>
    rw [if_neg Bool.false_ne_true]
    cases s.queue with
    | cons arrival queue => cases hframe : arrival.frame <;> simp [handleFrame,hframe,hawait]
    | nil =>
      unfold timeout
      cases hready : s.beaconTimeout.bind (Ticker.next · s.now) with
      | none => simp [hawait]
      | some ticker => simp

/-- Frames that are neither of the three kinds are drained, and then the ticker is looked at. -/
theorem selects_time_out (hs : s.Watched config) (hawait : s.await = .selecting)
    (hrequest : s.offChannelRequest = false) (hother : ∀ a ∈ s.queue, a.frame = .other)
    (hpassed : ∃ duration reset, config.beaconTimeout = some duration ∧ s.IsLastReset reset ∧
      reset + duration ≤ s.now) :
    ∃ t, Runs (Step config) s (List.replicate (s.queue.length + 1) .select) t ∧
      t.await = .deauthenticating := by
  induction hqueue : s.queue generalizing s with
  | nil =>
    refine ⟨s.select,.step (if_pos hawait) (.refl _),?_⟩
    exact (select_times_out_iff hs hawait).mpr ⟨hrequest,hqueue,hpassed⟩
  | cons arrival queue ih =>
    have hframe : arrival.frame = .other := by
      refine hother arrival ?_
      rw [hqueue]
      exact List.mem_cons_self
    have hselect : s.select =
        { s with queue := queue, handled := s.handled ++ [⟨arrival,s.now⟩] } := by
      unfold select
      rw [hrequest,if_neg Bool.false_ne_true,hqueue]
      simp only [hframe,handleFrame]
    have he : Step config s .select s.select := if_pos hawait
    have hwatched := watched_step hs he
    obtain ⟨duration,reset,hduration,hreset,hle⟩ := hpassed
    rw [hselect] at he hwatched
    have hrest : ∀ a ∈ queue, a.frame = .other := by
      intro a ha
      refine hother a ?_
      rw [hqueue]
      exact List.mem_cons_of_mem _ ha
    have hkept : IsLastReset { s with
        queue := queue, handled := s.handled ++ [⟨arrival,s.now⟩] } reset := by
      refine hreset.other rfl rfl ?_
      rw [hframe]
      exact BgFrame.noConfusion
    obtain ⟨t,hr,ht⟩ := ih hwatched hawait hrequest hrest ⟨duration,reset,hduration,hkept,hle⟩ rfl
    exact ⟨t,.step he hr,ht⟩

end Selects

theorem watched_of_runs {now : ℕ} {ops : List WatchOp}
    (hr : Runs (Step config) (begin config now) ops s) : s.Watched config := by
  refine hr.invariant (I := Watched config) (fun _ _ _ hs h => watched_step hs h) ?_
  refine ⟨rfl,(fun a ha => by cases ha),(fun h hh => by cases hh),le_rfl,?_,rfl⟩
  unfold Running
  cases hduration : config.beaconTimeout with
  | none => simp [begin,hduration]
  | some duration =>
    refine ⟨now,?_,Or.inl rfl,le_rfl,(fun h hh => by cases hh)⟩
    simp [begin,hduration,Ticker.every]

/-- In every run a connection times out only if no beacon has arrived for the whole duration,
and then one deauthentication is sent, to its access point; in no other case is any sent. The
ticker is reset by beacons only when they are handled, and it is looked at when there is no
request and no frame; once the duration has passed, it takes no more than handling the other
frames that are there. -/
theorem timeout_of_runs {now : ℕ} {ops : List WatchOp}
    (hr : Runs (Step config) (begin config now) ops s) :
    (s.await = .returned .beaconTimeout → s.Silent config ∧
      s.transmitted = [deauthenticate config.bssid config.ownAddress true]) ∧
    (s.await ≠ .returned .beaconTimeout → s.transmitted = []) ∧
    (s.await = .returned .deauthenticated →
      ∃ h, s.handled.getLast? = some h ∧ h.arrival.frame = .deauthentication) ∧
    (s.await = .selecting → ∀ t, Step config s .select t → (t.await = .deauthenticating ↔
      s.offChannelRequest = false ∧ s.queue = [] ∧ ∃ duration reset,
        config.beaconTimeout = some duration ∧ s.IsLastReset reset ∧ reset + duration ≤ s.now)) ∧
    (s.await = .selecting → s.offChannelRequest = false → (∀ a ∈ s.queue, a.frame = .other) →
      (∃ duration reset, config.beaconTimeout = some duration ∧ s.IsLastReset reset ∧
        reset + duration ≤ s.now) →
      ∃ t, Runs (Step config) s (List.replicate (s.queue.length + 1) .select) t ∧
        t.await = .deauthenticating) := by
  have hs := watched_of_runs hr
  have hsettled := hs.settled
  refine ⟨?_,?_,?_,?_,selects_time_out hs⟩
  · intro hawait
    rwa [hawait] at hsettled
  · intro hne
    cases hawait : s.await with
    | returned reason =>
      rw [hawait] at hsettled hne
      cases reason with
      | user => exact absurd hsettled id
      | beaconTimeout => exact absurd rfl hne
      | deauthenticated => exact hsettled.1
    | cancelled =>
      rw [hawait] at hsettled
      exact hsettled
    | _ =>
      rw [hawait] at hsettled
      exact hsettled.2
  · intro hawait
    rw [hawait] at hsettled
    exact hsettled.2
  · intro hawait t h
    obtain ⟨-,h⟩ := Option.ite_none_right_eq_some.mp h
    cases h
    exact select_times_out_iff hs hawait

/-- A beacon waits during an off channel operation and is handled at 70, so the timeout of 50
comes at 120. -/
theorem timeout_of_runs_offChannel : ∃ s : ConnectionWatch,
    s.now = 125 ∧ s.timedOutAt = some 120 ∧ s.arrived.map BgArrival.time = [30] ∧
    s.Silent ⟨fun _ => 1,fun _ => 2,some 50⟩ ∧
    s.transmitted = [deauthenticate (fun _ => 1) (fun _ => 2) true] := by
  have hr : Runs (Step ⟨fun _ => 1,fun _ => 2,some 50⟩)
      (begin ⟨fun _ => 1,fun _ => 2,some 50⟩ 0)
      [.requestOffChannel,.select,.advance 30,.arrive .beacon,.advance 40,.completeOffChannel,
        .select,.advance 50,.select,.advance 5,.allocTxBuf] _ :=
    .step rfl (.step rfl (.step rfl (.step rfl (.step rfl (.step rfl (.step rfl (.step rfl
      (.step rfl (.step rfl (.step rfl (.refl _)))))))))))
  exact ⟨_,rfl,rfl,rfl,(timeout_of_runs hr).1 rfl⟩

end ConnectionWatch

end FerrisOnAir.Sta

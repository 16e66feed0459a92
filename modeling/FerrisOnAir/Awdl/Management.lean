import FerrisOnAir.Awdl.Broadcast
import FerrisOnAir.Awdl.Slots
import FerrisOnAir.Foundation.Ticker
import FerrisOnAir.Lmac.OffChannel

/-! # The management loop of a session

`AwdlManagementRunner::run_session` between its awaits. The clock passes at will, frames are
received at any time, and a transmission takes as long as it takes. A `Timer` yields once before
it looks at the clock; the one of the next multicast information frame is set anew whenever the
loop comes round.
-/
namespace FerrisOnAir.Awdl
open Lmac

inductive AwdlActionFrameSubType
  | psf
  | mif
deriving DecidableEq

/-- The loop selects, with the time of the next frame and whether its timer has yielded, or awaits
the transmission of a frame. -/
inductive ManagementTask
  | selecting (mifTargetTxTime : ℕ) (yielded : Bool)
  | sending (afType : AwdlActionFrameSubType)

/-- `requester` is the one of the interface, and the frames are remembered by the times at which
they were due to be sent. -/
structure ManagementRunner where
  resources : CommonResources
  clock : ℕ
  requester : OffChannelRequestState
  stalePeerTimeout : ℕ
  stalePeerTicker : Ticker
  psfTicker : Ticker
  task : ManagementTask
  psfs : List ℕ
  mifs : List ℕ

inductive ManagementOp
  | wait (now : ℕ)
  | receive (transmitter : Address) (frame : ActionFrame) (rxTimestamp : ℕ)
  | nextEvent
  | request
  | setPeerStaleTimeout (timeout : ℕ)
  | poll
  | sent

def psfInterval : ℕ := 110 * tu

namespace ManagementRunner
variable (config : SessionConfig) (s : ManagementRunner)

def mifTargetTxTime : Option ℕ := s.resources.syncState.mifTransmitionTime s.clock

/-- The loop comes round. -/
def select : Option ManagementRunner :=
  s.mifTargetTxTime.map (fun time => { s with task := .selecting time false })

/-- A session begins with an empty cache. -/
def begin (r : CommonResources) (channel : UInt8) (stalePeerTimeout start : ℕ) :
    Option ManagementRunner :=
  select
    { resources := { r.initializeSessionParameters config channel start with
        peerCache := ⟨[],List.nodup_nil⟩ }
      clock := start
      requester := .notRequested
      stalePeerTimeout := stalePeerTimeout
      stalePeerTicker := .every 1000000 start
      psfTicker := .every psfInterval start
      task := .selecting start false
      psfs := []
      mifs := [] }

/-- A tick of the stale peer ticker; the clock stands still meanwhile. -/
def purge : ManagementRunner := { s with
  resources := s.resources.step config (.stalePeerTick s.stalePeerTimeout s.clock)
  stalePeerTicker := .every s.stalePeerTimeout s.clock }

/-- A poll of the select, in the order of its futures. -/
def poll (time : ℕ) (yielded : Bool) : Option ManagementRunner :=
  if s.requester = .requested then select { s with requester := .rejected }
  else match s.stalePeerTicker.next s.clock,s.psfTicker.next s.clock with
    | some _,_ => (s.purge config).select
    | none,some psfTicker => some { s with
        psfTicker := psfTicker
        task := .sending .psf
        psfs := s.psfs ++ [s.clock] }
    | none,none =>
      if yielded = true ∧ time ≤ s.clock then some { s with
        task := .sending .mif
        mifs := s.mifs ++ [s.clock] }
      else some { s with task := .selecting time true }

def next : ManagementOp → Option ManagementRunner
  | .wait now => if s.clock ≤ now then some { s with clock := now } else none
  | .receive transmitter frame rxTimestamp => some { s with
      resources := s.resources.step config
        (.processActionFrame transmitter frame rxTimestamp s.clock) }
  | .nextEvent => some { s with resources := s.resources.step config .nextEvent }
  | .request => some { s with requester := .requested }
  | .setPeerStaleTimeout timeout => some { s with stalePeerTimeout := timeout }
  | .poll =>
    match s.task with
    | .selecting time yielded => s.poll config time yielded
    | .sending _ => none
  | .sent =>
    match s.task with
    | .selecting _ _ => none
    | .sending _ => s.select

def Step (s : ManagementRunner) (op : ManagementOp) (t : ManagementRunner) : Prop :=
  s.next config op = some t

/-- What a poll leads to. -/
inductive Polled (time : ℕ) : ManagementRunner → Prop
  | reject (m : ℕ) (hm : s.mifTargetTxTime = some m) :
      Polled time { s with requester := .rejected, task := .selecting m false }
  | purge (m : ℕ) (hm : (s.purge config).mifTargetTxTime = some m) :
      Polled time { s.purge config with task := .selecting m false }
  | psf (psfTicker : Ticker) (hdue : s.psfTicker.next s.clock = some psfTicker) :
      Polled time { s with
        psfTicker := psfTicker
        task := .sending .psf
        psfs := s.psfs ++ [s.clock] }
  | mif (hdue : time ≤ s.clock) :
      Polled time { s with task := .sending .mif, mifs := s.mifs ++ [s.clock] }
  | suspend : Polled time { s with task := .selecting time true }

/-- How long after the loop came round the next information frame is due at least. -/
def mifGap (start : ℕ) : ℕ := if channelSequenceDuration ≤ start then 48 * tu else 16 * tu

variable {config s} {t : ManagementRunner} {op : ManagementOp} {start time : ℕ}

theorem poll_cases {yielded : Bool} (h : s.poll config time yielded = some t) :
    s.Polled config time t := by
  unfold poll at h
  split at h
  · obtain ⟨m,hm,rfl⟩ := Option.map_eq_some_iff.mp h
    exact .reject m hm
  · split at h
    · obtain ⟨m,hm,rfl⟩ := Option.map_eq_some_iff.mp h
      exact .purge m hm
    · rename_i hdue
      cases h
      exact .psf _ hdue
    · split at h
      · rename_i hdue
        cases h
        exact .mif hdue.2
      · cases h
        exact .suspend

/-- In the first sequence after boot the phase may be lost, but not the 16 TU into a slot. -/
theorem mifGap_le (hstart : start ≤ s.clock) (h : s.mifTargetTxTime = some time) :
    s.clock + mifGap start ≤ time := by
  unfold mifTargetTxTime at h
  by_cases hle : s.resources.syncState.phaseAt s.clock ≤ s.clock
  · obtain ⟨t,ht,-,hcode⟩ := SynchronizationState.mifTransmitionTime_eq hle
    rw [hcode] at h
    obtain ⟨-,h⟩ := Option.ite_none_right_eq_some.mp h
    cases h
    have hnonneg := Int.emod_nonneg (s.clock - s.resources.syncState.tsfEpochInUs)
      (show (slotDuration : ℤ) ≠ 0 by decide)
    have hlt := Int.emod_lt_of_pos (s.clock - s.resources.syncState.tsfEpochInUs)
      (show (0 : ℤ) < slotDuration by decide)
    generalize (s.clock - s.resources.syncState.tsfEpochInUs) % (slotDuration : ℤ) = r at *
    have hgap : mifGap start ≤ 49152 := by
      unfold mifGap tu
      split <;> omega
    simp only [tu,SynchronizationState.channelSequenceDuration_val,
      SynchronizationState.slotDuration_val] at *
    split_ifs at ht <;> omega
  · have hphase : s.resources.syncState.phaseAt s.clock < 1048576 :=
      SynchronizationState.phaseAt_lt
    have hboot : ¬ channelSequenceDuration ≤ start := by
      rw [SynchronizationState.channelSequenceDuration_val]
      omega
    unfold SynchronizationState.mifTransmitionTime at h
    obtain ⟨k,-,hcode⟩ := SynchronizationState.slotStartTimestamp_of_lt (tu * 16) (Fin.isLt _)
      (not_le.mp hle)
    rw [hcode] at h
    rw [mifGap,if_neg hboot,(SynchronizationState.instantAdd_eq_some h).1]
    omega

/-! ## What a session sends -/

structure Timed (start : ℕ) (s : ManagementRunner) : Prop where
  started : start ≤ s.clock
  idle : s.requester ≠ .granted
  psfTicker : s.psfTicker.Ticked start psfInterval s.psfs.length
  psfs : start + psfInterval * s.psfs.length ≤ s.clock
  mifs : ∀ sent ∈ s.mifs, sent ≤ s.clock
  due : ∀ time yielded, s.task = .selecting time yielded →
    ∀ sent ∈ s.mifs, sent + mifGap start ≤ time
  spaced : s.mifs.Pairwise (fun sent sent' => sent + mifGap start ≤ sent')

theorem Timed.due_select (hs : s.Timed start) {r : CommonResources}
    (hm : mifTargetTxTime { s with resources := r } = some time) {sent : ℕ} (h : sent ∈ s.mifs) :
    sent + mifGap start ≤ time :=
  (Nat.add_le_add_right (hs.mifs sent h) _).trans
    (mifGap_le (s := { s with resources := r }) hs.started hm)

theorem timed_polled (hs : s.Timed start)
    (hdue : ∀ sent ∈ s.mifs, sent + mifGap start ≤ time) (h : s.Polled config time t) :
    t.Timed start := by
  cases h with
  | reject m hm =>
    refine ⟨hs.started,by rintro ⟨⟩,hs.psfTicker,hs.psfs,hs.mifs,?_,hs.spaced⟩
    rintro _ _ ⟨⟩ sent hsent
    exact hs.due_select hm hsent
  | purge m hm =>
    refine ⟨hs.started,hs.idle,hs.psfTicker,hs.psfs,hs.mifs,?_,hs.spaced⟩
    rintro _ _ ⟨⟩ sent hsent
    exact hs.due_select hm hsent
  | psf psfTicker hdue =>
    obtain ⟨hexpired,hticked⟩ := hs.psfTicker.next hdue
    have hlength : (s.psfs ++ [s.clock]).length = s.psfs.length + 1 := List.length_append
    rw [← hlength] at hexpired hticked
    exact ⟨hs.started,hs.idle,hticked,hexpired,hs.mifs,by rintro _ _ ⟨⟩,hs.spaced⟩
  | mif hexpired =>
    refine ⟨hs.started,hs.idle,hs.psfTicker,hs.psfs,?_,by rintro _ _ ⟨⟩,?_⟩
    · intro sent hsent
      rcases List.mem_append.mp hsent with hbefore | hnew
      · exact hs.mifs sent hbefore
      · exact (List.mem_singleton.mp hnew).le
    · refine List.pairwise_append.mpr ⟨hs.spaced,List.pairwise_singleton _ _,?_⟩
      intro sent hsent sent' hsent'
      rw [List.mem_singleton.mp hsent']
      exact (hdue sent hsent).trans hexpired
  | suspend =>
    refine ⟨hs.started,hs.idle,hs.psfTicker,hs.psfs,hs.mifs,?_,hs.spaced⟩
    rintro _ _ ⟨⟩
    exact hdue

theorem timed_step (hs : s.Timed start) (h : Step config s op t) : t.Timed start := by
  cases op with
  | wait now =>
    obtain ⟨hnow,h⟩ := Option.ite_none_right_eq_some.mp h
    cases h
    exact ⟨hs.started.trans hnow,hs.idle,hs.psfTicker,hs.psfs.trans hnow,
      (fun sent hsent => (hs.mifs sent hsent).trans hnow),hs.due,hs.spaced⟩
  | receive transmitter frame rxTimestamp =>
    cases h
    exact ⟨hs.started,hs.idle,hs.psfTicker,hs.psfs,hs.mifs,hs.due,hs.spaced⟩
  | nextEvent =>
    cases h
    exact ⟨hs.started,hs.idle,hs.psfTicker,hs.psfs,hs.mifs,hs.due,hs.spaced⟩
  | request =>
    cases h
    exact ⟨hs.started,by rintro ⟨⟩,hs.psfTicker,hs.psfs,hs.mifs,hs.due,hs.spaced⟩
  | setPeerStaleTimeout timeout =>
    cases h
    exact ⟨hs.started,hs.idle,hs.psfTicker,hs.psfs,hs.mifs,hs.due,hs.spaced⟩
  | poll =>
    simp only [Step,next] at h
    split at h
    · rename_i time yielded htask
      exact timed_polled hs (hs.due time yielded htask) (poll_cases h)
    · cases h
  | sent =>
    simp only [Step,next] at h
    split at h
    · cases h
    · obtain ⟨m,hm,rfl⟩ := Option.map_eq_some_iff.mp h
      refine ⟨hs.started,hs.idle,hs.psfTicker,hs.psfs,hs.mifs,?_,hs.spaced⟩
      rintro _ _ ⟨⟩ sent hsent
      exact hs.due_select (r := s.resources) hm hsent

/-! ## Whom a session keeps -/

/-- The loop comes to its tickers with some delay at most, and the timeout is never set beyond
a bound. -/
def Prompt (timeout delay : ℕ) (s : ManagementRunner) : ManagementOp → Prop
  | .wait now => now ≤ s.stalePeerTicker.expiresAt + delay ∧ now ≤ s.psfTicker.expiresAt + delay
  | .setPeerStaleTimeout stalePeerTimeout => stalePeerTimeout ≤ timeout
  | _ => True

structure Fresh (timeout delay : ℕ) (s : ManagementRunner) : Prop where
  bounded : s.stalePeerTimeout ≤ timeout
  soon : s.stalePeerTicker.expiresAt ≤ s.clock + max 1000000 timeout
  purges : s.clock ≤ s.stalePeerTicker.expiresAt + delay
  ticks : s.clock ≤ s.psfTicker.expiresAt + delay
  heard : ∀ a peer, s.resources.peerCache.get a = some peer → peer.lastFrame ≤ s.clock ∧
    s.stalePeerTicker.expiresAt ≤ peer.lastFrame + max 1000000 (2 * timeout)

/-- Whom a frame leaves in the cache was there before or is its sender. -/
theorem lastFrame_receive {transmitter a : Address} {frame : ActionFrame} {rxTimestamp now : ℕ}
    {r : CommonResources} {peer : AwdlPeer}
    (h : (r.processActionFrame config transmitter frame rxTimestamp now).peerCache.get a =
      some peer) : peer.lastFrame = now ∨ r.peerCache.get a = some peer := by
  have hset : ∀ p q, r.peerCache.get transmitter = some p → (p.update frame rxTimestamp now).1 = q →
      (r.peerCache.set transmitter q).get a = some peer →
      peer.lastFrame = now ∨ r.peerCache.get a = some peer := by
    intro p q hp hq hget
    by_cases ha : a = transmitter
    · subst ha
      rw [PeerCache.get_set_self (hp ▸ rfl)] at hget
      obtain ⟨airdropPort,airplayPort,hupdate⟩ := CommonResources.update_eq p frame rxTimestamp now
      obtain rfl := Option.some.inj hget
      rw [← hq,hupdate]
      exact Or.inl rfl
    · rw [PeerCache.get_set_of_ne ha] at hget
      exact Or.inr hget
  have hchange := CommonResources.step_change config r
    (.processActionFrame transmitter frame rxTimestamp now)
  change CommonResources.Change config r _
    (r.processActionFrame config transmitter frame rxTimestamp now) at hchange
  generalize r.processActionFrame config transmitter frame rxTimestamp now = u at h hchange
  cases hchange with
  | queue queue => exact Or.inr h
  | updated queue hpeer hp hmaster => exact hset _ _ hpeer hp h
  | followed queue hpeer hp hmaster => exact hset _ _ hpeer hp h
  | added queue hpeer hnew =>
    rw [CommonResources.peerCache_electMaster] at h
    by_cases ha : a = transmitter
    · subst ha
      rw [PeerCache.get_insert_self hpeer] at h
      obtain rfl := Option.some.inj h
      obtain ⟨sync,-,hnew⟩ := Option.bind_eq_some_iff.mp hnew
      obtain ⟨election,-,rfl⟩ := Option.map_eq_some_iff.mp hnew
      exact Or.inl rfl
    · rw [PeerCache.get_insert_of_ne hpeer ha] at h
      exact Or.inr h
  | retained queue keep =>
    rw [CommonResources.peerCache_electMaster,PeerCache.get_retain] at h
    exact Or.inr (Option.filter_eq_some_iff.mp h).1

/-- A purge leaves the peers within the timeout. -/
theorem lastFrame_purge {a : Address} {peer : AwdlPeer}
    (h : (s.purge config).resources.peerCache.get a = some peer) :
    s.resources.peerCache.get a = some peer ∧ s.clock - peer.lastFrame < s.stalePeerTimeout := by
  obtain ⟨queue,hpurge⟩ := CommonResources.purgeStalePeers_eq config s.resources
    s.stalePeerTimeout s.clock
  change ((s.resources.purgeStalePeers config s.stalePeerTimeout s.clock).electMaster
    config).peerCache.get a = some peer at h
  rw [CommonResources.peerCache_electMaster,hpurge,PeerCache.get_retain] at h
  obtain ⟨hget,hkept⟩ := Option.filter_eq_some_iff.mp h
  exact ⟨hget,of_decide_eq_true hkept⟩

section Freshness
variable {timeout delay : ℕ}

theorem fresh_polled (hs : s.Fresh timeout delay)
    (h : s.Polled config time t) : t.Fresh timeout delay := by
  cases h with
  | reject m hm => exact ⟨hs.bounded,hs.soon,hs.purges,hs.ticks,hs.heard⟩
  | purge m hm =>
    refine ⟨hs.bounded,?_,?_,hs.ticks,?_⟩
    · exact Nat.add_le_add_left (hs.bounded.trans (le_max_right _ _)) _
    · exact (Nat.le_add_right _ _).trans (Nat.le_add_right _ _)
    · intro a peer hget
      obtain ⟨hbefore,hkept⟩ := lastFrame_purge hget
      have hbounded := hs.bounded
      have hbound := le_max_right 1000000 (2 * timeout)
      refine ⟨(hs.heard a peer hbefore).1,?_⟩
      change s.clock + s.stalePeerTimeout ≤ _
      omega
  | psf psfTicker hdue =>
    obtain ⟨-,rfl⟩ := Ticker.next_eq_some hdue
    refine ⟨hs.bounded,hs.soon,hs.purges,?_,hs.heard⟩
    exact hs.ticks.trans (Nat.add_le_add_right (Nat.le_add_right _ _) _)
  | mif hexpired => exact ⟨hs.bounded,hs.soon,hs.purges,hs.ticks,hs.heard⟩
  | suspend => exact ⟨hs.bounded,hs.soon,hs.purges,hs.ticks,hs.heard⟩

theorem fresh_step (hs : s.Fresh timeout delay)
    (h : Guarded (Prompt timeout delay) (Step config) s op t) : t.Fresh timeout delay := by
  obtain ⟨hop,h⟩ := h
  cases op with
  | wait now =>
    obtain ⟨hnow,h⟩ := Option.ite_none_right_eq_some.mp h
    cases h
    refine ⟨hs.bounded,hs.soon.trans (Nat.add_le_add_right hnow _),hop.1,hop.2,?_⟩
    exact fun a peer hget => (hs.heard a peer hget).imp_left (fun hle => hle.trans hnow)
  | receive transmitter frame rxTimestamp =>
    cases h
    refine ⟨hs.bounded,hs.soon,hs.purges,hs.ticks,?_⟩
    intro a peer hget
    rcases lastFrame_receive hget with hnow | hbefore
    · rw [hnow]
      refine ⟨le_rfl,hs.soon.trans (Nat.add_le_add_left ?_ _)⟩
      exact max_le_max le_rfl (Nat.le_mul_of_pos_left _ Nat.two_pos)
    · exact hs.heard a peer hbefore
  | nextEvent =>
    cases h
    exact ⟨hs.bounded,hs.soon,hs.purges,hs.ticks,hs.heard⟩
  | request =>
    cases h
    exact ⟨hs.bounded,hs.soon,hs.purges,hs.ticks,hs.heard⟩
  | setPeerStaleTimeout timeout =>
    cases h
    exact ⟨hop,hs.soon,hs.purges,hs.ticks,hs.heard⟩
  | poll =>
    simp only [Step,next] at h
    split at h
    · exact fresh_polled hs (poll_cases h)
    · cases h
  | sent =>
    simp only [Step,next] at h
    split at h
    · cases h
    · obtain ⟨m,-,rfl⟩ := Option.map_eq_some_iff.mp h
      exact ⟨hs.bounded,hs.soon,hs.purges,hs.ticks,hs.heard⟩

end Freshness

theorem begin_eq_some {r : CommonResources} {channel : UInt8} {stalePeerTimeout : ℕ}
    (h : begin config r channel stalePeerTimeout start = some s) :
    s.Timed start ∧ ∀ timeout delay, stalePeerTimeout ≤ timeout → s.Fresh timeout delay := by
  unfold begin select at h
  obtain ⟨m,-,rfl⟩ := Option.map_eq_some_iff.mp h
  refine ⟨⟨le_rfl,by rintro ⟨⟩,Ticker.ticked_every,le_rfl,?_,?_,List.Pairwise.nil⟩,?_⟩
  · intro sent hsent
    cases hsent
  · intro _ _ _ sent hsent
    cases hsent
  · intro timeout delay hbounded
    have hsoon : ∀ duration, start ≤ (Ticker.every duration start).expiresAt + delay := by
      intro duration
      exact (Nat.le_add_right start duration).trans (Nat.le_add_right _ delay)
    refine ⟨hbounded,Nat.add_le_add_left (le_max_left _ _) _,hsoon _,hsoon _,?_⟩
    intro a peer hget
    cases hget

/-- In every run of a session no off channel operation is granted. The periodic frames are never
ahead of their schedule, and the information frames keep 48 TU between each other, or 16 TU in
sessions that begin in the first sequence after boot. While the loop is never more than a delay
late, the periodic frames are not behind it by more, and every cached peer has been heard of
within twice the timeout or in the first second. -/
theorem management_of_runs {r : CommonResources} {channel : UInt8} {stalePeerTimeout : ℕ}
    {s₀ : ManagementRunner} (hb : begin config r channel stalePeerTimeout start = some s₀)
    {ops : List ManagementOp} (hr : Runs (Step config) s₀ ops s) :
    s.requester ≠ .granted ∧ start + psfInterval * s.psfs.length ≤ s.clock ∧
      s.mifs.Pairwise (fun sent sent' => sent + mifGap start ≤ sent') ∧
      ∀ timeout delay, stalePeerTimeout ≤ timeout →
        Runs (Guarded (Prompt timeout delay) (Step config)) s₀ ops s →
        s.clock ≤ start + psfInterval * (s.psfs.length + 1) + delay ∧
        ∀ a peer, s.resources.peerCache.get a = some peer →
          s.clock ≤ peer.lastFrame + max 1000000 (2 * timeout) + delay := by
  obtain ⟨htimed₀,hfresh₀⟩ := begin_eq_some hb
  have ht : s.Timed start := hr.invariant (fun _ _ _ => timed_step) htimed₀
  refine ⟨ht.idle,ht.psfs,ht.spaced,?_⟩
  intro timeout delay hbounded hprompt
  have hboth := hprompt.invariant (I := fun s => s.Timed start ∧ s.Fresh timeout delay)
    (fun s op t hst h => ⟨timed_step hst.1 h.2,fresh_step hst.2 h⟩)
    ⟨htimed₀,hfresh₀ timeout delay hbounded⟩
  constructor
  · have hticks := hboth.2.ticks
    rw [hboth.1.psfTicker] at hticks
    exact hticks
  · intro a peer hget
    exact hboth.2.purges.trans (Nat.add_le_add_right (hboth.2.heard a peer hget).2 _)

instance (timeout delay : ℕ) (s : ManagementRunner) : (op : ManagementOp) →
    Decidable (Prompt timeout delay s op)
  | .wait now => inferInstanceAs (Decidable (now ≤ s.stalePeerTicker.expiresAt + delay ∧
      now ≤ s.psfTicker.expiresAt + delay))
  | .setPeerStaleTimeout stalePeerTimeout => inferInstanceAs (Decidable (stalePeerTimeout ≤ timeout))
  | .receive _ _ _ => inferInstanceAs (Decidable True)
  | .nextEvent => inferInstanceAs (Decidable True)
  | .request => inferInstanceAs (Decidable True)
  | .poll => inferInstanceAs (Decidable True)
  | .sent => inferInstanceAs (Decidable True)

/-- A peer is heard, and a periodic frame ends in the first half of a slot only the second
time. -/
def informed : List ManagementOp :=
  [.poll,.receive (fun _ => 3)
    { channelSequence := some (.simple (fun _ => 6))
      synchronizationParameters :=
        some (SynchronizationState.generateTlv ⟨fun _ => 6,0⟩ (fun _ => 3) 0 5000)
      txDelta := 0
      electionParametersV2 := none
      electionParameters := some ⟨50,4,fun _ => 4,50⟩
      serviceResponses := [] } 2000000,
    .wait 2081920,.poll,.request,.wait 2082400,.sent,.poll,.poll,.wait 2112700,.poll,
    .wait 2113100,.sent,.poll,.wait 2225300,.poll,.wait 2225700,.sent,.poll,.wait 2278600,.poll]

/-- The second information frame waits for that. -/
theorem management_of_runs_informed :
    let config : SessionConfig := ⟨fun _ => 1,⟨some 16,fun keys _ => keys.length⟩,4⟩
    let r : CommonResources := ⟨⟨[],List.nodup_nil⟩,⟨fun _ => 6,0⟩,.new (fun _ => 0),[]⟩
    ∃ s₀ s : ManagementRunner, begin config r 6 3000000 2000000 = some s₀ ∧
      Runs (Guarded (Prompt 3000000 1000) (Step config)) s₀ informed s ∧
      (s.psfs = [2112700,2225300] ∧ s.mifs = [2081920,2278600] ∧
        s.resources.peerCache.entries.map Prod.fst = [fun _ => 3]) ∧
      s.mifs.Pairwise (fun sent sent' => sent + mifGap 2000000 ≤ sent') ∧
      ∀ a peer, s.resources.peerCache.get a = some peer → s.clock ≤ peer.lastFrame + 6001000 := by
  intro config r
  have hrun : ((begin config r 6 3000000 2000000).bind (fun s₀ =>
      Runs.execute (Runs.nextGuarded (Prompt 3000000 1000) (next config)) s₀ informed)).any
      (fun s => decide (s.psfs = [2112700,2225300] ∧ s.mifs = [2081920,2278600] ∧
        s.resources.peerCache.entries.map Prod.fst = [fun _ => 3])) = true := by decide +kernel
  obtain ⟨s,hs,hsent⟩ := (Option.any_eq_true _ _).mp hrun
  obtain ⟨s₀,hb,hs⟩ := Option.bind_eq_some_iff.mp hs
  have hr := Runs.of_execute (Runs.guarded_of_nextGuarded fun _ _ _ h => h) hs
  obtain ⟨-,-,hspaced,hprompt⟩ := management_of_runs hb hr.of_guarded
  exact ⟨s₀,s,hb,hr,of_decide_eq_true hsent,hspaced,(hprompt 3000000 1000 le_rfl hr).2⟩

end ManagementRunner

end FerrisOnAir.Awdl

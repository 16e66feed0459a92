import FerrisOnAir.Awdl.Events
import FerrisOnAir.Awdl.Arithmetic

/-! # Nodes in reach of each other

Nodes that run this code broadcast their action frames, among frames of peers that are not
ours. What was sent once may be received by a node at any later time, several times or never.
Since a node advertises a metric and a counter that never change, and an equal metric does not
beat its own, nodes synchronise only by way of a peer that is not ours.
-/
namespace FerrisOnAir.Awdl
open Selection

namespace ElectionState

/-- The distance of the first version is one byte. -/
def generateTlvV1 (e : ElectionState) : ElectionParametersTLV where
  selfMetric := e.selfMetric
  distanceToMaster := e.distanceToMaster % 2 ^ 8
  masterAddress := e.rootPeer
  masterMetric := e.masterMetric

end ElectionState

/-- What others read of a frame that `serialize_and_send_action_frame` sends, `txDelta` after
its parameters were written; it fails at the unwrap of the second version. -/
def CommonResources.actionFrame (s : CommonResources) (flags : UInt8) (now txDelta : ℕ) :
    Option ActionFrame :=
  s.electionState.generateTlvV2.map (fun electionParametersV2 =>
    { channelSequence := some (.opClass (fun i => (s.syncState.channelSequence i,0x51)))
      synchronizationParameters :=
        some (s.syncState.generateTlv s.electionState.rootPeer flags now)
      txDelta := txDelta
      electionParametersV2 := some electionParametersV2
      electionParameters := some s.electionState.generateTlvV1
      serviceResponses := [] })

namespace CommonResources
variable {config : SessionConfig} {s t : CommonResources} {op : SessionOp}

/-- What a session may do in a step: nothing but to its queue, to one entry that it then
follows if it followed it before, or to the cache with an election behind it. -/
inductive Change (config : SessionConfig) (s : CommonResources) :
    SessionOp → CommonResources → Prop
  | queue {op : SessionOp} (queue : List AwdlEvent) :
      Change config s op { s with eventQueue := queue }
  | updated {transmitter : Address} {frame : ActionFrame} {rxTimestamp now : ℕ}
      {peer p : AwdlPeer} (queue : List AwdlEvent)
      (hpeer : s.peerCache.get transmitter = some peer)
      (hp : (peer.update frame rxTimestamp now).1 = p)
      (hmaster : s.electionState.isMaster transmitter = false) :
      Change config s (.processActionFrame transmitter frame rxTimestamp now)
        { s with peerCache := s.peerCache.set transmitter p, eventQueue := queue }
  | followed {transmitter : Address} {frame : ActionFrame} {rxTimestamp now : ℕ}
      {peer p : AwdlPeer} (queue : List AwdlEvent)
      (hpeer : s.peerCache.get transmitter = some peer)
      (hp : (peer.update frame rxTimestamp now).1 = p)
      (hmaster : s.electionState.isMaster transmitter = true) :
      Change config s (.processActionFrame transmitter frame rxTimestamp now)
        (adoptPeerAsMaster { s with
          peerCache := s.peerCache.set transmitter p
          eventQueue := queue } transmitter p)
  | added {transmitter : Address} {frame : ActionFrame} {rxTimestamp now : ℕ} {peer : AwdlPeer}
      (queue : List AwdlEvent) (hpeer : s.peerCache.get transmitter = none)
      (hnew : AwdlPeer.newWithActionFrame frame rxTimestamp now = some peer) :
      Change config s (.processActionFrame transmitter frame rxTimestamp now)
        (electMaster config { s with
          peerCache := s.peerCache.insert config.implementation transmitter peer
          eventQueue := queue })
  | retained {op : SessionOp} (queue : List AwdlEvent) (keep : Address → AwdlPeer → Bool) :
      Change config s op (electMaster config
        { s with peerCache := s.peerCache.retain keep, eventQueue := queue })

theorem retain_all (cache : PeerCache) : cache.retain (fun _ _ => true) = cache :=
  PeerCache.ext_entries (List.filter_eq_self.mpr (fun _ _ => rfl))

theorem step_change (config : SessionConfig) (s : CommonResources) (op : SessionOp) :
    Change config s op (s.step config op) := by
  cases op with
  | processActionFrame transmitter frame rxTimestamp now =>
    change Change config s _ (s.processActionFrame config transmitter frame rxTimestamp now)
    cases hpeer : s.peerCache.get transmitter with
    | some peer =>
      obtain ⟨queue,hqueue⟩ := ite_raiseUserEvent_eq config
        { s with peerCache := s.peerCache.set transmitter (peer.update frame rxTimestamp now).1 }
        (.discoveredServiceForPeer transmitter (peer.update frame rxTimestamp now).1.airdropPort
          (peer.update frame rxTimestamp now).1.airplayPort)
        (peer.update frame rxTimestamp now).2
      simp only [processActionFrame,hpeer,hqueue]
      split
      · rename_i hmaster
        exact .followed queue hpeer rfl hmaster
      · rename_i hmaster
        exact .updated queue hpeer rfl (Bool.eq_false_of_not_eq_true hmaster)
    | none =>
      simp only [processActionFrame,hpeer]
      split
      · exact .queue s.eventQueue
      · cases hnew : AwdlPeer.newWithActionFrame frame rxTimestamp now with
        | none => exact .queue s.eventQueue
        | some peer =>
          obtain ⟨queue,hqueue⟩ := raiseUserEvent_eq config s (.peerDiscovered transmitter)
          simp only [hqueue]
          exact .added queue hpeer hnew
  | stalePeerTick timeout now =>
    obtain ⟨queue,hpurge⟩ := purgeStalePeers_eq config s timeout now
    change Change config s _ ((s.purgeStalePeers config timeout now).electMaster config)
    rw [hpurge]
    exact .retained queue _
  | electMaster =>
    have h : Change config s .electMaster _ := .retained s.eventQueue (fun _ _ => true)
    rw [retain_all] at h
    exact h
  | nextEvent => exact .queue s.eventQueue.tail

/-- What everybody says of itself in an election has a property. -/
def Advertises (Q : Address → ElectionState → Prop) (transmitter : Address) (frame : ActionFrame) :
    Prop :=
  ∀ e, ElectionState.fromAf frame = some e → Q transmitter e

/-- What the cache says of anybody has it. -/
def Caches (Q : Address → ElectionState → Prop) (s : CommonResources) : Prop :=
  ∀ a peer, s.peerCache.get a = some peer → Q a peer.electionState

/-- The frame of an operation is one of those. -/
def Hears (Q : Address → ElectionState → Prop) : SessionOp → Prop
  | .processActionFrame transmitter frame _ _ => Advertises Q transmitter frame
  | _ => True

variable {Q : Address → ElectionState → Prop}

theorem fromAf_of_new {frame : ActionFrame} {rxTimestamp now : ℕ} {peer : AwdlPeer}
    (h : AwdlPeer.newWithActionFrame frame rxTimestamp now = some peer) :
    ElectionState.fromAf frame = some peer.electionState := by
  obtain ⟨sync,_,h⟩ := Option.bind_eq_some_iff.mp h
  obtain ⟨election,helection,rfl⟩ := Option.map_eq_some_iff.mp h
  exact helection

theorem peerCache_electMaster : (s.electMaster config).peerCache = s.peerCache :=
  (electMaster_frame config s).1

theorem caches_set {transmitter : Address} {frame : ActionFrame} {rxTimestamp now : ℕ}
    {peer : AwdlPeer} (hs : s.Caches Q) (hframe : Advertises Q transmitter frame)
    (hpeer : s.peerCache.get transmitter = some peer) (a : Address) (p : AwdlPeer)
    (hp : (s.peerCache.set transmitter (peer.update frame rxTimestamp now).1).get a = some p) :
    Q a p.electionState := by
  by_cases ha : a = transmitter
  · subst ha
    rw [PeerCache.get_set_self (hpeer ▸ rfl)] at hp
    obtain rfl := Option.some.inj hp
    rw [update_electionState]
    cases he : ElectionState.fromAf frame with
    | none => exact hs a peer hpeer
    | some e => exact hframe e he
  · rw [PeerCache.get_set_of_ne ha] at hp
    exact hs a p hp

theorem caches_change (hs : s.Caches Q) (hop : Hears Q op) (h : Change config s op t) :
    t.Caches Q := by
  cases h with
  | queue queue => exact hs
  | updated queue hpeer hp hmaster =>
    subst hp
    exact caches_set hs hop hpeer
  | followed queue hpeer hp hmaster =>
    subst hp
    exact caches_set hs hop hpeer
  | @added transmitter frame rxTimestamp now peer queue hpeer hnew =>
    intro a p hp
    rw [peerCache_electMaster] at hp
    by_cases ha : a = transmitter
    · subst ha
      rw [PeerCache.get_insert_self hpeer] at hp
      obtain rfl := Option.some.inj hp
      exact hop _ (fromAf_of_new hnew)
    · rw [PeerCache.get_insert_of_ne hpeer ha] at hp
      exact hs a p hp
  | retained queue keep =>
    intro a p hp
    rw [peerCache_electMaster,PeerCache.get_retain] at hp
    exact hs a p (Option.filter_eq_some_iff.mp hp).1

/-! ## Without a rival -/

/-- A peer that cannot win against a node, or that has a counter and is none of `N`. -/
def NoRival (N : Address → Prop) (a : Address) (e : ElectionState) : Prop :=
  e.selfMetric ≤ 60 ∨ e.selfCounter.isSome ∧ ¬ N a

/-- The node follows itself or somebody outside `N`. -/
def FollowsOutside (config : SessionConfig) (N : Address → Prop) (s : CommonResources) : Prop :=
  ∃ p, s.electionState.syncPeer = some p ∧ (p = config.ourAddress ∨ ¬ N p)

variable {N : Address → Prop}

/-- The best candidate so far has a counter and no lower metric than the node, so only a
higher one displaces it. -/
theorem winner_of_noRival (hs : s.Counted) (hcache : s.Caches (NoRival N)) :
    s.peerCache.winner config.ourAddress = config.ourAddress ∨
      ¬ N (s.peerCache.winner config.ourAddress) := by
  rw [← winner_eq config hs]
  have h : ∃ c, (s.peerCache.mostEligiblePeer s.electionState config.ourAddress).2.selfCounter =
      some c ∧ 60 ≤ (s.peerCache.mostEligiblePeer s.electionState
        config.ourAddress).2.selfMetric ∧
      ((s.peerCache.mostEligiblePeer s.electionState config.ourAddress).1 = config.ourAddress ∨
        ¬ N (s.peerCache.mostEligiblePeer s.electionState config.ourAddress).1) := by
    refine select_induction (p := fun b : Address × ElectionState => ∃ c, b.2.selfCounter = some c ∧
      60 ≤ b.2.selfMetric ∧ (b.1 = config.ourAddress ∨ ¬ N b.1)) ?_ ?_
    · exact ⟨0,hs.selfCounter,hs.selfMetric.ge,.inl rfl⟩
    · rintro b x hx ⟨c,hc,hle,-⟩ hbeats
      rw [PeerCache.beats,ElectionState.isMoreEligible_of_counter hc] at hbeats
      have hlt := of_decide_eq_true hbeats
      obtain ⟨entry,hentry,rfl⟩ := List.mem_map.mp hx
      rcases hcache entry.1 entry.2 (PeerCache.get_eq_some_iff.mpr hentry) with hlow | ⟨hc,hn⟩
      · exact absurd (hle.trans_lt hlt) hlow.not_gt
      · obtain ⟨c,hc⟩ := Option.isSome_iff_exists.mp hc
        exact ⟨c,hc,(hle.trans_lt hlt).le,.inr hn⟩
  obtain ⟨c,-,-,h⟩ := h
  exact h

theorem followsOutside_electMaster (hs : s.Counted) (hsync : s.electionState.syncPeer.isSome)
    (hcache : (s.electMaster config).Caches (NoRival N)) :
    (s.electMaster config).FollowsOutside config N := by
  refine ⟨_,syncPeer_electMaster hs hsync,winner_of_noRival hs ?_⟩
  intro a p hp
  exact hcache a p (by rw [peerCache_electMaster]; exact hp)

theorem followsOutside_change (hs : s.MasterConsistent config) (ht : t.Caches (NoRival N))
    (h : Change config s op t) (hf : s.FollowsOutside config N) : t.FollowsOutside config N := by
  cases h with
  | queue queue => exact hf
  | updated queue hpeer hp hmaster => exact hf
  | @followed transmitter frame rxTimestamp now peer p queue hpeer hp hmaster =>
    obtain ⟨q,hq,hout⟩ := hf
    have heq := (isMaster_iff hs.syncPeer_isSome).mp hmaster
    obtain rfl := Option.some.inj (hq.symm.trans heq)
    exact ⟨q,rfl,hout⟩
  | added queue hpeer hnew =>
    exact followsOutside_electMaster (hs.counted.congr rfl) hs.syncPeer_isSome ht
  | retained queue keep =>
    exact followsOutside_electMaster (hs.counted.congr rfl) hs.syncPeer_isSome ht

/-- A node that follows itself at every time is in the state in which its session began. -/
theorem alone_change (hnew : s.electionState = .new config.ourAddress)
    (ht : t.Caches (NoRival (fun _ => True))) (hs : s.Counted)
    (hother : ∀ transmitter frame rxTimestamp now,
      op = .processActionFrame transmitter frame rxTimestamp now →
        transmitter ≠ config.ourAddress)
    (h : Change config s op t) :
    t.electionState = .new config.ourAddress ∧ t.syncState = s.syncState := by
  have helect : ∀ u : CommonResources, u.Counted → u.electionState = s.electionState →
      (u.electMaster config).Caches (NoRival (fun _ => True)) →
      (u.electMaster config).electionState = .new config.ourAddress ∧
        (u.electMaster config).syncState = u.syncState := by
    intro u hu he hcache
    have hwinner : u.peerCache.winner config.ourAddress = config.ourAddress := by
      refine (winner_of_noRival (N := fun _ => True) hu ?_).resolve_right (fun h => h trivial)
      intro a p hp
      exact hcache a p (by rw [peerCache_electMaster]; exact hp)
    rcases outcome_electMaster config hu with ⟨peer,hne,-,-⟩ | ⟨-,heq⟩
    · exact absurd hwinner hne
    · rw [heq]
      split
      · exact ⟨he.trans hnew,rfl⟩
      · exact ⟨rfl,rfl⟩
  cases h with
  | queue queue => exact ⟨hnew,rfl⟩
  | updated queue hpeer hp hmaster => exact ⟨hnew,rfl⟩
  | @followed transmitter frame rxTimestamp now peer p queue hpeer hp hmaster =>
    have hsync : s.electionState.syncPeer.isSome := by
      rw [hnew]
      rfl
    have heq := (isMaster_iff hsync).mp hmaster
    rw [hnew] at heq
    exact absurd (Option.some.inj heq).symm (hother _ _ _ _ rfl)
  | added queue hpeer hpeernew => exact helect _ (hs.congr rfl) rfl ht
  | retained queue keep => exact helect _ (hs.congr rfl) rfl ht

/-! ## With a leader -/

/-- The leader is its own master, with a counter and a metric that nobody else reaches. -/
structure LedBy (leader : Address) (metric : ℕ) (a : Address) (e : ElectionState) : Prop where
  leads : a = leader → e.selfCounter.isSome ∧ metric ≤ e.selfMetric ∧ e.rootPeer = leader ∧
    e.distanceToMaster = 0
  others : a ≠ leader → e.selfMetric < metric

/-- Who has the leader in the cache follows it. -/
def Loyal (leader : Address) (s : CommonResources) : Prop :=
  (s.peerCache.get leader).isSome → s.electionState.syncPeer = some leader

variable {leader : Address} {metric : ℕ}

theorem winner_of_ledBy (hs : s.Counted) (hmetric : 60 < metric)
    (hne : leader ≠ config.ourAddress) (hcache : s.Caches (LedBy leader metric))
    (hleader : (s.peerCache.get leader).isSome) :
    s.peerCache.winner config.ourAddress = leader := by
  obtain ⟨peer,hpeer⟩ := Option.isSome_iff_exists.mp hleader
  obtain ⟨hcounter,hle,-,-⟩ := (hcache leader peer hpeer).leads rfl
  obtain ⟨c,hc⟩ := Option.isSome_iff_exists.mp hcounter
  have hmem : (leader,peer.electionState) ∈
      s.peerCache.candidates s.electionState config.ourAddress :=
    List.mem_cons_of_mem _ (List.mem_map.mpr ⟨_,PeerCache.get_eq_some_iff.mp hpeer,rfl⟩)
  -- any other candidate is the node or an entry with another address
  have hother : ∀ b ∈ s.peerCache.candidates s.electionState config.ourAddress,
      b ≠ (leader,peer.electionState) → b.2.selfMetric < metric := by
    intro b hb hbne
    by_cases hown : b.1 = config.ourAddress
    · rcases List.mem_cons.mp hb with rfl | hb
      · exact hs.selfMetric.trans_lt hmetric
      · obtain ⟨entry,hentry,rfl⟩ := List.mem_map.mp hb
        refine (hcache entry.1 entry.2 (PeerCache.get_eq_some_iff.mpr hentry)).others ?_
        intro heq
        exact hne (heq.symm.trans hown)
    · obtain ⟨p,hp,hpe⟩ := PeerCache.get_candidate hb hown
      have hbleader : b.1 ≠ leader := by
        intro heq
        rw [heq,hpeer] at hp
        obtain rfl := Option.some.inj hp
        exact hbne (Prod.ext heq hpe.symm)
      rw [← hpe]
      exact (hcache b.1 p hp).others hbleader
  rw [← winner_eq config hs]
  refine congrArg Prod.fst (select_eq_of_beats hmem ?_ ?_)
  · intro b hb
    rw [PeerCache.beats,ElectionState.isMoreEligible_of_counter hc,decide_eq_false_iff_not]
    by_cases hbne : b = (leader,peer.electionState)
    · rw [hbne]
      exact lt_irrefl _
    · exact ((hother b hb hbne).trans_le hle).not_gt
  · intro b hb hbne
    rw [PeerCache.beats]
    cases hbc : b.2.selfCounter with
    | none => exact (ElectionState.isMoreEligible_of_none hbc).mpr (.inl hcounter)
    | some c' =>
      rw [ElectionState.isMoreEligible_of_counter hbc]
      exact decide_eq_true ((hother b hb hbne).trans_le hle)

theorem loyal_electMaster (hs : s.Counted) (hsync : s.electionState.syncPeer.isSome)
    (hmetric : 60 < metric) (hne : leader ≠ config.ourAddress)
    (hcache : (s.electMaster config).Caches (LedBy leader metric)) :
    (s.electMaster config).Loyal leader := by
  intro hleader
  rw [peerCache_electMaster] at hleader
  rw [syncPeer_electMaster hs hsync,winner_of_ledBy hs hmetric hne ?_ hleader]
  intro a p hp
  exact hcache a p (by rw [peerCache_electMaster]; exact hp)

theorem loyal_change (hs : s.MasterConsistent config) (hmetric : 60 < metric)
    (hne : leader ≠ config.ourAddress) (ht : t.Caches (LedBy leader metric))
    (h : Change config s op t) (hl : s.Loyal leader) : t.Loyal leader := by
  have hset : ∀ transmitter peer p, s.peerCache.get transmitter = some peer →
      ((s.peerCache.set transmitter p).get leader).isSome → (s.peerCache.get leader).isSome := by
    intro transmitter peer p hpeer hsome
    by_cases ha : leader = transmitter
    · rw [ha,hpeer]
      rfl
    · rw [PeerCache.get_set_of_ne ha] at hsome
      exact hsome
  cases h with
  | queue queue => exact hl
  | updated queue hpeer hp hmaster => exact fun hleader => hl (hset _ _ _ hpeer hleader)
  | followed queue hpeer hp hmaster =>
    intro hleader
    have heq := (isMaster_iff hs.syncPeer_isSome).mp hmaster
    exact heq.symm.trans (hl (hset _ _ _ hpeer hleader))
  | added queue hpeer hnew =>
    exact loyal_electMaster (hs.counted.congr rfl) hs.syncPeer_isSome hmetric hne ht
  | retained queue keep =>
    exact loyal_electMaster (hs.counted.congr rfl) hs.syncPeer_isSome hmetric hne ht

/-- The services have their own places in a peer. -/
theorem update_eq (peer : AwdlPeer) (frame : ActionFrame) (rxTimestamp now : ℕ) :
    ∃ airdropPort airplayPort, (peer.update frame rxTimestamp now).1 =
      ⟨(SynchronizationState.fromAf frame rxTimestamp).getD peer.synchronizationState,
        (ElectionState.fromAf frame).getD peer.electionState,now,airdropPort,airplayPort⟩ := by
  have hfold : ∀ (responses : List ServiceResponse) (r : AwdlPeer × Bool),
      ∃ airdropPort airplayPort, (responses.foldl AwdlPeer.addService r).1 =
        { r.1 with airdropPort := airdropPort, airplayPort := airplayPort } := by
    intro responses
    induction responses with
    | nil => exact fun r => ⟨_,_,rfl⟩
    | cons response responses ih =>
      intro r
      obtain ⟨airdropPort,airplayPort,hrest⟩ := ih (AwdlPeer.addService r response)
      refine ⟨airdropPort,airplayPort,?_⟩
      rw [List.foldl_cons,hrest]
      unfold AwdlPeer.addService
      split
      · split <;> rfl
      · split <;> rfl
      · rfl
  exact hfold _ _

theorem update_synchronizationState (peer : AwdlPeer) (frame : ActionFrame)
    (rxTimestamp now : ℕ) : (peer.update frame rxTimestamp now).1.synchronizationState =
      (SynchronizationState.fromAf frame rxTimestamp).getD peer.synchronizationState := by
  obtain ⟨airdropPort,airplayPort,h⟩ := update_eq peer frame rxTimestamp now
  rw [h]

/-- After a frame with both kinds of parameters its sender is cached with the clock of this
frame, unless it was not before and there is no room. -/
theorem get_processActionFrame (config : SessionConfig) (s : CommonResources) (now : ℕ)
    {transmitter : Address} {frame : ActionFrame} {rxTimestamp : ℕ} {sync : SynchronizationState}
    (hsync : SynchronizationState.fromAf frame rxTimestamp = some sync)
    (helection : (ElectionState.fromAf frame).isSome)
    (hroom : (s.peerCache.get transmitter).isSome ∨
      s.peerCache.isFull config.implementation = false) :
    ∃ p, (s.processActionFrame config transmitter frame rxTimestamp now).peerCache.get
      transmitter = some p ∧ p.synchronizationState = sync := by
  cases hpeer : s.peerCache.get transmitter with
  | some peer =>
    refine ⟨(peer.update frame rxTimestamp now).1,?_,?_⟩
    · rw [(processActionFrame_known hpeer rfl).1]
      exact PeerCache.get_set_self (hpeer ▸ rfl)
    · rw [update_synchronizationState,hsync]
      rfl
  | none =>
    rw [hpeer] at hroom
    have hfull := hroom.resolve_left Bool.false_ne_true
    obtain ⟨election,helection⟩ := Option.isSome_iff_exists.mp helection
    have hnew : AwdlPeer.newWithActionFrame frame rxTimestamp now =
        some ⟨sync,election,now,none,none⟩ := by
      rw [AwdlPeer.newWithActionFrame,hsync,helection]
      rfl
    refine ⟨⟨sync,election,now,none,none⟩,?_,rfl⟩
    rw [(processActionFrame_new hpeer hfull hnew).1]
    exact PeerCache.get_insert_self hpeer

end CommonResources

/-- Nodes with addresses of their own. -/
structure MediumConfig (ι : Type*) where
  session : ι → SessionConfig
  injective : Function.Injective (fun i => (session i).ourAddress)

def MediumConfig.address {ι : Type*} (config : MediumConfig ι) (i : ι) : Address :=
  (config.session i).ourAddress

/-- The sessions of all nodes and every frame that was sent. -/
structure Medium (ι : Type*) where
  nodes : ι → CommonResources
  air : List (Address × ActionFrame)

inductive MediumOp (ι : Type*)
  | begin (i : ι) (channel : UInt8) (now : ℕ)
  | transmit (i : ι) (flags : UInt8) (now txDelta : ℕ)
  | foreign (transmitter : Address) (frame : ActionFrame)
  | receive (i : ι) (k rxTimestamp now : ℕ)
  | stalePeerTick (i : ι) (timeout now : ℕ)
  | nextEvent (i : ι)

namespace Medium
variable {ι : Type*} [DecidableEq ι] (config : MediumConfig ι) (s : Medium ι)

def withNode (i : ι) (node : CommonResources) : Medium ι :=
  { s with nodes := Function.update s.nodes i node }

/-- A node hears any frame that was sent, but none under its own address. -/
def next : MediumOp ι → Option (Medium ι)
  | .begin i channel now =>
    some (s.withNode i (CommonResources.initializeSessionParameters (config.session i)
      { s.nodes i with peerCache := ⟨[],List.nodup_nil⟩ } channel now))
  | .transmit i flags now txDelta =>
    ((s.nodes i).actionFrame flags now txDelta).map (fun frame =>
      { s with air := s.air ++ [(config.address i,frame)] })
  | .foreign transmitter frame => some { s with air := s.air ++ [(transmitter,frame)] }
  | .receive i k rxTimestamp now =>
    s.air[k]?.bind (fun sent =>
      if sent.1 = config.address i then none
      else some (s.withNode i
        ((s.nodes i).step (config.session i) (.processActionFrame sent.1 sent.2 rxTimestamp now))))
  | .stalePeerTick i timeout now =>
    some (s.withNode i ((s.nodes i).step (config.session i) (.stalePeerTick timeout now)))
  | .nextEvent i => some (s.withNode i ((s.nodes i).step (config.session i) .nextEvent))

/-- Frames that are not ours are restricted by an assumption. -/
def Step (ok : Address → ActionFrame → Prop) (s : Medium ι) (op : MediumOp ι) (t : Medium ι) :
    Prop :=
  s.next config op = some t ∧
    ∀ transmitter frame, op = .foreign transmitter frame → ok transmitter frame

/-- Every node has just begun its session and nothing was sent. -/
structure Fresh : Prop where
  consistent : ∀ i, (s.nodes i).MasterConsistent (config.session i)
  election : ∀ i, (s.nodes i).electionState = .new (config.address i)
  cache : ∀ i, (s.nodes i).peerCache.entries = []
  air : s.air = []

variable {config s} {t : Medium ι} {op : MediumOp ι} {i j : ι}

@[simp] theorem withNode_self {node : CommonResources} : (s.withNode i node).nodes i = node :=
  Function.update_self ..

@[simp] theorem withNode_of_ne {node : CommonResources} (h : j ≠ i) :
    (s.withNode i node).nodes j = s.nodes j := Function.update_of_ne h ..

/-- What a step does: it adds a frame of a node or of somebody else, or one node begins a
session or takes a step of it, and then what it hears was sent. -/
inductive Progress (config : MediumConfig ι) (s : Medium ι) : MediumOp ι → Medium ι → Prop
  | transmit {i : ι} {flags : UInt8} {now txDelta : ℕ} {frame : ActionFrame}
      (hframe : (s.nodes i).actionFrame flags now txDelta = some frame) :
      Progress config s (.transmit i flags now txDelta)
        { s with air := s.air ++ [(config.address i,frame)] }
  | foreign {transmitter : Address} {frame : ActionFrame} :
      Progress config s (.foreign transmitter frame)
        { s with air := s.air ++ [(transmitter,frame)] }
  | begin {i : ι} {channel : UInt8} {now : ℕ} :
      Progress config s (.begin i channel now)
        (s.withNode i (CommonResources.initializeSessionParameters (config.session i)
          { s.nodes i with peerCache := ⟨[],List.nodup_nil⟩ } channel now))
  | receive {i : ι} {k rxTimestamp now : ℕ} {transmitter : Address} {frame : ActionFrame}
      (hsent : (transmitter,frame) ∈ s.air) (hother : transmitter ≠ config.address i) :
      Progress config s (.receive i k rxTimestamp now) (s.withNode i
        ((s.nodes i).step (config.session i)
          (.processActionFrame transmitter frame rxTimestamp now)))
  | stalePeerTick {i : ι} {timeout now : ℕ} :
      Progress config s (.stalePeerTick i timeout now)
        (s.withNode i ((s.nodes i).step (config.session i) (.stalePeerTick timeout now)))
  | nextEvent {i : ι} :
      Progress config s (.nextEvent i)
        (s.withNode i ((s.nodes i).step (config.session i) .nextEvent))

theorem next_progress (h : s.next config op = some t) : Progress config s op t := by
  cases op with
  | begin i channel now =>
    cases h
    exact .begin
  | transmit i flags now txDelta =>
    obtain ⟨frame,hframe,rfl⟩ := Option.map_eq_some_iff.mp h
    exact .transmit hframe
  | foreign transmitter frame =>
    cases h
    exact .foreign
  | receive i k rxTimestamp now =>
    obtain ⟨sent,hsent,h⟩ := Option.bind_eq_some_iff.mp h
    split at h
    · cases h
    · rename_i hother
      cases h
      exact .receive (List.mem_of_getElem? hsent) hother
  | stalePeerTick i timeout now =>
    cases h
    exact .stalePeerTick
  | nextEvent i =>
    cases h
    exact .nextEvent

open CommonResources

/-- What every node has heard so far has a property, and its session is consistent. -/
structure Heard (config : MediumConfig ι) (Q : Address → ElectionState → Prop) (s : Medium ι) :
    Prop where
  air : ∀ p ∈ s.air, Advertises Q p.1 p.2
  cached : ∀ i, (s.nodes i).Caches Q
  consistent : ∀ i, (s.nodes i).MasterConsistent (config.session i)

variable {Q : Address → ElectionState → Prop} {ok : Address → ActionFrame → Prop}

omit [DecidableEq ι] in
theorem heard_fresh (h : s.Fresh config) : s.Heard config Q where
  air := by
    rw [h.air]
    rintro p ⟨⟩
  cached := by
    intro i a p hp
    have hmem := PeerCache.get_eq_some_iff.mp hp
    rw [h.cache i] at hmem
    cases hmem
  consistent := h.consistent

/-- A frame of a node says of it what its election state does. -/
theorem fromAf_actionFrame {node : CommonResources} {flags : UInt8} {now txDelta : ℕ}
    {frame : ActionFrame} (h : node.actionFrame flags now txDelta = some frame) :
    ElectionState.fromAf frame = some node.electionState := by
  obtain ⟨tlv,htlv,rfl⟩ := Option.map_eq_some_iff.mp h
  exact ElectionState.fromAf_generateTlvV2 htlv.symm (htlv ▸ rfl)

/-- The session operation behind an operation, with what it hears. -/
theorem heard_withNode (hs : s.Heard config Q) {node : CommonResources} (hcached : node.Caches Q)
    (hnode : node.MasterConsistent (config.session i)) : (s.withNode i node).Heard config Q where
  air := hs.air
  cached := by
    intro j
    by_cases h : j = i
    · subst h
      rw [withNode_self]
      exact hcached
    · rw [withNode_of_ne h]
      exact hs.cached j
  consistent := by
    intro j
    by_cases h : j = i
    · subst h
      rw [withNode_self]
      exact hnode
    · rw [withNode_of_ne h]
      exact hs.consistent j

theorem heard_session (hs : s.Heard config Q) {op : SessionOp} (hop : Hears Q op) :
    (s.withNode i ((s.nodes i).step (config.session i) op)).Heard config Q :=
  heard_withNode hs (caches_change (hs.cached i) hop (step_change _ _ op))
    (masterConsistent_step (hs.consistent i) rfl)

omit [DecidableEq ι] in
theorem heard_air (hs : s.Heard config Q) {transmitter : Address} {frame : ActionFrame}
    (h : Advertises Q transmitter frame) :
    Heard config Q { s with air := s.air ++ [(transmitter,frame)] } where
  air := by
    intro p hp
    rcases List.mem_append.mp hp with hp | hp
    · exact hs.air p hp
    · obtain rfl := List.mem_singleton.mp hp
      exact h
  cached := hs.cached
  consistent := hs.consistent

/-- If the property holds of the nodes themselves and of all others, it holds of all that is
heard. -/
theorem heard_step (hnode : ∀ i e, e.selfCounter = some 0 → e.selfMetric = 60 →
      Q (config.address i) e)
    (hforeign : ∀ transmitter frame, ok transmitter frame → Advertises Q transmitter frame)
    (hs : s.Heard config Q) (h : Step config ok s op t) : t.Heard config Q := by
  obtain ⟨hnext,hok⟩ := h
  cases next_progress hnext with
  | @transmit i flags now txDelta frame hframe =>
    refine heard_air hs (fun e he => ?_)
    obtain rfl := Option.some.inj ((fromAf_actionFrame hframe).symm.trans he)
    have hcounted := (hs.consistent i).counted
    exact hnode i _ hcounted.selfCounter hcounted.selfMetric
  | foreign => exact heard_air hs (hforeign _ _ (hok _ _ rfl))
  | @begin i channel now =>
    refine heard_withNode hs ?_ (masterConsistent_new channel now)
    intro a p hp
    have hmem := PeerCache.get_eq_some_iff.mp hp
    cases hmem
  | receive hsent hother => exact heard_session hs (hs.air _ hsent)
  | stalePeerTick => exact heard_session hs trivial
  | nextEvent => exact heard_session hs trivial

theorem change_withNode (op : SessionOp) : Change (config.session i) (s.nodes i) op
    ((s.withNode i ((s.nodes i).step (config.session i) op)).nodes i) := by
  rw [withNode_self]
  exact step_change _ _ op

/-- What a step does to one node. -/
theorem node_cases (h : Step config ok s op t) (i : ι) :
    (t.nodes i = s.nodes i ∧ ∀ channel now, op ≠ .begin i channel now) ∨
    (∃ channel now, op = .begin i channel now ∧
      t.nodes i = CommonResources.initializeSessionParameters (config.session i)
        { s.nodes i with peerCache := ⟨[],List.nodup_nil⟩ } channel now) ∨
    ∃ op' : SessionOp, Change (config.session i) (s.nodes i) op' (t.nodes i) ∧
      (∀ channel now, op ≠ .begin i channel now) ∧
      ∀ transmitter frame rxTimestamp now,
        op' = .processActionFrame transmitter frame rxTimestamp now →
          transmitter ≠ config.address i := by
  cases next_progress h.1 with
  | transmit hframe =>
    refine .inl ⟨rfl,?_⟩
    rintro _ _ ⟨⟩
  | foreign =>
    refine .inl ⟨rfl,?_⟩
    rintro _ _ ⟨⟩
  | @begin j channel now =>
    by_cases hij : i = j
    · subst hij
      exact .inr (.inl ⟨channel,now,rfl,withNode_self⟩)
    · refine .inl ⟨withNode_of_ne hij,?_⟩
      rintro _ _ ⟨⟩
      exact hij rfl
  | @receive j k rxTimestamp now transmitter frame hsent hother =>
    by_cases hij : i = j
    · subst hij
      refine .inr (.inr ⟨_,change_withNode _,?_,?_⟩)
      · rintro _ _ ⟨⟩
      · rintro _ _ _ _ ⟨⟩
        exact hother
    · refine .inl ⟨withNode_of_ne hij,?_⟩
      rintro _ _ ⟨⟩
  | @stalePeerTick j timeout now =>
    by_cases hij : i = j
    · subst hij
      refine .inr (.inr ⟨_,change_withNode _,?_,?_⟩)
      · rintro _ _ ⟨⟩
      · rintro _ _ _ _ ⟨⟩
    · refine .inl ⟨withNode_of_ne hij,?_⟩
      rintro _ _ ⟨⟩
  | @nextEvent j =>
    by_cases hij : i = j
    · subst hij
      refine .inr (.inr ⟨_,change_withNode _,?_,?_⟩)
      · rintro _ _ ⟨⟩
      · rintro _ _ _ _ ⟨⟩
    · refine .inl ⟨withNode_of_ne hij,?_⟩
      rintro _ _ ⟨⟩

/-- If whoever has a higher metric than a node has a counter too and is no node, then no node
ever follows another one, whatever is lost, delayed or repeated. -/
theorem follows_no_node {ops : List (MediumOp ι)} (hs : s.Fresh config)
    (hr : Runs (Step config (Advertises (NoRival (fun a => ∃ j, a = config.address j)))) s ops t)
    (i : ι) : ∃ p, (t.nodes i).electionState.syncPeer = some p ∧
      (p = config.address i ∨ ∀ j, p ≠ config.address j) := by
  let N : Address → Prop := fun a => ∃ j, a = config.address j
  have h : t.Heard config (NoRival N) ∧
      ∀ i, (t.nodes i).FollowsOutside (config.session i) N := by
    refine hr.invariant (I := fun s => s.Heard config (NoRival N) ∧
      ∀ i, (s.nodes i).FollowsOutside (config.session i) N) ?_ ⟨heard_fresh hs,fun i => ?_⟩
    · rintro s op t ⟨hs,hf⟩ h
      have ht := heard_step (fun _ _ _ hmetric => .inl hmetric.le) (fun _ _ h => h) hs h
      refine ⟨ht,fun i => ?_⟩
      rcases node_cases h i with ⟨heq,-⟩ | ⟨channel,now,-,heq⟩ | ⟨op',hchange,-,-⟩
      · exact heq ▸ hf i
      · rw [heq]
        exact ⟨_,rfl,.inl rfl⟩
      · exact followsOutside_change (hs.consistent i) (ht.cached i) hchange (hf i)
    · rw [FollowsOutside,hs.election i]
      exact ⟨_,rfl,.inl rfl⟩
  obtain ⟨p,hp,hout⟩ := h.2 i
  exact ⟨p,hp,hout.imp_right (fun hn j hj => hn ⟨j,hj⟩)⟩

/-- Nobody is above the metric of a node. -/
def NoneAbove (transmitter : Address) (frame : ActionFrame) : Prop :=
  Advertises (fun _ e => e.selfMetric ≤ 60) transmitter frame

/-- The state in which a session begins lasts as long as the session. -/
structure Alone (config : MediumConfig ι) (s : Medium ι) : Prop where
  heard : s.Heard config (NoRival (fun _ => True))
  election : ∀ i, (s.nodes i).electionState = .new (config.address i)

theorem alone_step (hs : s.Alone config) (h : Step config NoneAbove s op t) :
    t.Alone config ∧ ∀ i, (∀ channel now, op ≠ .begin i channel now) →
      (t.nodes i).syncState = (s.nodes i).syncState := by
  have ht := heard_step (fun _ _ _ hmetric => .inl hmetric.le) (fun _ _ h e he => .inl (h e he))
    hs.heard h
  have hnode : ∀ i, (t.nodes i).electionState = .new (config.address i) ∧
      ((∀ channel now, op ≠ .begin i channel now) →
        (t.nodes i).syncState = (s.nodes i).syncState) := by
    intro i
    rcases node_cases h i with ⟨heq,-⟩ | ⟨channel,now,hop,heq⟩ | ⟨op',hchange,-,hother⟩
    · rw [heq]
      exact ⟨hs.election i,fun _ => rfl⟩
    · rw [heq]
      exact ⟨rfl,fun hne => absurd hop (hne channel now)⟩
    · obtain ⟨helection,hsync⟩ := alone_change (hs.election i) (ht.cached i)
        (hs.heard.consistent i).counted hother hchange
      exact ⟨helection,fun _ => hsync⟩
  exact ⟨⟨ht,fun i => (hnode i).1⟩,fun i => (hnode i).2⟩

/-- Who has the leader in its cache follows it. -/
structure Led (config : MediumConfig ι) (leader : Address) (metric : ℕ) (s : Medium ι) : Prop where
  heard : s.Heard config (LedBy leader metric)
  loyal : ∀ i, (s.nodes i).Loyal leader

section Led
variable {leader : Address} {metric : ℕ} (hmetric : 60 < metric)
  (hleader : ∀ i, leader ≠ config.address i)
include hmetric hleader

theorem led_step (hs : s.Led config leader metric)
    (h : Step config (Advertises (LedBy leader metric)) s op t) : t.Led config leader metric := by
  have hnode : ∀ i (e : ElectionState), e.selfCounter = some 0 → e.selfMetric = 60 →
      LedBy leader metric (config.address i) e := by
    intro i e _ he
    exact ⟨fun heq => absurd heq.symm (hleader i),fun _ => he.trans_lt hmetric⟩
  have ht := heard_step hnode (fun _ _ h => h) hs.heard h
  refine ⟨ht,fun i => ?_⟩
  rcases node_cases h i with ⟨heq,-⟩ | ⟨channel,now,-,heq⟩ | ⟨op',hchange,-,-⟩
  · rw [heq]
    exact hs.loyal i
  · rw [heq]
    rintro ⟨⟩
  · exact loyal_change (hs.heard.consistent i) hmetric (hleader i) (ht.cached i) hchange
      (hs.loyal i)

theorem led_of_runs {ops : List (MediumOp ι)} (hs : s.Fresh config)
    (hr : Runs (Step config (Advertises (LedBy leader metric))) s ops t) :
    t.Led config leader metric := by
  refine hr.invariant (I := Led config leader metric) (fun _ _ _ => led_step hmetric hleader)
    ⟨heard_fresh hs,fun i hsome => ?_⟩
  obtain ⟨peer,hpeer⟩ := Option.isSome_iff_exists.mp hsome
  have hmem := PeerCache.get_eq_some_iff.mp hpeer
  rw [hs.cache i] at hmem
  cases hmem

omit hmetric [DecidableEq ι] in
/-- A node that has the leader in its cache is one hop from it and has its clock. -/
theorem Led.follows (h : t.Led config leader metric) {i : ι} {peer : AwdlPeer}
    (hpeer : (t.nodes i).peerCache.get leader = some peer) :
    (t.nodes i).electionState.syncPeer = some leader ∧
    (t.nodes i).electionState.rootPeer = leader ∧
    (t.nodes i).electionState.distanceToMaster = 1 ∧
    (t.nodes i).syncState.tsfEpochInUs = peer.synchronizationState.tsfEpochInUs := by
  have hsync := h.loyal i (hpeer ▸ rfl)
  obtain ⟨p,hp,hfollows⟩ := (h.heard.consistent i).follows
  obtain rfl := Option.some.inj (hsync.symm.trans hp)
  obtain ⟨peer',hpeer',hf⟩ := hfollows (hleader i)
  obtain rfl := Option.some.inj (hpeer.symm.trans hpeer')
  obtain ⟨-,-,hroot,hdistance⟩ := (h.heard.cached i leader peer hpeer).leads rfl
  have hone : (t.nodes i).electionState.distanceToMaster = (0 + 1) % 2 ^ 32 :=
    hdistance ▸ hf.distance
  exact ⟨hsync,hf.rootPeer.trans hroot,hone,hf.tsfEpoch⟩

/-- Nodes follow a leader from the first of its frames that they have room for, and take its
clock with every frame: whoever knows it agrees with everybody else on the root and its
distance. -/
theorem follow_leader {ops : List (MediumOp ι)} (hs : s.Fresh config)
    (hr : Runs (Step config (Advertises (LedBy leader metric))) s ops t) :
    (∀ i peer, (t.nodes i).peerCache.get leader = some peer →
      (t.nodes i).electionState.syncPeer = some leader ∧
      (t.nodes i).electionState.rootPeer = leader ∧
      (t.nodes i).electionState.distanceToMaster = 1 ∧
      (t.nodes i).syncState.tsfEpochInUs = peer.synchronizationState.tsfEpochInUs) ∧
    ∀ i k rxTimestamp now u frame sync,
      Step config (Advertises (LedBy leader metric)) t (.receive i k rxTimestamp now) u →
      t.air[k]? = some (leader,frame) →
      SynchronizationState.fromAf frame rxTimestamp = some sync →
      (ElectionState.fromAf frame).isSome →
      ((t.nodes i).peerCache.get leader).isSome ∨
        (t.nodes i).peerCache.isFull (config.session i).implementation = false →
      (u.nodes i).electionState.syncPeer = some leader ∧
      (u.nodes i).electionState.rootPeer = leader ∧
      (u.nodes i).electionState.distanceToMaster = 1 ∧
      (u.nodes i).syncState.tsfEpochInUs = sync.tsfEpochInUs := by
  have ht := led_of_runs hmetric hleader hs hr
  refine ⟨fun i peer hpeer => ht.follows hleader hpeer,?_⟩
  intro i k rxTimestamp now u frame sync h hsent hsync helection hroom
  have hu := led_step hmetric hleader ht h
  have hnext := h.1
  simp only [next,hsent,Option.bind_some,if_neg (hleader i)] at hnext
  obtain ⟨p,hp,hpsync⟩ := get_processActionFrame (config.session i) (t.nodes i) now
    hsync helection hroom
  have hnode : (u.nodes i).peerCache.get leader = some p := by
    rw [← Option.some.inj hnext,withNode_self]
    exact hp
  obtain ⟨hpeer,hroot,hdistance,hepoch⟩ := hu.follows hleader hnode
  exact ⟨hpeer,hroot,hdistance,hpsync ▸ hepoch⟩

end Led

/-- Two nodes as they come up. -/
def pairConfig : MediumConfig Bool where
  session i := ⟨fun _ => if i then 2 else 1,⟨some 16,fun keys _ => keys.length⟩,4⟩
  injective := by decide

def pair : Medium Bool where
  nodes i := CommonResources.initializeSessionParameters (pairConfig.session i)
    ⟨⟨[],List.nodup_nil⟩,.new 1 0,.new (fun _ => 0),[]⟩ 6 0
  air := []

theorem fresh_pair : pair.Fresh pairConfig where
  consistent := fun _ => masterConsistent_new 6 0
  election := fun _ => rfl
  cache := fun _ => rfl
  air := rfl

/-- A peer with a counter that is its own master. -/
def leaderFrame : ActionFrame where
  channelSequence := some (.simple (fun _ => 6))
  synchronizationParameters :=
    some (SynchronizationState.generateTlv ⟨fun _ => 6,0⟩ (fun _ => 3) 0 5000)
  txDelta := 0
  electionParametersV2 := some ⟨500,500,7,7,0,fun _ => 3,fun _ => 3⟩
  electionParameters := none
  serviceResponses := []

/-- The leader is heard by one node, which is then heard by the other one. -/
def led : List (MediumOp Bool) :=
  [.foreign (fun _ => 3) leaderFrame,.receive false 0 5000 5000,.transmit false 0 6000 10,
    .receive true 1 6010 6020]

theorem follows_no_node_led : ∃ t, Runs (Step pairConfig
      (Advertises (NoRival (fun a => ∃ j, a = pairConfig.address j)))) pair led t ∧
    (t.nodes false).electionState.syncPeer = some (fun _ => 3) ∧
    ∃ p, (t.nodes true).electionState.syncPeer = some p ∧
      (p = pairConfig.address true ∨ ∀ j, p ≠ pairConfig.address j) := by
  have hleader : ∀ (transmitter : Address) (frame : ActionFrame),
      (.foreign (fun _ => 3) leaderFrame : MediumOp Bool) = .foreign transmitter frame →
        Advertises (NoRival (fun a => ∃ j, a = pairConfig.address j)) transmitter frame := by
    rintro _ _ ⟨⟩ e ⟨⟩
    exact .inr ⟨rfl,by decide⟩
  have hr : Runs (Step pairConfig
      (Advertises (NoRival (fun a => ∃ j, a = pairConfig.address j)))) pair led _ :=
    .step ⟨rfl,hleader⟩ (.step ⟨rfl,by rintro _ _ ⟨⟩⟩ (.step ⟨rfl,by rintro _ _ ⟨⟩⟩
      (.step ⟨rfl,by rintro _ _ ⟨⟩⟩ (.refl _))))
  exact ⟨_,hr,rfl,follows_no_node fresh_pair hr true⟩

theorem follow_leader_led : ∃ t,
    Runs (Step pairConfig (Advertises (LedBy (fun _ => 3) 500))) pair led t ∧
    ((t.nodes false).peerCache.get (fun _ => 3)).isSome ∧
    (t.nodes false).electionState.rootPeer = (fun _ => 3) ∧
    (t.nodes false).electionState.distanceToMaster = 1 := by
  have hleader : ∀ (transmitter : Address) (frame : ActionFrame),
      (.foreign (fun _ => 3) leaderFrame : MediumOp Bool) = .foreign transmitter frame →
        Advertises (LedBy (fun _ => 3) 500) transmitter frame := by
    rintro _ _ ⟨⟩ e ⟨⟩
    exact ⟨fun _ => ⟨rfl,le_rfl,rfl,rfl⟩,fun hne => absurd rfl hne⟩
  have hr : Runs (Step pairConfig (Advertises (LedBy (fun _ => 3) 500))) pair led _ :=
    .step ⟨rfl,hleader⟩ (.step ⟨rfl,by rintro _ _ ⟨⟩⟩ (.step ⟨rfl,by rintro _ _ ⟨⟩⟩
      (.step ⟨rfl,by rintro _ _ ⟨⟩⟩ (.refl _))))
  have hfollow := (follow_leader (by decide) (by decide) fresh_pair hr).1 false
  obtain ⟨-,hroot,hdistance,-⟩ := hfollow _ rfl
  exact ⟨_,hr,rfl,hroot,hdistance⟩

end Medium

end FerrisOnAir.Awdl

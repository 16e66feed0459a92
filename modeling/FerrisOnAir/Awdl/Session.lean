import FerrisOnAir.Awdl.Election
import FerrisOnAir.Foundation.Runs

/-! # An AWDL session

`CommonResources` of `foa_awdl/src/state.rs` with what the runners of a session do to it:
processing an action frame, the stale-peer tick and an election. Cache, election state and
synchronisation state are three cells, each operation runs without an await. The TLVs of a
frame are those its parser finds first; the two maps that implement the cache differ in
their capacity and in where a new entry stands.
-/
namespace FerrisOnAir.Awdl

structure ElectionParametersTLV where
  selfMetric : ℕ
  distanceToMaster : ℕ
  masterAddress : Address
  masterMetric : ℕ

structure ElectionParametersV2TLV where
  selfMetric : ℕ
  masterMetric : ℕ
  selfCounter : ℕ
  masterCounter : ℕ
  distanceToMaster : ℕ
  masterAddress : Address
  syncAddress : Address

inductive AWDLDnsCompression
  | airPlayTcpLocal
  | airDropTcpLocal
  | other

/-- A service response: the domain of its name and the port, if the record is an SRV. -/
structure ServiceResponse where
  domain : AWDLDnsCompression
  srvPort : Option ℕ

structure ActionFrame where
  channelSequence : Option ChannelSequence
  synchronizationParameters : Option SynchronizationParametersTLV
  txDelta : ℕ
  electionParametersV2 : Option ElectionParametersV2TLV
  electionParameters : Option ElectionParametersTLV
  serviceResponses : List ServiceResponse

def SynchronizationState.fromAf (frame : ActionFrame) (rxTimestamp : ℕ) :
    Option SynchronizationState :=
  frame.channelSequence.bind (fun channelSequence =>
    frame.synchronizationParameters.map (fun tlv =>
      ⟨channelSequence.channels,recoverTsfEpoch tlv frame.txDelta rxTimestamp⟩))

namespace ElectionState

/-- The second version of the parameters is preferred; the first one has no counters. -/
def fromAf (frame : ActionFrame) : Option ElectionState :=
  (frame.electionParametersV2.map (fun tlv =>
    { selfMetric := tlv.selfMetric
      selfCounter := some tlv.selfCounter
      masterMetric := tlv.masterMetric
      masterCounter := some tlv.masterCounter
      syncPeer := some tlv.syncAddress
      rootPeer := tlv.masterAddress
      distanceToMaster := tlv.distanceToMaster })).or
  (frame.electionParameters.map (fun tlv =>
    { selfMetric := tlv.selfMetric
      selfCounter := none
      masterMetric := tlv.masterMetric
      masterCounter := none
      rootPeer := tlv.masterAddress
      distanceToMaster := tlv.distanceToMaster
      syncPeer := none }))

def generateTlvV2 (e : ElectionState) : Option ElectionParametersV2TLV :=
  e.selfCounter.bind (fun selfCounter => e.masterCounter.bind (fun masterCounter =>
    e.syncPeer.map (fun syncPeer =>
      { selfMetric := e.selfMetric
        masterMetric := e.masterMetric
        selfCounter := selfCounter
        masterCounter := masterCounter
        distanceToMaster := e.distanceToMaster
        masterAddress := e.rootPeer
        syncAddress := syncPeer })))

/-- What a node advertises in the second version is its own election state. -/
theorem fromAf_generateTlvV2 {e : ElectionState} {frame : ActionFrame}
    (h : frame.electionParametersV2 = e.generateTlvV2) (hsome : e.generateTlvV2.isSome) :
    fromAf frame = some e := by
  obtain ⟨tlv,htlv⟩ := Option.isSome_iff_exists.mp hsome
  obtain ⟨selfCounter,hs,hrest⟩ := Option.bind_eq_some_iff.mp htlv
  obtain ⟨masterCounter,hm,hrest⟩ := Option.bind_eq_some_iff.mp hrest
  obtain ⟨syncPeer,hp,rfl⟩ := Option.map_eq_some_iff.mp hrest
  rw [fromAf,h,htlv,Option.map_some,Option.some_or,← hs,← hm,← hp]

end ElectionState

namespace AwdlPeer

def newWithActionFrame (frame : ActionFrame) (rxTimestamp now : ℕ) : Option AwdlPeer :=
  (SynchronizationState.fromAf frame rxTimestamp).bind (fun synchronizationState =>
    (ElectionState.fromAf frame).map (fun electionState =>
      ⟨synchronizationState,electionState,now,none,none⟩))

/-- One pass of the loop over the service responses; whether a service was discovered so
far is kept beside the peer. -/
def addService (r : AwdlPeer × Bool) (response : ServiceResponse) : AwdlPeer × Bool :=
  match response.srvPort,response.domain with
  | some port,.airPlayTcpLocal =>
    if r.1.airplayPort.isNone then ({ r.1 with airplayPort := some port },true) else r
  | some port,.airDropTcpLocal =>
    if r.1.airdropPort.isNone then ({ r.1 with airdropPort := some port },true) else r
  | _,_ => r

def update (peer : AwdlPeer) (frame : ActionFrame) (rxTimestamp now : ℕ) : AwdlPeer × Bool :=
  frame.serviceResponses.foldl addService
    ({ peer with
        lastFrame := now
        synchronizationState :=
          (SynchronizationState.fromAf frame rxTimestamp).getD peer.synchronizationState
        electionState := (ElectionState.fromAf frame).getD peer.electionState },false)

end AwdlPeer

/-- A map behind the peer cache: its capacity, if any, and the place of a new entry. -/
structure CacheImplementation where
  capacity : Option ℕ
  place : List Address → Address → ℕ

namespace PeerCache
variable (cache : PeerCache)

def isFull (impl : CacheImplementation) : Bool := impl.capacity == some cache.entries.length

/-- Writes the value of a key, through `get_mut`. -/
def set (address : Address) (peer : AwdlPeer) : PeerCache where
  entries := cache.entries.map (fun entry => if entry.1 = address then (entry.1,peer) else entry)
  nodup := by
    have h : (cache.entries.map (fun entry => if entry.1 = address then (entry.1,peer)
        else entry)).map Prod.fst = cache.entries.map Prod.fst := by
      rw [List.map_map]
      refine List.map_congr_left (fun entry _ => ?_)
      simp only [Function.comp_apply]
      split <;> rfl
    rw [h]
    exact cache.nodup

def insert (impl : CacheImplementation) (address : Address) (peer : AwdlPeer) : PeerCache :=
  if h : address ∈ cache.entries.map Prod.fst then cache.set address peer
  else
    let place := impl.place (cache.entries.map Prod.fst) address
    { entries := cache.entries.take place ++ (address,peer) :: cache.entries.drop place
      nodup := by
        rw [← List.take_append_drop place cache.entries] at h
        have hn := cache.nodup
        rw [← List.take_append_drop place cache.entries] at hn
        rw [List.map_append] at h hn
        rw [List.map_append,List.map_cons]
        exact List.nodup_middle.mpr (List.nodup_cons.mpr ⟨h,hn⟩) }

def retain (keep : Address → AwdlPeer → Bool) : PeerCache where
  entries := cache.entries.filter (fun entry => keep entry.1 entry.2)
  nodup := cache.nodup.sublist (List.filter_sublist.map _)

variable {cache} {address a : Address} {peer : AwdlPeer}

theorem get_set_self (h : (cache.get address).isSome) :
    (cache.set address peer).get address = some peer := by
  obtain ⟨old,hold⟩ := Option.isSome_iff_exists.mp h
  refine get_eq_some_iff.mpr (List.mem_map.mpr ⟨_,get_eq_some_iff.mp hold,?_⟩)
  exact if_pos rfl

theorem get_set_of_ne (h : a ≠ address) : (cache.set address peer).get a = cache.get a := by
  ext p
  rw [get_eq_some_iff,get_eq_some_iff,set,List.mem_map]
  constructor
  · rintro ⟨entry,hentry,heq⟩
    split at heq
    · rename_i haddress
      exact absurd ((congrArg Prod.fst heq).symm.trans haddress) h
    · exact heq ▸ hentry
  · intro hp
    exact ⟨_,hp,if_neg h⟩

end PeerCache

inductive AwdlEvent
  | peerDiscovered (address : Address)
  | peerWentStale (address : Address) (airdropPort airplayPort : Option ℕ)
  | discoveredServiceForPeer (address : Address) (airdropPort airplayPort : Option ℕ)

structure CommonResources where
  peerCache : PeerCache
  syncState : SynchronizationState
  electionState : ElectionState
  eventQueue : List AwdlEvent

/-- What does not change during a session. -/
structure SessionConfig where
  ourAddress : Address
  implementation : CacheImplementation
  eventQueueDepth : ℕ

inductive SessionOp
  | processActionFrame (transmitter : Address) (frame : ActionFrame) (rxTimestamp now : ℕ)
  | stalePeerTick (timeout now : ℕ)
  | electMaster
  | nextEvent

namespace CommonResources
variable (config : SessionConfig) (s : CommonResources)

def initializeSessionParameters (channel : UInt8) (now : ℕ) : CommonResources :=
  { s with
    eventQueue := []
    syncState := .new channel now
    electionState := .new config.ourAddress }

def adoptPeerAsMaster (address : Address) (peer : AwdlPeer) : CommonResources :=
  { s with
    syncState := s.syncState.adoptMaster peer.synchronizationState
    electionState := s.electionState.adoptMaster address peer.electionState }

def raiseUserEvent (event : AwdlEvent) : CommonResources :=
  if s.eventQueue.length < config.eventQueueDepth then
    { s with eventQueue := s.eventQueue ++ [event] }
  else s

def electMaster : CommonResources :=
  match s.peerCache.findMaster s.electionState config.ourAddress with
  | some (masterAddress,masterElectionState,masterSyncState) =>
    { s with
      syncState := s.syncState.adoptMaster masterSyncState
      electionState := s.electionState.adoptMaster masterAddress masterElectionState }
  | none =>
    if !s.electionState.isMaster config.ourAddress then
      { s with electionState := .new config.ourAddress }
    else s

def processActionFrame (transmitter : Address) (frame : ActionFrame) (rxTimestamp now : ℕ) :
    CommonResources :=
  match s.peerCache.get transmitter with
  | some peer =>
    let r := peer.update frame rxTimestamp now
    let s₁ := { s with peerCache := s.peerCache.set transmitter r.1 }
    let s₂ := if r.2 then
        s₁.raiseUserEvent config
          (.discoveredServiceForPeer transmitter r.1.airdropPort r.1.airplayPort)
      else s₁
    if s₂.electionState.isMaster transmitter then s₂.adoptPeerAsMaster transmitter r.1 else s₂
  | none =>
    if s.peerCache.isFull config.implementation then s
    else match AwdlPeer.newWithActionFrame frame rxTimestamp now with
      | none => s
      | some peer =>
        let s₁ := s.raiseUserEvent config (.peerDiscovered transmitter)
        let s₂ := { s₁ with
          peerCache := s₁.peerCache.insert config.implementation transmitter peer }
        s₂.electMaster config

/-- `purge_stale_peers` with the callback of the tick. -/
def purgeStalePeers (timeout now : ℕ) : CommonResources :=
  let stale := s.peerCache.entries.filter (fun entry => !(now - entry.2.lastFrame < timeout : Bool))
  let s₁ := stale.foldl (fun s entry =>
    s.raiseUserEvent config (.peerWentStale entry.1 entry.2.airdropPort entry.2.airplayPort)) s
  { s₁ with peerCache := s.peerCache.retain (fun _ peer => now - peer.lastFrame < timeout) }

def step : SessionOp → CommonResources
  | .processActionFrame transmitter frame rxTimestamp now =>
    s.processActionFrame config transmitter frame rxTimestamp now
  | .stalePeerTick timeout now => (s.purgeStalePeers config timeout now).electMaster config
  | .electMaster => s.electMaster config
  | .nextEvent => { s with eventQueue := s.eventQueue.tail }

def Step (s : CommonResources) (op : SessionOp) (t : CommonResources) : Prop :=
  t = s.step config op

/-- What a node copies from the peer it follows. -/
structure Follows (s : CommonResources) (peer : AwdlPeer) : Prop where
  tsfEpoch : s.syncState.tsfEpochInUs = peer.synchronizationState.tsfEpochInUs
  masterMetric : s.electionState.masterMetric = peer.electionState.masterMetric
  rootPeer : s.electionState.rootPeer = peer.electionState.rootPeer
  distance : s.electionState.distanceToMaster = (peer.electionState.distanceToMaster + 1) % 2 ^ 32

/-- The counters that the second version of the parameters carries. -/
structure Counted (s : CommonResources) : Prop where
  selfCounter : s.electionState.selfCounter = some 0
  selfMetric : s.electionState.selfMetric = 60
  masterCounter : s.electionState.masterCounter.isSome

/-- A node follows itself or a cached peer, and then agrees with what the cache says of it. -/
structure MasterConsistent (s : CommonResources) : Prop where
  counted : Counted s
  follows : ∃ p, s.electionState.syncPeer = some p ∧ (p ≠ config.ourAddress →
    ∃ peer, s.peerCache.get p = some peer ∧ s.Follows peer)

variable {config s} {t : CommonResources} {op : SessionOp}

theorem Counted.congr (h : s.Counted) (he : t.electionState = s.electionState) : t.Counted where
  selfCounter := (congrArg _ he).trans h.selfCounter
  selfMetric := (congrArg _ he).trans h.selfMetric
  masterCounter := by rw [he]; exact h.masterCounter

theorem Follows.congr {peer : AwdlPeer} (h : s.Follows peer) (hsync : t.syncState = s.syncState)
    (he : t.electionState = s.electionState) : t.Follows peer where
  tsfEpoch := (congrArg _ hsync).trans h.tsfEpoch
  masterMetric := (congrArg _ he).trans h.masterMetric
  rootPeer := (congrArg _ he).trans h.rootPeer
  distance := (congrArg _ he).trans h.distance

/-- The event queue has no part in any of this. -/
theorem raiseUserEvent_eq (config : SessionConfig) (s : CommonResources) (event : AwdlEvent) :
    ∃ queue, s.raiseUserEvent config event = { s with eventQueue := queue } := by
  unfold raiseUserEvent
  split
  · exact ⟨_,rfl⟩
  · exact ⟨s.eventQueue,rfl⟩

theorem ite_raiseUserEvent_eq (config : SessionConfig) (s : CommonResources) (event : AwdlEvent)
    (b : Bool) : ∃ queue, (if b then s.raiseUserEvent config event else s) =
      { s with eventQueue := queue } := by
  cases b with
  | false => exact ⟨s.eventQueue,rfl⟩
  | true => exact raiseUserEvent_eq config s event

theorem foldl_raiseUserEvent_eq (config : SessionConfig) (s : CommonResources)
    (event : Address × AwdlPeer → AwdlEvent) (entries : List (Address × AwdlPeer)) : ∃ queue,
      entries.foldl (fun s entry => s.raiseUserEvent config (event entry)) s =
        { s with eventQueue := queue } := by
  induction entries generalizing s with
  | nil => exact ⟨s.eventQueue,rfl⟩
  | cons entry entries ih =>
    obtain ⟨queue,hqueue⟩ := raiseUserEvent_eq config s (event entry)
    rw [List.foldl_cons,hqueue]
    exact ih _

theorem purgeStalePeers_eq (config : SessionConfig) (s : CommonResources) (timeout now : ℕ) :
    ∃ queue, s.purgeStalePeers config timeout now = { s with
      peerCache := s.peerCache.retain (fun _ peer => now - peer.lastFrame < timeout)
      eventQueue := queue } := by
  obtain ⟨queue,hqueue⟩ := foldl_raiseUserEvent_eq config s
    (fun entry => .peerWentStale entry.1 entry.2.airdropPort entry.2.airplayPort)
    (s.peerCache.entries.filter (fun entry => !(now - entry.2.lastFrame < timeout : Bool)))
  refine ⟨queue,?_⟩
  simp only [purgeStalePeers,hqueue]

theorem follows_adopt {peer : AwdlPeer} (address : Address) :
    (s.adoptPeerAsMaster address peer).Follows peer := ⟨rfl,rfl,rfl,rfl⟩

theorem counted_adopt {peer : AwdlPeer} (h : s.Counted) (address : Address) :
    (s.adoptPeerAsMaster address peer).Counted := ⟨h.selfCounter,h.selfMetric,rfl⟩

/-- Following a cached peer anew is consistent whatever was followed before. -/
theorem masterConsistent_adopt {address : Address} {peer : AwdlPeer} (h : s.Counted)
    (hpeer : s.peerCache.get address = some peer) :
    (s.adoptPeerAsMaster address peer).MasterConsistent config :=
  ⟨counted_adopt h address,address,rfl,fun _ => ⟨peer,hpeer,follows_adopt address⟩⟩

/-- What an election does: the node adopts a cached peer with another address that the pass
ended with, or it is its own master. -/
theorem electMaster_cases (config : SessionConfig) (s : CommonResources) :
    (∃ address peer, address ≠ config.ourAddress ∧ s.peerCache.get address = some peer ∧
      s.peerCache.mostEligiblePeer s.electionState config.ourAddress =
        (address,peer.electionState) ∧
      s.electMaster config = s.adoptPeerAsMaster address peer) ∨
    (s.peerCache.mostEligiblePeer s.electionState config.ourAddress).1 = config.ourAddress ∧
      (s.electionState.isMaster config.ourAddress = false ∧
        s.electMaster config = { s with electionState := .new config.ourAddress } ∨
      s.electionState.isMaster config.ourAddress = true ∧ s.electMaster config = s) := by
  cases h : s.peerCache.findMaster s.electionState config.ourAddress with
  | some master =>
    obtain ⟨address,election,sync⟩ := master
    obtain ⟨hne,hbest,peer,hpeer,rfl,rfl⟩ := PeerCache.findMaster_some h
    refine Or.inl ⟨address,peer,hne,hpeer,hbest,?_⟩
    simp only [electMaster,h]
    rfl
  | none =>
    refine Or.inr ⟨PeerCache.findMaster_eq_none_iff.mp h,?_⟩
    cases hm : s.electionState.isMaster config.ourAddress with
    | false => exact Or.inl ⟨rfl,by simp [electMaster,h,hm]⟩
    | true => exact Or.inr ⟨rfl,by simp [electMaster,h,hm]⟩

/-- An election makes the state consistent with any cache. -/
theorem masterConsistent_electMaster (h : s.Counted) (hsync : s.electionState.syncPeer.isSome) :
    (s.electMaster config).MasterConsistent config := by
  rcases electMaster_cases config s with
    ⟨address,peer,_,hpeer,_,heq⟩ | ⟨_,⟨_,heq⟩ | ⟨hm,heq⟩⟩
  · rw [heq]
    exact masterConsistent_adopt h hpeer
  · rw [heq]
    exact ⟨⟨rfl,rfl,rfl⟩,_,rfl,fun hne => absurd rfl hne⟩
  · rw [heq]
    obtain ⟨p,hp⟩ := Option.isSome_iff_exists.mp hsync
    have hpe : p = config.ourAddress := by simpa [ElectionState.isMaster,hp] using hm
    exact ⟨h,p,hp,fun hne => absurd hpe hne⟩

theorem MasterConsistent.syncPeer_isSome (h : s.MasterConsistent config) :
    s.electionState.syncPeer.isSome := by
  obtain ⟨p,hp,_⟩ := h.follows
  rw [hp]
  rfl

/-- A frame of a known peer: what it says of itself is written to the cache and, if the node
follows it, adopted at once. -/
theorem masterConsistent_update {transmitter : Address} {peer : AwdlPeer} {frame : ActionFrame}
    {rxTimestamp now : ℕ} (h : s.MasterConsistent config)
    (hpeer : s.peerCache.get transmitter = some peer) :
    (s.processActionFrame config transmitter frame rxTimestamp now).MasterConsistent config := by
  obtain ⟨queue,hqueue⟩ := ite_raiseUserEvent_eq config
    { s with peerCache := s.peerCache.set transmitter (peer.update frame rxTimestamp now).1 }
    (.discoveredServiceForPeer transmitter (peer.update frame rxTimestamp now).1.airdropPort
      (peer.update frame rxTimestamp now).1.airplayPort) (peer.update frame rxTimestamp now).2
  have hset : (s.peerCache.set transmitter (peer.update frame rxTimestamp now).1).get transmitter =
      some (peer.update frame rxTimestamp now).1 := PeerCache.get_set_self (hpeer ▸ rfl)
  simp only [processActionFrame,hpeer,hqueue]
  split
  · exact masterConsistent_adopt (h.counted.congr rfl) hset
  · rename_i hm
    obtain ⟨p,hp,hfollows⟩ := h.follows
    refine ⟨h.counted.congr rfl,p,hp,?_⟩
    intro hne
    have hpt : p ≠ transmitter := by
      rintro rfl
      exact hm (by simp [ElectionState.isMaster,hp])
    obtain ⟨old,hold,hf⟩ := hfollows hne
    exact ⟨old,(PeerCache.get_set_of_ne hpt).trans hold,hf.congr rfl rfl⟩

theorem masterConsistent_step (h : s.MasterConsistent config) (ht : Step config s op t) :
    t.MasterConsistent config := by
  subst ht
  cases op with
  | processActionFrame transmitter frame rxTimestamp now =>
    cases hpeer : s.peerCache.get transmitter with
    | some peer => exact masterConsistent_update h hpeer
    | none =>
      simp only [step,processActionFrame,hpeer]
      split
      · exact h
      · cases hnew : AwdlPeer.newWithActionFrame frame rxTimestamp now with
        | none => exact h
        | some peer =>
          obtain ⟨queue,hqueue⟩ := raiseUserEvent_eq config s (.peerDiscovered transmitter)
          simp only [hqueue]
          exact masterConsistent_electMaster (h.counted.congr rfl) h.syncPeer_isSome
  | stalePeerTick timeout now =>
    obtain ⟨queue,heq⟩ := purgeStalePeers_eq config s timeout now
    simp only [step,heq]
    exact masterConsistent_electMaster (h.counted.congr rfl) h.syncPeer_isSome
  | electMaster => exact masterConsistent_electMaster h.counted h.syncPeer_isSome
  | nextEvent =>
    obtain ⟨p,hp,hfollows⟩ := h.follows
    refine ⟨h.counted.congr rfl,p,hp,fun hne => ?_⟩
    obtain ⟨peer,hpeer,hf⟩ := hfollows hne
    exact ⟨peer,hpeer,hf.congr rfl rfl⟩

theorem masterConsistent_new (channel : UInt8) (now : ℕ) :
    (s.initializeSessionParameters config channel now).MasterConsistent config :=
  ⟨⟨rfl,rfl,rfl⟩,config.ourAddress,rfl,fun hne => absurd rfl hne⟩

/-- The unwrap in the transmission of an action frame cannot fail. -/
theorem MasterConsistent.generateTlvV2_isSome (h : s.MasterConsistent config) :
    s.electionState.generateTlvV2.isSome := by
  obtain ⟨p,hp,_⟩ := h.follows
  obtain ⟨c,hc⟩ := Option.isSome_iff_exists.mp h.counted.masterCounter
  simp [ElectionState.generateTlvV2,h.counted.selfCounter,hc,hp]

/-- Short of an overflow the node is one hop further from the root than the peer it
follows. -/
theorem MasterConsistent.distance {p : Address} {peer : AwdlPeer} (h : s.MasterConsistent config)
    (hp : s.electionState.syncPeer = some p) (hne : p ≠ config.ourAddress)
    (hpeer : s.peerCache.get p = some peer)
    (hlt : peer.electionState.distanceToMaster + 1 < 2 ^ 32) :
    s.electionState.distanceToMaster = peer.electionState.distanceToMaster + 1 := by
  obtain ⟨q,hq,hfollows⟩ := h.follows
  obtain rfl : p = q := Option.some.inj (hp.symm.trans hq)
  obtain ⟨peer',hpeer',hf⟩ := hfollows hne
  obtain rfl : peer = peer' := Option.some.inj (hpeer.symm.trans hpeer')
  rw [hf.distance,Nat.mod_eq_of_lt hlt]

/-- In every state of a session. -/
theorem masterConsistent_of_runs {channel : UInt8} {now : ℕ} {ops : List SessionOp}
    (hr : Runs (Step config) (s.initializeSessionParameters config channel now) ops t) :
    t.MasterConsistent config ∧ t.electionState.generateTlvV2.isSome ∧
      ∀ p peer, t.electionState.syncPeer = some p → p ≠ config.ourAddress →
        t.peerCache.get p = some peer → peer.electionState.distanceToMaster + 1 < 2 ^ 32 →
        t.electionState.distanceToMaster = peer.electionState.distanceToMaster + 1 := by
  have h : t.MasterConsistent config := hr.invariant (fun _ _ _ => masterConsistent_step)
    (masterConsistent_new channel now)
  exact ⟨h,h.generateTlvV2_isSome,fun _ _ => h.distance⟩

/-- A frame of a peer that speaks the first version, with a higher metric. -/
def firstVersionFrame : SessionOp := .processActionFrame (fun _ => 3)
  { channelSequence := some (.simple (fun _ => 6))
    synchronizationParameters :=
      some (SynchronizationState.generateTlv ⟨fun _ => 6,0⟩ (fun _ => 3) 0 5000)
    txDelta := 0
    electionParametersV2 := none
    electionParameters := some ⟨70,4,fun _ => 4,90⟩
    serviceResponses := [] } 5000 5000

/-- A node that hears it follows it, five hops from its root. -/
theorem masterConsistent_firstVersionFrame : ∃ t : CommonResources,
    t.electionState.syncPeer = some (fun _ => 3) ∧ t.electionState.distanceToMaster = 5 ∧
      t.MasterConsistent ⟨fun _ => 1,⟨some 16,fun keys _ => keys.length⟩,4⟩ := by
  have hr : Runs (Step ⟨fun _ => 1,⟨some 16,fun keys _ => keys.length⟩,4⟩)
      (initializeSessionParameters ⟨fun _ => 1,⟨some 16,fun keys _ => keys.length⟩,4⟩
        ⟨⟨[],List.nodup_nil⟩,.new 1 0,.new (fun _ => 0),[]⟩ 6 0) [firstVersionFrame] _ :=
    .step rfl (.refl _)
  exact ⟨_,by decide,by decide,(masterConsistent_of_runs hr).1⟩

end CommonResources

end FerrisOnAir.Awdl

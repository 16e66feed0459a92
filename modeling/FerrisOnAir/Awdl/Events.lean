import FerrisOnAir.Awdl.Spoofing
import FerrisOnAir.Foundation.Emission

/-! # The events of a session

What a session tells its user about its peers. The events it raises are replayed against what
a user can know: a peer is there or not, with the ports of its two services. The event queue
is bounded, so the user may miss some of them; those that are missed are named here too.
-/
namespace FerrisOnAir.Awdl

/-- The ports of the services that a peer offers. -/
@[ext] structure Services where
  airdropPort : Option ℕ
  airplayPort : Option ℕ
deriving DecidableEq

def AwdlPeer.services (peer : AwdlPeer) : Services := ⟨peer.airdropPort,peer.airplayPort⟩

/-- A port that is known once stays as it is. -/
structure Services.Extends (old new : Services) : Prop where
  airdropPort : old.airdropPort = none ∨ old.airdropPort = new.airdropPort
  airplayPort : old.airplayPort = none ∨ old.airplayPort = new.airplayPort

instance (old new : Services) : Decidable (old.Extends new) :=
  decidable_of_iff
    ((old.airdropPort = none ∨ old.airdropPort = new.airdropPort) ∧
      (old.airplayPort = none ∨ old.airplayPort = new.airplayPort))
    ⟨fun h => ⟨h.1,h.2⟩,fun h => ⟨h.airdropPort,h.airplayPort⟩⟩

/-- The event of an entry that is purged. -/
def staleEvent (entry : Address × AwdlPeer) : AwdlEvent :=
  .peerWentStale entry.1 entry.2.airdropPort entry.2.airplayPort

/-- The peers that are there, with their services. -/
abbrev Knowledge := Address → Option Services

namespace Knowledge
variable (k : Knowledge)

def nobody : Knowledge := fun _ => none

def set (address : Address) (services : Option Services) : Knowledge :=
  Function.update k address services

/-- An event must say something new: who is discovered was away, who goes stale was there with
the ports that the event names, and a service is found only with a port that was not known. -/
def learn : AwdlEvent → Option Knowledge
  | .peerDiscovered address =>
    if k address = none then some (k.set address (some ⟨none,none⟩)) else none
  | .discoveredServiceForPeer address airdropPort airplayPort =>
    (k address).bind (fun old =>
      if old.Extends ⟨airdropPort,airplayPort⟩ ∧ old ≠ ⟨airdropPort,airplayPort⟩ then
        some (k.set address (some ⟨airdropPort,airplayPort⟩))
      else none)
  | .peerWentStale address airdropPort airplayPort =>
    if k address = some ⟨airdropPort,airplayPort⟩ then some (k.set address none) else none

variable {k} {address a : Address}

@[simp] theorem set_self {services : Option Services} :
    k.set address services address = services := Function.update_self ..

@[simp] theorem set_of_ne {services : Option Services} (h : a ≠ address) :
    k.set address services a = k a := Function.update_of_ne h ..

theorem learn_discovered (h : k address = none) :
    k.learn (.peerDiscovered address) = some (k.set address (some ⟨none,none⟩)) := if_pos h

theorem learn_service {old new : Services} (h : k address = some old) (he : old.Extends new)
    (hne : old ≠ new) :
    k.learn (.discoveredServiceForPeer address new.airdropPort new.airplayPort) =
      some (k.set address (some new)) := by
  rw [learn,h,Option.bind_some]
  exact if_pos ⟨he,hne⟩

theorem learn_stale {entry : Address × AwdlPeer} (h : k entry.1 = some entry.2.services) :
    k.learn (staleEvent entry) = some (k.set entry.1 none) := if_pos h

end Knowledge

namespace Services

theorem extends_refl (services : Services) : services.Extends services := ⟨.inr rfl,.inr rfl⟩

theorem Extends.trans {a b c : Services} (h : a.Extends b) (h' : b.Extends c) : a.Extends c where
  airdropPort := by
    rcases h.airdropPort with hnone | heq
    · exact .inl hnone
    · exact heq ▸ h'.airdropPort
  airplayPort := by
    rcases h.airplayPort with hnone | heq
    · exact .inl hnone
    · exact heq ▸ h'.airplayPort

theorem eq_of_ports {a b : Option ℕ} (h : a = none ∨ a = b) (h' : b = none ∨ b = a) : a = b := by
  rcases h with rfl | rfl
  · rcases h' with rfl | rfl <;> rfl
  · rfl

theorem Extends.antisymm {a b : Services} (h : a.Extends b) (h' : b.Extends a) : a = b :=
  Services.ext (eq_of_ports h.airdropPort h'.airdropPort) (eq_of_ports h.airplayPort h'.airplayPort)

end Services

namespace AwdlPeer
variable {peer : AwdlPeer} {r : AwdlPeer × Bool}

/-- A pass keeps the peer but for one port that it fills, and says so. -/
theorem addService_cases (r : AwdlPeer × Bool) (response : ServiceResponse) :
    addService r response = r ∨ (addService r response).2 = true ∧
      r.1.services.Extends (addService r response).1.services ∧
      r.1.services ≠ (addService r response).1.services := by
  obtain ⟨domain,port⟩ := response
  cases port with
  | none => exact .inl rfl
  | some port =>
    cases domain with
    | other => exact .inl rfl
    | airPlayTcpLocal =>
      by_cases h : r.1.airplayPort.isNone
      · have hnone := Option.isNone_iff_eq_none.mp h
        simp only [addService,h,if_true]
        refine .inr ⟨trivial,⟨.inr rfl,.inl hnone⟩,fun heq => ?_⟩
        have hplay := congrArg Services.airplayPort heq
        cases hnone.symm.trans hplay
      · exact .inl (if_neg h)
    | airDropTcpLocal =>
      by_cases h : r.1.airdropPort.isNone
      · have hnone := Option.isNone_iff_eq_none.mp h
        simp only [addService,h,if_true]
        refine .inr ⟨trivial,⟨.inl hnone,.inr rfl⟩,fun heq => ?_⟩
        have hdrop := congrArg Services.airdropPort heq
        cases hnone.symm.trans hdrop
      · exact .inl (if_neg h)

/-- What the loop over the responses says about services is whether it found any. -/
structure Searched (old : Services) (r : AwdlPeer × Bool) : Prop where
  extends_services : old.Extends r.1.services
  found : r.2 = true ↔ old ≠ r.1.services

theorem Searched.addService {old : Services} (h : Searched old r) (response : ServiceResponse) :
    Searched old (AwdlPeer.addService r response) := by
  rcases addService_cases r response with heq | ⟨hfound,hext,hne⟩
  · rw [heq]
    exact h
  · refine ⟨h.extends_services.trans hext,iff_of_true hfound ?_⟩
    rintro rfl
    exact hne (hext.antisymm h.extends_services)

theorem searched_foldl {old : Services} (responses : List ServiceResponse) (h : Searched old r) :
    Searched old (responses.foldl AwdlPeer.addService r) := by
  induction responses generalizing r with
  | nil => exact h
  | cons response responses ih => exact ih (h.addService response)

/-- An update says whether a service was discovered: it was exactly if a port is new. -/
theorem searched_update (peer : AwdlPeer) (frame : ActionFrame) (rxTimestamp now : ℕ) :
    Searched peer.services (peer.update frame rxTimestamp now) :=
  searched_foldl _ ⟨peer.services.extends_refl,iff_of_false Bool.false_ne_true (fun h => h rfl)⟩

theorem services_new {frame : ActionFrame} {rxTimestamp now : ℕ}
    (h : newWithActionFrame frame rxTimestamp now = some peer) : peer.services = ⟨none,none⟩ := by
  obtain ⟨sync,_,h⟩ := Option.bind_eq_some_iff.mp h
  obtain ⟨election,_,rfl⟩ := Option.map_eq_some_iff.mp h
  rfl

end AwdlPeer

namespace PeerCache
variable {cache : PeerCache} {address a : Address} {peer : AwdlPeer}

/-- What the cache says of who is there. -/
def knowledge (cache : PeerCache) : Knowledge :=
  fun address => (cache.get address).map AwdlPeer.services

theorem knowledge_set (hpeer : (cache.get address).isSome) :
    (cache.set address peer).knowledge = cache.knowledge.set address (some peer.services) := by
  funext a
  by_cases ha : a = address
  · subst ha
    rw [knowledge,get_set_self hpeer,Knowledge.set_self]
    rfl
  · rw [knowledge,get_set_of_ne ha,Knowledge.set_of_ne ha]
    rfl

theorem knowledge_insert {impl : CacheImplementation} (hpeer : cache.get address = none) :
    (cache.insert impl address peer).knowledge =
      cache.knowledge.set address (some peer.services) := by
  funext a
  by_cases ha : a = address
  · subst ha
    rw [knowledge,get_insert_self hpeer,Knowledge.set_self]
    rfl
  · rw [knowledge,get_insert_of_ne hpeer ha,Knowledge.set_of_ne ha]
    rfl

theorem get_retain (keep : Address → AwdlPeer → Bool) (a : Address) :
    (cache.retain keep).get a = (cache.get a).filter (keep a) := by
  ext p
  rw [get_eq_some_iff,retain,List.mem_filter,Option.filter_eq_some_iff,get_eq_some_iff]

/-- Removing entries one after the other. -/
theorem knowledge_erase (k : Knowledge) (entries : List (Address × AwdlPeer))
    (hnodup : (entries.map Prod.fst).Nodup)
    (h : ∀ entry ∈ entries, k entry.1 = some entry.2.services) :
    (entries.map staleEvent).foldlM Knowledge.learn k =
      some (fun a => if a ∈ entries.map Prod.fst then none else k a) := by
  induction entries generalizing k with
  | nil => rfl
  | cons entry entries ih =>
    obtain ⟨hnot,hnodup⟩ := List.nodup_cons.mp hnodup
    rw [List.map_cons,List.foldlM_cons,Knowledge.learn_stale (h entry List.mem_cons_self)]
    refine (ih _ hnodup ?_).trans (congrArg some (funext fun a => ?_))
    · intro other hother
      have hne : other.1 ≠ entry.1 := fun heq => hnot (heq ▸ List.mem_map_of_mem hother)
      rw [Knowledge.set_of_ne hne]
      exact h other (List.mem_cons_of_mem _ hother)
    · by_cases ha : a = entry.1
      · subst ha
        simp
      · have hmem : a ∈ (entry :: entries).map Prod.fst ↔ a ∈ entries.map Prod.fst := by
          rw [List.map_cons,List.mem_cons,or_iff_right ha]
        rw [Knowledge.set_of_ne ha]
        exact if_congr hmem.symm rfl rfl

/-- A purge removes those whom its callback was called for. -/
theorem knowledge_retain (keep : Address → AwdlPeer → Bool) :
    ((cache.entries.filter (fun entry => !keep entry.1 entry.2)).map staleEvent).foldlM
      Knowledge.learn cache.knowledge = some (cache.retain keep).knowledge := by
  have hknown : ∀ entry ∈ cache.entries, cache.get entry.1 = some entry.2 :=
    fun entry h => get_eq_some_iff.mpr h
  rw [knowledge_erase _ _ (cache.nodup.sublist (List.filter_sublist.map _))]
  · refine congrArg some (funext fun a => ?_)
    rw [knowledge,knowledge,get_retain]
    cases hpeer : cache.get a with
    | none =>
      rw [Option.filter_none,Option.map_none,ite_self]
    | some peer =>
      have hmem := get_eq_some_iff.mp hpeer
      have hstale : a ∈ (cache.entries.filter (fun entry => !keep entry.1 entry.2)).map Prod.fst ↔
          keep a peer = false := by
        constructor
        · intro h
          obtain ⟨entry,hentry,rfl⟩ := List.mem_map.mp h
          obtain ⟨hentry,hkeep⟩ := List.mem_filter.mp hentry
          obtain rfl := Option.some.inj ((hknown entry hentry).symm.trans hpeer)
          simpa using hkeep
        · intro h
          exact List.mem_map.mpr ⟨_,List.mem_filter.mpr ⟨hmem,by simp [h]⟩,rfl⟩
      cases hkeep : keep a peer with
      | true =>
        have hkept : a ∉ (cache.entries.filter
            (fun entry => !keep entry.1 entry.2)).map Prod.fst := by
          rw [hstale,hkeep]
          exact Bool.noConfusion
        rw [if_neg hkept,Option.filter_some,hkeep,if_pos rfl]
      | false =>
        rw [if_pos (hstale.mpr hkeep),Option.filter_some,hkeep,if_neg Bool.false_ne_true]
        rfl
  · intro entry hentry
    rw [knowledge,hknown entry (List.mem_filter.mp hentry).1]
    rfl

end PeerCache

namespace CommonResources
variable (config : SessionConfig) (s : CommonResources)

/-- The events that an operation raises, in their order. -/
def raised : SessionOp → List AwdlEvent
  | .processActionFrame transmitter frame rxTimestamp now =>
    match s.peerCache.get transmitter with
    | some peer =>
      let r := peer.update frame rxTimestamp now
      if r.2 then [.discoveredServiceForPeer transmitter r.1.airdropPort r.1.airplayPort] else []
    | none =>
      if s.peerCache.isFull config.implementation then []
      else match AwdlPeer.newWithActionFrame frame rxTimestamp now with
        | none => []
        | some _ => [.peerDiscovered transmitter]
  | .stalePeerTick timeout now => (s.peerCache.entries.filter
      (fun entry => !(now - entry.2.lastFrame < timeout : Bool))).map staleEvent
  | .electMaster => []
  | .nextEvent => []

/-- The event that the user takes. -/
def taken : SessionOp → List AwdlEvent
  | .nextEvent => s.eventQueue.head?.toList
  | _ => []

variable {config s} {t : CommonResources} {op : SessionOp} {transmitter : Address}
  {peer : AwdlPeer} {frame : ActionFrame} {rxTimestamp now : ℕ}

theorem eventQueue_raiseUserEvent (event : AwdlEvent) :
    s.raiseUserEvent config event =
      { s with eventQueue := offer config.eventQueueDepth s.eventQueue [event] } := by
  rw [raiseUserEvent,offer,List.foldl_cons,List.foldl_nil]
  split <;> rfl

theorem eventQueue_foldl (config : SessionConfig) (s : CommonResources)
    (event : Address × AwdlPeer → AwdlEvent)
    (entries : List (Address × AwdlPeer)) :
    entries.foldl (fun s entry => s.raiseUserEvent config (event entry)) s =
      { s with eventQueue := offer config.eventQueueDepth s.eventQueue (entries.map event) } := by
  induction entries generalizing s with
  | nil => rfl
  | cons entry entries ih =>
    rw [List.foldl_cons,ih,eventQueue_raiseUserEvent]
    rfl

/-- An election leaves the cache and the queue alone. -/
theorem electMaster_frame (config : SessionConfig) (s : CommonResources) :
    (s.electMaster config).peerCache = s.peerCache ∧
      (s.electMaster config).eventQueue = s.eventQueue := by
  rcases electMaster_cases config s with ⟨address,peer,-,-,-,heq⟩ | ⟨-,⟨-,heq⟩ | ⟨-,heq⟩⟩
  · rw [heq]
    exact ⟨rfl,rfl⟩
  · rw [heq]
    exact ⟨rfl,rfl⟩
  · rw [heq]
    exact ⟨rfl,rfl⟩

theorem processActionFrame_known {updated : AwdlPeer} {found : Bool}
    (hpeer : s.peerCache.get transmitter = some peer)
    (hupdate : peer.update frame rxTimestamp now = (updated,found)) :
    let t := s.processActionFrame config transmitter frame rxTimestamp now
    t.peerCache = s.peerCache.set transmitter updated ∧
      t.eventQueue = offer config.eventQueueDepth s.eventQueue (if found then
        [.discoveredServiceForPeer transmitter updated.airdropPort updated.airplayPort]
        else []) := by
  intro t
  have ht : t = s.processActionFrame config transmitter frame rxTimestamp now := rfl
  simp only [processActionFrame,hpeer,hupdate,eventQueue_raiseUserEvent] at ht
  rw [ht]
  cases found with
  | true =>
    rw [if_pos rfl]
    split <;> exact ⟨rfl,rfl⟩
  | false =>
    rw [if_neg Bool.false_ne_true]
    split <;> exact ⟨rfl,rfl⟩

theorem processActionFrame_new (hpeer : s.peerCache.get transmitter = none)
    (hroom : s.peerCache.isFull config.implementation = false)
    (hnew : AwdlPeer.newWithActionFrame frame rxTimestamp now = some peer) :
    let t := s.processActionFrame config transmitter frame rxTimestamp now
    t.peerCache = s.peerCache.insert config.implementation transmitter peer ∧
      t.eventQueue = offer config.eventQueueDepth s.eventQueue [.peerDiscovered transmitter] := by
  intro t
  have ht : t = s.processActionFrame config transmitter frame rxTimestamp now := rfl
  simp only [processActionFrame,hpeer,hroom,hnew,eventQueue_raiseUserEvent,Bool.false_eq_true,
    if_false] at ht
  rw [ht]
  exact electMaster_frame config _

/-- The queue takes of the events of an operation what it has room for. -/
theorem taken_append_eventQueue (config : SessionConfig) (s : CommonResources) (op : SessionOp) :
    s.taken op ++ (s.step config op).eventQueue =
      offer config.eventQueueDepth s.eventQueue (s.raised config op) := by
  cases op with
  | processActionFrame transmitter frame rxTimestamp now =>
    change (s.processActionFrame config transmitter frame rxTimestamp now).eventQueue = _
    cases hpeer : s.peerCache.get transmitter with
    | some peer =>
      rw [raised,hpeer]
      exact (processActionFrame_known hpeer rfl).2
    | none =>
      cases hfull : s.peerCache.isFull config.implementation with
      | true => simp [processActionFrame,raised,hpeer,hfull,offer]
      | false =>
        cases hnew : AwdlPeer.newWithActionFrame frame rxTimestamp now with
        | none => simp [processActionFrame,raised,hpeer,hfull,hnew,offer]
        | some peer =>
          rw [(processActionFrame_new hpeer hfull hnew).2]
          simp only [raised,hpeer,hfull,hnew,Bool.false_eq_true,if_false]
  | stalePeerTick timeout now =>
    change ((s.purgeStalePeers config timeout now).electMaster config).eventQueue = _
    rw [(electMaster_frame config _).2]
    exact congrArg eventQueue (eventQueue_foldl config s staleEvent _)
  | electMaster =>
    change (s.electMaster config).eventQueue = _
    rw [(electMaster_frame config s).2]
    rfl
  | nextEvent =>
    change s.eventQueue.head?.toList ++ s.eventQueue.tail = s.eventQueue
    cases s.eventQueue <;> rfl

/-- What an operation raises is what it changes about the cache, as far as a user can see. -/
theorem knowledge_step (config : SessionConfig) (s : CommonResources) (op : SessionOp) :
    (s.raised config op).foldlM Knowledge.learn s.peerCache.knowledge =
      some (s.step config op).peerCache.knowledge := by
  cases op with
  | processActionFrame transmitter frame rxTimestamp now =>
    change _ =
      some (s.processActionFrame config transmitter frame rxTimestamp now).peerCache.knowledge
    cases hpeer : s.peerCache.get transmitter with
    | some peer =>
      have hknown : s.peerCache.knowledge transmitter = some peer.services := by
        rw [PeerCache.knowledge,hpeer]
        rfl
      obtain ⟨hext,hfound⟩ := peer.searched_update frame rxTimestamp now
      cases hupdate : peer.update frame rxTimestamp now with
      | mk updated found =>
        rw [hupdate] at hext hfound
        rw [(processActionFrame_known hpeer hupdate).1,PeerCache.knowledge_set (hpeer ▸ rfl)]
        simp only [raised,hpeer,hupdate]
        cases found with
        | true =>
          have hlearn := Knowledge.learn_service hknown hext (hfound.mp rfl)
          rw [if_pos rfl,List.foldlM_cons]
          exact congrArg (fun k => k >>= fun k => [].foldlM Knowledge.learn k) hlearn
        | false =>
          have hsame : peer.services = updated.services := by
            by_contra hne
            exact Bool.false_ne_true (hfound.mpr hne)
          rw [if_neg Bool.false_ne_true,← hsame,← hknown,Knowledge.set,Function.update_eq_self]
          rfl
    | none =>
      cases hfull : s.peerCache.isFull config.implementation with
      | true =>
        simp only [processActionFrame,raised,hpeer,hfull,if_true]
        rfl
      | false =>
        cases hnew : AwdlPeer.newWithActionFrame frame rxTimestamp now with
        | none =>
          simp only [processActionFrame,raised,hpeer,hfull,hnew,Bool.false_eq_true,if_false]
          rfl
        | some peer =>
          have hknown : s.peerCache.knowledge transmitter = none := by
            rw [PeerCache.knowledge,hpeer]
            rfl
          rw [(processActionFrame_new hpeer hfull hnew).1,PeerCache.knowledge_insert hpeer,
            AwdlPeer.services_new hnew]
          simp only [raised,hpeer,hfull,hnew,Bool.false_eq_true,if_false]
          rw [List.foldlM_cons,Knowledge.learn_discovered hknown]
          rfl
  | stalePeerTick timeout now =>
    obtain ⟨queue,hpurge⟩ := purgeStalePeers_eq config s timeout now
    change _ = some ((s.purgeStalePeers config timeout now).electMaster config).peerCache.knowledge
    rw [(electMaster_frame config _).1,hpurge]
    exact PeerCache.knowledge_retain (fun _ peer => now - peer.lastFrame < timeout)
  | electMaster =>
    change _ = some (s.electMaster config).peerCache.knowledge
    rw [(electMaster_frame config s).1]
    rfl
  | nextEvent => rfl

end CommonResources

/-- A session with the events it raised and those its user took from the queue. -/
structure ObservedSession where
  resources : CommonResources
  raised : List AwdlEvent
  received : List AwdlEvent

namespace ObservedSession
variable {config : SessionConfig} {s t : ObservedSession} {op : SessionOp} {ops : List SessionOp}

def step (config : SessionConfig) (s : ObservedSession) (op : SessionOp) : ObservedSession where
  resources := s.resources.step config op
  raised := s.raised ++ s.resources.raised config op
  received := s.received ++ s.resources.taken op

def Step (config : SessionConfig) (s : ObservedSession) (op : SessionOp) (t : ObservedSession) :
    Prop :=
  t = s.step config op

/-- The queue has room for all that an operation raises. -/
def HasRoom (config : SessionConfig) (s : ObservedSession) (op : SessionOp) : Prop :=
  s.resources.eventQueue.length + (s.resources.raised config op).length ≤ config.eventQueueDepth

/-- What the user has or can still take. -/
def pending (s : ObservedSession) : List AwdlEvent := s.received ++ s.resources.eventQueue

theorem pending_step (h : Step config s op t) :
    t.pending = s.received ++ offer config.eventQueueDepth s.resources.eventQueue
      (s.resources.raised config op) := by
  rw [h,pending,step,List.append_assoc,CommonResources.taken_append_eventQueue]

theorem pending_sublist_step (h : Step config s op t) (hs : s.pending.Sublist s.raised) :
    t.pending.Sublist t.raised := by
  rw [pending_step h,h]
  refine ((List.Sublist.refl _).append offer_sublist).trans ?_
  rw [← List.append_assoc]
  exact hs.append (List.Sublist.refl _)

theorem pending_eq_step (hroom : HasRoom config s op) (h : Step config s op t)
    (hs : s.pending = s.raised) : t.pending = t.raised := by
  rw [pending_step h,h,offer_eq_append hroom,← List.append_assoc]
  exact congrArg (· ++ _) hs

/-- From the events of a session its user can tell who is in the cache, with the services of
each; of those events the queue gives some to the user, and all as long as it has room. -/
theorem events_tell_cache {r : CommonResources} {channel : UInt8} {now : ℕ}
    (hempty : r.peerCache.entries = [])
    (hr : Runs (Step config) ⟨r.initializeSessionParameters config channel now,[],[]⟩ ops t) :
    t.raised.foldlM Knowledge.learn Knowledge.nobody = some t.resources.peerCache.knowledge ∧
    t.resources.eventQueue.length ≤ config.eventQueueDepth ∧
    t.pending.Sublist t.raised ∧
    (Runs (Guarded (HasRoom config) (Step config))
        ⟨r.initializeSessionParameters config channel now,[],[]⟩ ops t →
      t.pending = t.raised) := by
  refine ⟨?_,?_,?_,?_⟩
  · refine Runs.replay raised (fun s => s.resources.peerCache.knowledge) ?_ hr ?_
    · rintro s op t rfl
      refine ⟨_,rfl,?_⟩
      exact CommonResources.knowledge_step config s.resources op
    · refine congrArg some (funext fun a => ?_)
      change none = (r.peerCache.get a).map AwdlPeer.services
      rw [PeerCache.get,hempty]
      rfl
  · refine hr.invariant (I := fun s => s.resources.eventQueue.length ≤ config.eventQueueDepth) ?_
      (Nat.zero_le _)
    rintro s op t hs rfl
    have htaken := CommonResources.taken_append_eventQueue config s.resources op
    have hle := length_offer_le (s.resources.raised config op) hs
    rw [← htaken,List.length_append] at hle
    exact le_of_add_le_right hle
  · exact hr.invariant (I := fun s => s.pending.Sublist s.raised)
      (fun _ _ _ hs h => pending_sublist_step h hs) (List.Sublist.refl _)
  · intro hroom
    exact hroom.invariant (I := fun s => s.pending = s.raised)
      (fun _ _ _ hs h => pending_eq_step h.1 h.2 hs) rfl

/-- A queue of one event: the peer is discovered, its port is found while the queue is full,
and the peer goes stale after the user has taken the first event. -/
def missedPort : List SessionOp :=
  let frame (serviceResponses : List ServiceResponse) : ActionFrame :=
    { channelSequence := some (.simple (fun _ => 6))
      synchronizationParameters :=
        some (SynchronizationState.generateTlv ⟨fun _ => 6,0⟩ (fun _ => 3) 0 5000)
      txDelta := 0
      electionParametersV2 := none
      electionParameters := some ⟨70,4,fun _ => 4,90⟩
      serviceResponses := serviceResponses }
  [.processActionFrame (fun _ => 3) (frame []) 5000 5000,
    .processActionFrame (fun _ => 3) (frame [⟨.airDropTcpLocal,some 8770⟩]) 6000 6000,
    .nextEvent,.stalePeerTick 3000000 4000000]

theorem events_tell_cache_missedPort : ∃ t : ObservedSession,
    t.raised = [.peerDiscovered (fun _ => 3),
      .discoveredServiceForPeer (fun _ => 3) (some 8770) none,
      .peerWentStale (fun _ => 3) (some 8770) none] ∧
    t.pending = [.peerDiscovered (fun _ => 3),.peerWentStale (fun _ => 3) (some 8770) none] ∧
    t.raised.foldlM Knowledge.learn Knowledge.nobody = some t.resources.peerCache.knowledge ∧
    t.pending.Sublist t.raised := by
  have hr : Runs (Step ⟨fun _ => 1,⟨some 16,fun keys _ => keys.length⟩,1⟩)
      ⟨CommonResources.initializeSessionParameters
        ⟨fun _ => 1,⟨some 16,fun keys _ => keys.length⟩,1⟩
        ⟨⟨[],List.nodup_nil⟩,.new 1 0,.new (fun _ => 0),[]⟩ 6 0,[],[]⟩ missedPort _ :=
    .step rfl (.step rfl (.step rfl (.step rfl (.refl _))))
  obtain ⟨htell,-,hsublist,-⟩ := events_tell_cache rfl hr
  exact ⟨_,rfl,rfl,htell,hsublist⟩

end ObservedSession

end FerrisOnAir.Awdl

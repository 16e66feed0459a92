import FerrisOnAir.Awdl.Synchronization
import FerrisOnAir.Foundation.Selection

/-! # Master election

`ElectionState`, the peer cache and `find_master` of `foa_awdl`. A peer that only speaks
the first version of the protocol advertises no counter. `is_more_eligible` asks whether
the other state is the better one; where it means to compare two counters it reads the
same one twice. The cache is a map, so its entries have distinct addresses, in the order in
which the map yields them.
-/
namespace FerrisOnAir.Awdl
open Selection

structure ElectionState where
  selfMetric : ℕ
  selfCounter : Option ℕ
  masterMetric : ℕ
  masterCounter : Option ℕ
  syncPeer : Option Address
  rootPeer : Address
  distanceToMaster : ℕ
deriving DecidableEq

namespace ElectionState
variable (e : ElectionState)

def new (address : Address) : ElectionState where
  selfMetric := 60
  masterMetric := 60
  selfCounter := some 0
  masterCounter := some 0
  distanceToMaster := 0
  syncPeer := some address
  rootPeer := address

def isMaster (address : Address) : Bool := e.syncPeer.getD e.rootPeer == address

def adoptMaster (masterAddress : Address) (master : ElectionState) : ElectionState :=
  { e with
    masterMetric := master.masterMetric
    masterCounter := some (master.masterCounter.getD 0)
    distanceToMaster := (master.distanceToMaster + 1) % 2 ^ 32
    rootPeer := master.rootPeer
    syncPeer := some masterAddress }

/-- Whether the other state is the more eligible one. -/
def isMoreEligible (rhs : ElectionState) : Bool :=
  match e.selfCounter with
  | some lhsCounter =>
    -- The right counter is read from the left state as well.
    match e.selfCounter with
    | some rhsCounter => lhsCounter < rhsCounter ||
        (lhsCounter == rhsCounter && e.selfMetric < rhs.selfMetric)
    | none => false
  | none => if rhs.selfCounter.isSome then true else e.selfMetric ≤ rhs.selfMetric

/-- The comparison that was meant: counters first, none below any, then metrics. -/
def rank : WithBot ℕ ×ₗ ℕ := toLex ((e.selfCounter : WithBot ℕ),e.selfMetric)

variable {e} {rhs : ElectionState} {c c' : ℕ}

/-- A state with a counter is beaten by a higher metric, whatever the counters are. -/
theorem isMoreEligible_of_counter (h : e.selfCounter = some c) :
    e.isMoreEligible rhs = decide (e.selfMetric < rhs.selfMetric) := by
  simp [isMoreEligible,h]

/-- A state without one is beaten by every state with a counter, and by an equal metric. -/
theorem isMoreEligible_of_none (h : e.selfCounter = none) :
    e.isMoreEligible rhs = true ↔ rhs.selfCounter.isSome ∨ e.selfMetric ≤ rhs.selfMetric := by
  cases hr : rhs.selfCounter <;> simp [isMoreEligible,h,hr]

theorem rank_lt_of_counters (h : e.selfCounter = some c) (h' : rhs.selfCounter = some c') :
    e.rank < rhs.rank ↔ c < c' ∨ c = c' ∧ e.selfMetric < rhs.selfMetric := by
  rw [rank,rank,Prod.Lex.toLex_lt_toLex,h,h']
  exact or_congr WithBot.coe_lt_coe (and_congr_left' WithBot.coe_inj)

end ElectionState

structure AwdlPeer where
  synchronizationState : SynchronizationState
  electionState : ElectionState
  lastFrame : ℕ
  airdropPort : Option ℕ
  airplayPort : Option ℕ

structure PeerCache where
  entries : List (Address × AwdlPeer)
  nodup : (entries.map Prod.fst).Nodup

namespace PeerCache
variable (cache : PeerCache)

def get (address : Address) : Option AwdlPeer :=
  (cache.entries.find? (fun entry => entry.1 == address)).map Prod.snd

/-- Who takes part in an election: the node itself first, then the cache in its order. -/
def peers : List (Address × ElectionState) :=
  cache.entries.map (fun entry => (entry.1,entry.2.electionState))

def candidates (own : ElectionState) (address : Address) : List (Address × ElectionState) :=
  (address,own) :: cache.peers

def beats (p q : Address × ElectionState) : Bool := p.2.isMoreEligible q.2

def mostEligiblePeer (own : ElectionState) (address : Address) : Address × ElectionState :=
  select beats (address,own) cache.peers

/-- `find_master`. Indexing the map would panic at an address it lacks; the most eligible
peer is in it, see `get_mostEligiblePeer`. -/
def findMaster (own : ElectionState) (address : Address) :
    Option (Address × ElectionState × SynchronizationState) :=
  let best := cache.mostEligiblePeer own address
  if best.1 = address then none
  else (cache.get best.1).map (fun peer => (best.1,best.2,peer.synchronizationState))

variable {cache} {cache' : PeerCache} {own : ElectionState} {address : Address} {peer : AwdlPeer}

theorem get_eq_some_iff {a : Address} : cache.get a = some peer ↔ (a,peer) ∈ cache.entries := by
  constructor
  · intro h
    obtain ⟨entry,hentry,rfl⟩ := Option.map_eq_some_iff.mp h
    have ha : entry.1 = a := by simpa using List.find?_some hentry
    exact ha ▸ List.mem_of_find?_eq_some hentry
  · intro h
    have hsome : (cache.entries.find? (fun entry => entry.1 == a)).isSome := by
      rw [List.find?_isSome]
      exact ⟨_,h,beq_self_eq_true a⟩
    obtain ⟨entry,hentry⟩ := Option.isSome_iff_exists.mp hsome
    have ha : entry.1 = a := by simpa using List.find?_some hentry
    have heq : entry = (a,peer) :=
      List.inj_on_of_nodup_map cache.nodup (List.mem_of_find?_eq_some hentry) h ha
    rw [get,hentry,heq]
    rfl

theorem get_eq_of_perm (h : cache.entries.Perm cache'.entries) (a : Address) :
    cache.get a = cache'.get a := by
  ext peer
  exact (get_eq_some_iff.trans h.mem_iff).trans get_eq_some_iff.symm

theorem candidates_perm (own : ElectionState) (address : Address)
    (h : cache.entries.Perm cache'.entries) :
    (cache.candidates own address).Perm (cache'.candidates own address) :=
  (h.map _).cons _

theorem mostEligiblePeer_mem : cache.mostEligiblePeer own address ∈ cache.candidates own address :=
  select_mem

/-- A candidate with another address is the entry of the cache under that address. -/
theorem get_candidate {c : Address × ElectionState} (hc : c ∈ cache.candidates own address)
    (hne : c.1 ≠ address) : ∃ peer, cache.get c.1 = some peer ∧ peer.electionState = c.2 := by
  rcases List.mem_cons.mp hc with rfl | hc
  · exact absurd rfl hne
  · obtain ⟨entry,hentry,rfl⟩ := List.mem_map.mp hc
    exact ⟨entry.2,get_eq_some_iff.mpr hentry,rfl⟩

theorem get_mostEligiblePeer (hne : (cache.mostEligiblePeer own address).1 ≠ address) :
    ∃ peer, cache.get (cache.mostEligiblePeer own address).1 = some peer ∧
      peer.electionState = (cache.mostEligiblePeer own address).2 :=
  get_candidate mostEligiblePeer_mem hne

/-- The result names the candidate the pass ended with, by nothing if it is the node. -/
theorem findMaster_names : (cache.findMaster own address).map (fun m => (m.1,m.2.1)) =
    if (cache.mostEligiblePeer own address).1 = address then none
    else some (cache.mostEligiblePeer own address) := by
  unfold findMaster
  split
  · rename_i h
    rw [if_pos h]
    rfl
  · rename_i h
    obtain ⟨peer,hpeer,_⟩ := get_mostEligiblePeer h
    rw [if_neg h,hpeer]
    rfl

/-- The master found is a cached peer with its election and synchronisation state. -/
theorem findMaster_some {a : Address} {e : ElectionState} {s : SynchronizationState}
    (h : cache.findMaster own address = some (a,e,s)) : a ≠ address ∧
      (cache.mostEligiblePeer own address) = (a,e) ∧
      ∃ peer, cache.get a = some peer ∧ peer.electionState = e ∧ peer.synchronizationState = s := by
  dsimp only [findMaster] at h
  split at h
  · cases h
  · rename_i hne
    obtain ⟨peer,hpeer,he⟩ := get_mostEligiblePeer hne
    rw [hpeer] at h
    cases h
    exact ⟨hne,rfl,peer,hpeer,he,rfl⟩

theorem findMaster_eq_none_iff :
    cache.findMaster own address = none ↔ (cache.mostEligiblePeer own address).1 = address := by
  rw [← Option.map_eq_none_iff (f := fun m => (m.1,m.2.1)),findMaster_names]
  by_cases h : (cache.mostEligiblePeer own address).1 = address <;> simp [h]

/-- A node that follows nobody and a peer of the first version with the higher metric, in
this order. -/
def mixed : PeerCache where
  entries := [(fun _ => 2,⟨⟨fun _ => 6,0⟩,.new (fun _ => 2),0,none,none⟩),
    (fun _ => 3,⟨⟨fun _ => 6,0⟩,⟨70,none,70,none,none,fun _ => 3,0⟩,0,none,none⟩)]
  nodup := by decide

/-- What an election is for: the comparison orders the candidates by their counters and
then their metrics, the result is a candidate that nobody beats, and if one candidate beats
all others the order of the cache does not matter. -/
structure ElectsMostEligible (own : ElectionState) (address : Address) (cache : PeerCache) :
    Prop where
  strictWeakOrder : StrictWeakOrderOn beats (cache.candidates own address)
  byCounterThenMetric : ∀ p ∈ cache.candidates own address,
    ∀ q ∈ cache.candidates own address, (beats p q = true ↔ p.2.rank < q.2.rank)
  unbeaten : ∃ c ∈ cache.candidates own address,
    (cache.findMaster own address).map (fun m => (m.1,m.2.1)) =
        (if c.1 = address then none else some c) ∧
      Unbeaten beats (cache.candidates own address) c
  orderIrrelevant : (∃ c ∈ cache.candidates own address,
      ∀ p ∈ cache.candidates own address, p ≠ c → beats p c = true) →
    ∀ cache' : PeerCache, cache.entries.Perm cache'.entries →
      cache'.findMaster own address = cache.findMaster own address

/-- Everybody advertises a counter, and a higher counter always comes with a higher
metric. -/
structure CountersFollowMetrics (T : List (Address × ElectionState)) : Prop where
  counters : ∀ p ∈ T, p.2.selfCounter.isSome
  monotone : ∀ p ∈ T, ∀ q ∈ T, ∀ c c', p.2.selfCounter = some c → q.2.selfCounter = some c' →
    c < c' → p.2.selfMetric < q.2.selfMetric

/-- The comparison of the code is the one meant on exactly these candidates: reading one
counter twice drops the counters, and two states without one beat each other. -/
theorem beats_iff_rank_iff {T : List (Address × ElectionState)} :
    (∀ p ∈ T, ∀ q ∈ T, (beats p q = true ↔ p.2.rank < q.2.rank)) ↔ CountersFollowMetrics T := by
  constructor
  · intro h
    have hcounters : ∀ p ∈ T, p.2.selfCounter.isSome := by
      intro p hp
      cases hc : p.2.selfCounter with
      | some c => rfl
      | none =>
        have hself : beats p p = true :=
          (ElectionState.isMoreEligible_of_none hc).mpr (Or.inr le_rfl)
        exact absurd ((h p hp p hp).mp hself) (lt_irrefl _)
    refine ⟨hcounters,fun p hp q hq c c' hc hc' hlt => ?_⟩
    have hbeats := (h p hp q hq).mpr
      ((ElectionState.rank_lt_of_counters hc hc').mpr (Or.inl hlt))
    rw [beats,ElectionState.isMoreEligible_of_counter hc] at hbeats
    exact of_decide_eq_true hbeats
  · intro h p hp q hq
    obtain ⟨c,hc⟩ := Option.isSome_iff_exists.mp (h.counters p hp)
    obtain ⟨c',hc'⟩ := Option.isSome_iff_exists.mp (h.counters q hq)
    rw [beats,ElectionState.isMoreEligible_of_counter hc,decide_eq_true_iff,
      ElectionState.rank_lt_of_counters hc hc']
    constructor
    · intro hlt
      rcases lt_trichotomy c c' with hcc | hcc | hcc
      · exact Or.inl hcc
      · exact Or.inr ⟨hcc,hlt⟩
      · have hgt := h.monotone q hq p hp c' c hc' hc hcc
        exact absurd hlt hgt.asymm
    · rintro (hcc | ⟨_,hlt⟩)
      · exact h.monotone p hp q hq c c' hc hc' hcc
      · exact hlt

/-- On a cache in another order the same candidates stand for election. -/
theorem mostEligiblePeer_eq_of_perm (h : cache.entries.Perm cache'.entries)
    {c : Address × ElectionState} (hc : c ∈ cache.candidates own address)
    (hu : Unbeaten beats (cache.candidates own address) c)
    (hbeats : ∀ p ∈ cache.candidates own address, p ≠ c → beats p c = true) :
    cache'.mostEligiblePeer own address = c := by
  have hmem := fun p => (candidates_perm own address h).mem_iff (a := p)
  exact select_eq_of_beats ((hmem c).mp hc) (fun p hp => hu p ((hmem p).mpr hp))
    (fun p hp => hbeats p ((hmem p).mpr hp))

theorem findMaster_eq_of_perm (h : cache.entries.Perm cache'.entries)
    (hbest : cache'.mostEligiblePeer own address = cache.mostEligiblePeer own address) :
    cache'.findMaster own address = cache.findMaster own address := by
  simp only [findMaster,hbest,get_eq_of_perm h]

theorem electsMostEligible_iff (own : ElectionState) (address : Address) (cache : PeerCache) :
    ElectsMostEligible own address cache ↔
      CountersFollowMetrics (cache.candidates own address) := by
  constructor
  · intro h
    exact beats_iff_rank_iff.mp h.byCounterThenMetric
  · intro h
    have hrank := beats_iff_rank_iff.mpr h
    have horder := strictWeakOrderOn_of_key hrank
    refine ⟨horder,hrank,⟨_,mostEligiblePeer_mem,findMaster_names,?_⟩,?_⟩
    · exact unbeaten_select_of_key hrank
    · rintro ⟨c,hc,hbeats⟩ cache' hperm
      have hu : Unbeaten beats (cache.candidates own address) c := by
        intro p hp
        by_cases hpc : p = c
        · exact hpc ▸ horder.irrefl c hc
        · exact horder.asymm p hp c hc (hbeats p hp hpc)
      have hbest := mostEligiblePeer_eq_of_perm (List.Perm.refl _) hc hu hbeats
      exact findMaster_eq_of_perm hperm
        ((mostEligiblePeer_eq_of_perm hperm hc hu hbeats).trans hbest.symm)

/-- The peer beats both nodes and the other node beats the peer, so whoever comes last is
elected. -/
theorem not_electsMostEligible_mixed :
    ¬ ElectsMostEligible (.new (fun _ => 1)) (fun _ => 1) mixed := by
  intro h
  let reversed : PeerCache := ⟨mixed.entries.reverse,by decide⟩
  have hbest : ∃ c ∈ mixed.candidates (.new (fun _ => 1)) (fun _ => 1),
      ∀ p ∈ mixed.candidates (.new (fun _ => 1)) (fun _ => 1), p ≠ c → beats p c = true := by
    decide
  have heq := h.orderIrrelevant hbest reversed (List.reverse_perm _).symm
  have hne : (reversed.findMaster (.new (fun _ => 1)) (fun _ => 1)).map Prod.fst ≠
      (mixed.findMaster (.new (fun _ => 1)) (fun _ => 1)).map Prod.fst := by
    decide
  exact hne (congrArg (Option.map Prod.fst) heq)

end PeerCache

end FerrisOnAir.Awdl

import FerrisOnAir.Awdl.Session

/-! # Elections in a network

Nodes that run this code among arbitrary other peers. Every node has heard what all others
advertise at present, in an order of its own, and elects its master. Two nodes follow each
other only by way of a peer without a counter: it displaces both, and each node displaces
it again in the pass of the other.
-/
namespace FerrisOnAir.Awdl
open Selection PeerCache CommonResources

/-- The participants with what they advertise. A node advertises a counter, which every
session keeps (`CommonResources.Counted`). -/
structure Network where
  nodes : List (Address × ElectionState)
  peers : List (Address × ElectionState)
  nodup : ((nodes ++ peers).map Prod.fst).Nodup
  counted : ∀ node ∈ nodes, node.2.selfCounter.isSome

namespace Network
variable (net : Network)

def participants : List (Address × ElectionState) := net.nodes ++ net.peers

/-- A node of the network whose cache holds all the others. -/
structure Hears (address : Address) (s : CommonResources) : Prop where
  node : (address,s.electionState) ∈ net.nodes
  cache : s.peerCache.peers.Perm (net.participants.filter (fun p => p.1 ≠ address))

/-- After their elections no two nodes follow each other, in whatever orders they went
through their caches. -/
def NoMutualFollowing : Prop := ∀ (config config' : SessionConfig) (s s' : CommonResources),
  net.Hears config.ourAddress s → net.Hears config'.ourAddress s' →
  config.ourAddress ≠ config'.ourAddress →
  ¬ ((s.electMaster config).electionState.syncPeer = some config'.ourAddress ∧
    (s'.electMaster config').electionState.syncPeer = some config.ourAddress)

/-- Every peer without a counter has the metric of one with a counter, or a lower one. -/
def CountersDominate : Prop := ∀ p ∈ net.peers, p.2.selfCounter = none →
  ∃ q ∈ net.participants, q.2.selfCounter.isSome ∧ p.2.selfMetric ≤ q.2.selfMetric

variable {net} {config : SessionConfig} {s : CommonResources} {p q : Address × ElectionState}

theorem eq_of_address (hp : p ∈ net.participants) (hq : q ∈ net.participants) (h : p.1 = q.1) :
    p = q := List.inj_on_of_nodup_map net.nodup hp hq h

/-- All participants stand for election at every node. -/
theorem Hears.mem_candidates_iff {address : Address} (h : net.Hears address s) :
    p ∈ s.peerCache.candidates s.electionState address ↔ p ∈ net.participants := by
  have hown : (address,s.electionState) ∈ net.participants := List.mem_append_left _ h.node
  rw [candidates,List.mem_cons,h.cache.mem_iff,List.mem_filter,decide_eq_true_iff]
  constructor
  · rintro (rfl | ⟨hp,_⟩)
    · exact hown
    · exact hp
  · intro hp
    by_cases ha : p.1 = address
    · exact Or.inl (eq_of_address hp hown ha)
    · exact Or.inr ⟨hp,ha⟩

/-- A node follows another one exactly if its pass ended there. -/
theorem syncPeer_electMaster_iff {b : Address} (hb : b ≠ config.ourAddress) :
    (s.electMaster config).electionState.syncPeer = some b ↔
      (s.peerCache.mostEligiblePeer s.electionState config.ourAddress).1 = b := by
  rcases electMaster_cases config s with
    ⟨address,peer,_,_,hbest,heq⟩ | ⟨hbest,⟨_,heq⟩ | ⟨hm,heq⟩⟩
  · rw [heq,hbest]
    exact Option.some_inj
  · rw [heq,hbest]
    exact ⟨fun h => Option.some.inj h,fun h => congrArg some h⟩
  · rw [heq,hbest]
    constructor
    · intro h
      have hbe : b = config.ourAddress := by simpa [ElectionState.isMaster,h] using hm
      exact hbe.symm
    · intro h
      exact absurd h.symm hb

/-- With a counter of the highest metric among the candidates, whoever wins is unbeaten. -/
theorem unbeaten_mostEligiblePeer {address : Address} (h : net.Hears address s)
    (hdom : net.CountersDominate) :
    Unbeaten beats net.participants (s.peerCache.mostEligiblePeer s.electionState address) := by
  have hown : (address,s.electionState) ∈ net.participants := List.mem_append_left _ h.node
  obtain ⟨y,⟨hy,hcounter⟩,hmax⟩ := Set.exists_max_image
    {p | p ∈ net.participants ∧ p.2.selfCounter.isSome} (fun p => p.2.selfMetric)
    ((List.finite_toSet _).subset (fun p hp => hp.1)) ⟨_,hown,net.counted _ h.node⟩
  have htop : ∀ p ∈ net.participants, p.2.selfMetric ≤ y.2.selfMetric := by
    intro p hp
    cases hc : p.2.selfCounter with
    | some c => exact hmax p ⟨hp,by simp [hc]⟩
    | none =>
      rcases List.mem_append.mp hp with hnode | hpeer
      · have hsome := net.counted p hnode
        rw [hc] at hsome
        cases hsome
      · obtain ⟨q,hq,hqc,hle⟩ := hdom p hpeer hc
        exact hle.trans (hmax q ⟨hq,hqc⟩)
  have hunbeaten : ∀ b : Address × ElectionState, b.2.selfCounter.isSome →
      y.2.selfMetric ≤ b.2.selfMetric → Unbeaten beats net.participants b := by
    intro b hb hle p hp
    obtain ⟨c,hc⟩ := Option.isSome_iff_exists.mp hb
    rw [beats,ElectionState.isMoreEligible_of_counter hc,decide_eq_false_iff_not]
    exact ((htop p hp).trans hle).not_gt
  have hsub : ∀ b : Address × ElectionState,
      Unbeaten beats (s.peerCache.candidates s.electionState address) b ↔
        Unbeaten beats net.participants b := fun b =>
    forall_congr' (fun p => imp_congr_left h.mem_candidates_iff)
  refine (hsub _).mp (unbeaten_select_of_mem (y := y) (h.mem_candidates_iff.mpr hy)
    ((hsub y).mpr (hunbeaten y hcounter le_rfl)) (fun b _ => ?_))
  cases hc : b.2.selfCounter with
  | none => exact Or.inl ((ElectionState.isMoreEligible_of_none hc).mpr (Or.inl hcounter))
  | some c =>
    by_cases hlt : b.2.selfMetric < y.2.selfMetric
    · refine Or.inl ?_
      rw [beats,ElectionState.isMoreEligible_of_counter hc]
      exact decide_eq_true hlt
    · exact Or.inr ((hsub b).mpr (hunbeaten b (by simp [hc]) (not_lt.mp hlt)))

/-- If another node ends with this one, this one is unbeaten and ends with itself. -/
theorem noMutualFollowing_of_countersDominate (hdom : net.CountersDominate) :
    net.NoMutualFollowing := by
  rintro config config' s s' h h' hne ⟨hab,hba⟩
  rw [syncPeer_electMaster_iff hne.symm] at hab
  rw [syncPeer_electMaster_iff hne] at hba
  have hown : (config.ourAddress,s.electionState) ∈ net.participants :=
    List.mem_append_left _ h.node
  have hbest := h'.mem_candidates_iff.mp
    mostEligiblePeer_mem
  have hu := unbeaten_mostEligiblePeer h' hdom
  rw [eq_of_address hbest hown hba] at hu
  have hself : s.peerCache.mostEligiblePeer s.electionState config.ourAddress =
      (config.ourAddress,s.electionState) :=
    select_eq_of_unbeaten hu (fun p hp => h.mem_candidates_iff.mp (List.mem_cons_of_mem _ hp))
  rw [hself] at hab
  exact hne hab

/-- The cache of a node that has heard the other participants in a given order. -/
def cacheOf (peers : List (Address × ElectionState)) (h : (peers.map Prod.fst).Nodup) :
    PeerCache where
  entries := peers.map (fun p => (p.1,⟨.new 6 0,p.2,0,none,none⟩))
  nodup := by
    rw [List.map_map]
    exact h

theorem peers_cacheOf (peers : List (Address × ElectionState)) (h : (peers.map Prod.fst).Nodup) :
    (cacheOf peers h).peers = peers := by
  rw [PeerCache.peers,cacheOf,List.map_map]
  exact List.map_id _

/-- The participants but three, then a peer, then a node. -/
def lastTwo (a : Address) (p b : Address × ElectionState) : List (Address × ElectionState) :=
  net.participants.filter (fun q => q.1 ≠ a ∧ q.1 ≠ p.1 ∧ q.1 ≠ b.1) ++ [p,b]

/-- An order of the cache of the first node. -/
theorem lastTwo_perm {a : Address} {p b : Address × ElectionState} (hp : p ∈ net.participants)
    (hb : b ∈ net.participants) (hap : p.1 ≠ a) (hab : b.1 ≠ a) (hpb : p.1 ≠ b.1) :
    (net.lastTwo a p b).Perm (net.participants.filter (fun q => q.1 ≠ a)) := by
  have hnodup : net.participants.Nodup := List.Nodup.of_map _ net.nodup
  have hlast : (net.lastTwo a p b).Nodup := by
    refine List.nodup_append.mpr ⟨hnodup.filter _,?_,?_⟩
    · exact List.nodup_cons.mpr ⟨fun h => hpb (congrArg Prod.fst (List.mem_singleton.mp h)),
        List.nodup_singleton _⟩
    · rintro q hq q' hq' rfl
      obtain ⟨_,_,hqp,hqb⟩ := by simpa using List.mem_filter.mp hq
      rcases List.mem_cons.mp hq' with rfl | hq'
      · exact hqp rfl
      · exact hqb (congrArg Prod.fst (List.mem_singleton.mp hq'))
  rw [List.perm_ext_iff_of_nodup hlast (hnodup.filter _)]
  intro q
  simp only [lastTwo,List.mem_append,List.mem_filter,decide_eq_true_iff,List.mem_cons,
    List.not_mem_nil,or_false]
  constructor
  · rintro (⟨hq,hqa,_⟩ | rfl | rfl)
    · exact ⟨hq,hqa⟩
    · exact ⟨hp,hap⟩
    · exact ⟨hb,hab⟩
  · rintro ⟨hq,hqa⟩
    by_cases hqp : q.1 = p.1
    · exact Or.inr (Or.inl (eq_of_address hq hp hqp))
    · by_cases hqb : q.1 = b.1
      · exact Or.inr (Or.inr (eq_of_address hq hb hqb))
      · exact Or.inl ⟨hq,hqa,hqp,hqb⟩

/-- A peer without a counter above all metrics lets one node follow any other: it displaces
everybody, and then the other node displaces it. -/
theorem exists_hears_following {a b p : Address × ElectionState} (ha : a ∈ net.nodes)
    (hb : b ∈ net.nodes) (hab : a.1 ≠ b.1) (hp : p ∈ net.peers) (hnone : p.2.selfCounter = none)
    (htop : ∀ q ∈ net.participants, q ≠ p → beats q p = true) :
    ∃ s, net.Hears a.1 s ∧ ∀ config : SessionConfig, config.ourAddress = a.1 →
      (s.electMaster config).electionState.syncPeer = some b.1 := by
  have ha' : a ∈ net.participants := List.mem_append_left _ ha
  have hb' : b ∈ net.participants := List.mem_append_left _ hb
  have hp' : p ∈ net.participants := List.mem_append_right _ hp
  have hnode : ∀ q ∈ net.nodes, p.1 ≠ q.1 := by
    intro q hq h
    have hsome := net.counted q hq
    rw [← eq_of_address hp' (List.mem_append_left _ hq) h,hnone] at hsome
    cases hsome
  have hperm := lastTwo_perm hp' hb' (hnode a ha) hab.symm (hnode b hb)
  have hnodup : ((net.lastTwo a.1 p b).map Prod.fst).Nodup :=
    (hperm.map _).nodup_iff.mpr (net.nodup.sublist (List.filter_sublist.map _))
  refine ⟨⟨cacheOf (net.lastTwo a.1 p b) hnodup,.new 6 0,a.2,[]⟩,⟨ha,?_⟩,?_⟩
  · rw [peers_cacheOf]
    exact hperm
  · intro config hconfig
    rw [syncPeer_electMaster_iff (hconfig ▸ hab.symm),hconfig,mostEligiblePeer,peers_cacheOf]
    let rest := net.participants.filter (fun q => q.1 ≠ a.1 ∧ q.1 ≠ p.1 ∧ q.1 ≠ b.1)
    have hlist : net.lastTwo a.1 p b = rest ++ [p] ++ [b] := by
      rw [List.append_assoc]
      rfl
    have hbest : beats (select beats a rest) p = true := by
      have hmem : select beats a rest ∈ a :: rest := select_mem
      rcases List.mem_cons.mp hmem with h | h
      · rw [h]
        exact htop a ha' (fun hap => hnode a ha (congrArg Prod.fst hap.symm))
      · obtain ⟨hpart,hothers⟩ := List.mem_filter.mp h
        refine htop _ hpart (fun heq => ?_)
        exact (of_decide_eq_true hothers).2.1 (congrArg Prod.fst heq)
    have hpb : beats p b = true :=
      (ElectionState.isMoreEligible_of_none hnone).mpr (Or.inl (net.counted b hb))
    change (select beats a (net.lastTwo a.1 p b)).1 = b.1
    rw [hlist,select_concat,select_concat,if_pos hbest,if_pos hpb]

/-- A peer without a counter and above all counters is beaten by nobody's metric; take the
one with the highest metric among those without a counter. -/
theorem exists_peer_of_not_countersDominate (h : ¬ net.CountersDominate) : ∃ p ∈ net.peers,
    p.2.selfCounter = none ∧ ∀ q ∈ net.participants, q ≠ p → beats q p = true := by
  unfold CountersDominate at h
  push Not at h
  obtain ⟨p₀,hp₀,hnone₀,hlow₀⟩ := h
  obtain ⟨p,⟨hp,hnone⟩,hmax⟩ := Set.exists_max_image
    {p | p ∈ net.peers ∧ p.2.selfCounter = none} (fun p => p.2.selfMetric)
    ((List.finite_toSet _).subset (fun p hp => hp.1)) ⟨p₀,hp₀,hnone₀⟩
  refine ⟨p,hp,hnone,fun q hq _ => ?_⟩
  cases hc : q.2.selfCounter with
  | some c =>
    rw [beats,ElectionState.isMoreEligible_of_counter hc]
    have hlt := hlow₀ q hq (by simp [hc])
    exact decide_eq_true (hlt.trans_le (hmax p₀ ⟨hp₀,hnone₀⟩))
  | none =>
    rw [beats,ElectionState.isMoreEligible_of_none hc]
    rcases List.mem_append.mp hq with hnode | hpeer
    · have hsome := net.counted q hnode
      rw [hc] at hsome
      cases hsome
    · exact Or.inr (hmax q ⟨hpeer,hc⟩)

theorem noMutualFollowing_iff (net : Network) :
    net.NoMutualFollowing ↔ net.nodes.length < 2 ∨ net.CountersDominate := by
  constructor
  · intro h
    by_contra hno
    obtain ⟨htwo,hdom⟩ := not_or.mp hno
    obtain ⟨p,hp,hnone,htop⟩ := exists_peer_of_not_countersDominate hdom
    match hnodes : net.nodes with
    | [] => simp [hnodes] at htwo
    | [_] => simp [hnodes] at htwo
    | a :: b :: rest =>
      have ha : a ∈ net.nodes := by simp [hnodes]
      have hb : b ∈ net.nodes := by simp [hnodes]
      have hab : a.1 ≠ b.1 := by
        have hn := net.nodup
        simp only [hnodes,List.map_append,List.map_cons,List.cons_append,List.nodup_cons,
          List.mem_cons,not_or] at hn
        exact hn.1.1
      obtain ⟨s,hs,hfollows⟩ := exists_hears_following ha hb hab hp hnone htop
      obtain ⟨s',hs',hfollows'⟩ := exists_hears_following hb ha hab.symm hp hnone htop
      exact h ⟨a.1,⟨none,fun _ _ => 0⟩,0⟩ ⟨b.1,⟨none,fun _ _ => 0⟩,0⟩ s s' hs hs' hab
        ⟨hfollows _ rfl,hfollows' _ rfl⟩
  · rintro (hone | hdom)
    · rintro config config' s s' h h' hne -
      have heq : (config.ourAddress,s.electionState) = (config'.ourAddress,s'.electionState) := by
        match hnodes : net.nodes with
        | [] => exact absurd h.node (by simp [hnodes])
        | [node] =>
          have hnode := h.node
          have hnode' := h'.node
          rw [hnodes,List.mem_singleton] at hnode hnode'
          exact hnode.trans hnode'.symm
        | _ :: _ :: _ =>
          rw [hnodes] at hone
          simp at hone
      exact hne (congrArg Prod.fst heq)
    · exact noMutualFollowing_of_countersDominate hdom

/-- Two nodes as they come up and a peer of the first version. -/
def mixed : Network where
  nodes := [(fun _ => 1,.new (fun _ => 1)),(fun _ => 2,.new (fun _ => 2))]
  peers := [(fun _ => 3,⟨70,none,70,none,none,fun _ => 3,0⟩)]
  nodup := by decide
  counted := by decide

/-- Both nodes hear the peer first and each other last. -/
theorem not_noMutualFollowing_mixed : ¬ mixed.NoMutualFollowing := by
  intro h
  let s (own other : Address) (hnodup) : CommonResources :=
    ⟨cacheOf [(fun _ => 3,⟨70,none,70,none,none,fun _ => 3,0⟩),(other,.new other)] hnodup,
      .new 6 0,.new own,[]⟩
  refine h ⟨fun _ => 1,⟨none,fun _ _ => 0⟩,0⟩ ⟨fun _ => 2,⟨none,fun _ _ => 0⟩,0⟩
    (s (fun _ => 1) (fun _ => 2) (by decide)) (s (fun _ => 2) (fun _ => 1) (by decide))
    ⟨by decide,by decide⟩ ⟨by decide,by decide⟩ (by decide) ⟨by decide,by decide⟩

end Network

end FerrisOnAir.Awdl

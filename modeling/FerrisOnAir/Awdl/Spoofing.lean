import FerrisOnAir.Awdl.Session

/-! # Frames under our own address

Nothing keeps a node from caching a peer under its own address. Such an entry stands for
election beside the node itself, which is then its own master by either of them, and a node
that is its own master follows the entry whenever a frame updates it.
-/
namespace FerrisOnAir.Awdl
open Selection

namespace PeerCache
variable {cache : PeerCache} {address a : Address} {peer p q : AwdlPeer}

theorem ext_entries {cache cache' : PeerCache} (h : cache.entries = cache'.entries) :
    cache = cache' := by
  cases cache
  cases cache'
  cases h
  rfl

theorem set_set : (cache.set address p).set address q = cache.set address q := by
  refine ext_entries ?_
  simp only [set,List.map_map]
  refine List.map_congr_left (fun entry _ => ?_)
  simp only [Function.comp_apply]
  split_ifs <;> rfl

theorem set_get (h : cache.get address = some peer) : cache.set address peer = cache := by
  refine ext_entries ?_
  refine (List.map_congr_left (fun entry hentry => ?_)).trans (List.map_id _)
  by_cases he : entry.1 = address
  · have heq : entry = (address,peer) :=
      List.inj_on_of_nodup_map cache.nodup hentry (get_eq_some_iff.mp h) he
    rw [if_pos he,heq]
    rfl
  · rw [if_neg he]
    rfl

theorem not_mem_keys (h : cache.get address = none) : address ∉ cache.entries.map Prod.fst := by
  intro hmem
  obtain ⟨entry,hentry,rfl⟩ := List.mem_map.mp hmem
  have hsome : cache.get entry.1 = some entry.2 := get_eq_some_iff.mpr hentry
  cases h.symm.trans hsome

theorem mem_insert_iff {impl : CacheImplementation} (h : cache.get address = none)
    {entry : Address × AwdlPeer} : entry ∈ (cache.insert impl address peer).entries ↔
      entry = (address,peer) ∨ entry ∈ cache.entries := by
  rw [insert,dif_neg (not_mem_keys h),List.mem_append,List.mem_cons,or_left_comm]
  rw [← List.mem_append,List.take_append_drop]

theorem get_insert_self {impl : CacheImplementation} (h : cache.get address = none) :
    (cache.insert impl address peer).get address = some peer :=
  get_eq_some_iff.mpr ((mem_insert_iff h).mpr (.inl rfl))

theorem get_insert_of_ne {impl : CacheImplementation} (h : cache.get address = none)
    (hne : a ≠ address) : (cache.insert impl address peer).get a = cache.get a := by
  ext p
  rw [get_eq_some_iff,get_eq_some_iff,mem_insert_iff h]
  refine or_iff_right ?_
  intro heq
  exact hne (congrArg Prod.fst heq)

theorem set_insert {impl : CacheImplementation} (h : cache.get address = none) :
    (cache.insert impl address p).set address q = cache.insert impl address q := by
  have hkeys := not_mem_keys h
  have hother : ∀ entries : List (Address × AwdlPeer), (∀ entry ∈ entries, entry ∈ cache.entries) →
      entries.map (fun entry => if entry.1 = address then (entry.1,q) else entry) = entries := by
    intro entries hsub
    refine (List.map_congr_left (fun entry hentry => ?_)).trans (List.map_id _)
    rw [if_neg]
    · rfl
    · rintro rfl
      exact hkeys (List.mem_map_of_mem (hsub entry hentry))
  refine ext_entries ?_
  rw [insert,insert,dif_neg hkeys,dif_neg hkeys]
  simp only [set,List.map_append,List.map_cons,if_true]
  rw [hother _ (fun _ => List.mem_of_mem_take),hother _ (fun _ => List.mem_of_mem_drop)]

/-- The address that an election in a fresh session ends with. -/
def winner (cache : PeerCache) (address : Address) : Address :=
  (cache.mostEligiblePeer (.new address) address).1

/-- An election looks at the metric and the counter of a node only. -/
theorem mostEligiblePeer_fst {own : ElectionState} (hcounter : own.selfCounter = some 0)
    (hmetric : own.selfMetric = 60) :
    (cache.mostEligiblePeer own address).1 = cache.winner address := by
  let key := fun p : Address × ElectionState =>
    (p.1,({ p.2 with masterMetric := 0, masterCounter := none, syncPeer := none,
                     rootPeer := p.1, distanceToMaster := 0 } : ElectionState))
  have hbeats : ∀ p q, beats p q = beats (key p) (key q) := fun _ _ => rfl
  have hkey : ∀ own : ElectionState, key (cache.mostEligiblePeer own address) =
      select beats (key (address,own)) (cache.peers.map key) :=
    fun own => map_select hbeats (address,own) cache.peers
  have hown : key (address,own) = key (address,.new address) := by
    simp only [key,hcounter,hmetric]
    rfl
  have heq : key (cache.mostEligiblePeer own address) =
      key (cache.mostEligiblePeer (.new address) address) := by
    rw [hkey,hkey,hown]
  have hfst : (key (cache.mostEligiblePeer own address)).1 =
      (key (cache.mostEligiblePeer (.new address) address)).1 := congrArg Prod.fst heq
  exact hfst

end PeerCache

/-- An action frame with the times at which it was received and processed. -/
structure Reception where
  frame : ActionFrame
  rxTimestamp : ℕ
  now : ℕ

/-- An entry after further frames. -/
def AwdlPeer.updates (peer : AwdlPeer) (receptions : List Reception) : AwdlPeer :=
  receptions.foldl (fun peer r => (peer.update r.frame r.rxTimestamp r.now).1) peer

namespace CommonResources
variable (config : SessionConfig) (s : CommonResources)

/-- What a node makes of its elections. -/
structure Outcome where
  syncPeer : Option Address
  rootPeer : Address
  distanceToMaster : ℕ
  masterMetric : ℕ
  tsfEpoch : ℤ
deriving DecidableEq

def outcome : Outcome where
  syncPeer := s.electionState.syncPeer
  rootPeer := s.electionState.rootPeer
  distanceToMaster := s.electionState.distanceToMaster
  masterMetric := s.electionState.masterMetric
  tsfEpoch := s.syncState.tsfEpochInUs

/-- What it is if the node follows a peer. -/
def outcomeFollowing (address : Address) (peer : AwdlPeer) : Outcome where
  syncPeer := some address
  rootPeer := peer.electionState.rootPeer
  distanceToMaster := (peer.electionState.distanceToMaster + 1) % 2 ^ 32
  masterMetric := peer.electionState.masterMetric
  tsfEpoch := peer.synchronizationState.tsfEpochInUs

/-- Frames that claim our own address. -/
def processSpoofed (receptions : List Reception) : CommonResources :=
  receptions.foldl (fun s r =>
    s.processActionFrame config config.ourAddress r.frame r.rxTimestamp r.now) s

/-- Neither the frames nor any election after them make a difference. -/
def Unaffected (receptions : List Reception) : Prop :=
  ∀ n, outcome ((electMaster config)^[n] (s.processSpoofed config receptions)) =
    outcome ((electMaster config)^[n] s)

/-- The frames of an entry that is cached already leave its election alone, and where the
node is its own master they say of it what it says itself. -/
def UpdateHarmless (peer : AwdlPeer) (receptions : List Reception) : Prop :=
  (s.electionState.syncPeer = some config.ourAddress → s.Follows (peer.updates receptions)) ∧
  (s.peerCache.set config.ourAddress (peer.updates receptions)).winner config.ourAddress =
    s.peerCache.winner config.ourAddress

/-- The first frame that makes an entry lets the election end with whom the node follows,
and the frames behind it leave the election as it was. -/
def InsertionHarmless (peer : AwdlPeer) (behind : List Reception) : Prop :=
  s.electionState.syncPeer = some ((s.peerCache.insert config.implementation config.ourAddress
    peer).winner config.ourAddress) ∧
  (behind ≠ [] → s.electionState.syncPeer = some config.ourAddress →
    s.Follows (peer.updates behind)) ∧
  (s.peerCache.insert config.implementation config.ourAddress
    (peer.updates behind)).winner config.ourAddress = s.peerCache.winner config.ourAddress

/-- No frame makes an entry under our address, or it is harmless. -/
def Harmless (receptions : List Reception) : Prop :=
  match s.peerCache.get config.ourAddress with
  | some peer => receptions = [] ∨ s.UpdateHarmless config peer receptions
  | none => s.peerCache.isFull config.implementation = true ∨
    (∀ r ∈ receptions, AwdlPeer.newWithActionFrame r.frame r.rxTimestamp r.now = none) ∨
    ∃ before r behind peer, receptions = before ++ r :: behind ∧
      (∀ r ∈ before, AwdlPeer.newWithActionFrame r.frame r.rxTimestamp r.now = none) ∧
      AwdlPeer.newWithActionFrame r.frame r.rxTimestamp r.now = some peer ∧
      s.InsertionHarmless config peer behind

section Elections
variable {config s} {t : CommonResources} {peer : AwdlPeer} {address : Address}

theorem winner_eq (config : SessionConfig) (h : s.Counted) :
    (s.peerCache.mostEligiblePeer s.electionState config.ourAddress).1 =
      s.peerCache.winner config.ourAddress :=
  PeerCache.mostEligiblePeer_fst h.selfCounter h.selfMetric

theorem outcome_eq_following_iff : s.outcome = outcomeFollowing address peer ↔
    s.electionState.syncPeer = some address ∧ s.Follows peer := by
  rw [outcome,outcomeFollowing,Outcome.mk.injEq]
  constructor
  · rintro ⟨hsync,hroot,hdistance,hmetric,hepoch⟩
    exact ⟨hsync,hepoch,hmetric,hroot,hdistance⟩
  · rintro ⟨hsync,hepoch,hmetric,hroot,hdistance⟩
    exact ⟨hsync,hroot,hdistance,hmetric,hepoch⟩

theorem outcome_adopt : (s.adoptPeerAsMaster address peer).outcome = outcomeFollowing address peer :=
  rfl

/-- What an election makes of a session: it follows the peer the election ends with, or it
is its own master and keeps or resets its parameters. -/
theorem outcome_electMaster (config : SessionConfig) (h : s.Counted) :
    (∃ peer, s.peerCache.winner config.ourAddress ≠ config.ourAddress ∧
      s.peerCache.get (s.peerCache.winner config.ourAddress) = some peer ∧
      s.electMaster config = s.adoptPeerAsMaster (s.peerCache.winner config.ourAddress) peer) ∨
    s.peerCache.winner config.ourAddress = config.ourAddress ∧
      s.electMaster config = if s.electionState.isMaster config.ourAddress then s
        else { s with electionState := .new config.ourAddress } := by
  have hwinner := winner_eq config h
  rcases electMaster_cases config s with
    ⟨address,peer,hne,hpeer,hbest,heq⟩ | ⟨hbest,⟨hm,heq⟩ | ⟨hm,heq⟩⟩
  · rw [hbest] at hwinner
    obtain rfl : address = s.peerCache.winner config.ourAddress := hwinner
    exact .inl ⟨peer,hne,hpeer,heq⟩
  · exact .inr ⟨hwinner.symm.trans hbest,by rw [heq,hm,if_neg Bool.false_ne_true]⟩
  · exact .inr ⟨hwinner.symm.trans hbest,by rw [heq,if_pos hm]⟩

theorem isMaster_iff (hsync : s.electionState.syncPeer.isSome) :
    s.electionState.isMaster address = true ↔ s.electionState.syncPeer = some address := by
  obtain ⟨p,hp⟩ := Option.isSome_iff_exists.mp hsync
  rw [ElectionState.isMaster,hp,Option.getD_some,beq_iff_eq,Option.some_inj]

theorem syncPeer_electMaster (h : s.Counted) (hsync : s.electionState.syncPeer.isSome) :
    (s.electMaster config).electionState.syncPeer =
      some (s.peerCache.winner config.ourAddress) := by
  rcases outcome_electMaster config h with ⟨peer,-,-,heq⟩ | ⟨hwinner,heq⟩
  · rw [heq]
    rfl
  · rw [heq,hwinner]
    split_ifs with hm
    · exact (isMaster_iff hsync).mp hm
    · rfl

/-- A second election changes nothing. -/
theorem electMaster_electMaster (h : s.Counted) :
    (s.electMaster config).electMaster config = s.electMaster config := by
  rcases outcome_electMaster config h with ⟨peer,hne,hpeer,heq⟩ | ⟨hwinner,heq⟩
  · rw [heq]
    have hcounted : (s.adoptPeerAsMaster (s.peerCache.winner config.ourAddress) peer).Counted :=
      counted_adopt h _
    rcases outcome_electMaster config hcounted with ⟨peer',-,hpeer',heq'⟩ | ⟨hwinner,-⟩
    · obtain rfl : peer = peer' := Option.some.inj (hpeer.symm.trans hpeer')
      rw [heq']
      rfl
    · exact absurd hwinner hne
  · rw [heq]
    have hmaster : ∀ t : CommonResources, t.Counted → t.peerCache = s.peerCache →
        t.electionState.isMaster config.ourAddress = true → t.electMaster config = t := by
      intro t ht hcache hm
      rcases outcome_electMaster config ht with ⟨peer,hne,-,-⟩ | ⟨-,heq⟩
      · rw [hcache] at hne
        exact absurd hwinner hne
      · rw [heq,if_pos hm]
    split_ifs with hm
    · exact hmaster s h rfl hm
    · exact hmaster _ ⟨rfl,rfl,rfl⟩ rfl ((isMaster_iff rfl).mpr rfl)

theorem iterate_electMaster (h : s.Counted) (n : ℕ) :
    (electMaster config)^[n + 1] s = s.electMaster config := by
  induction n with
  | zero => rfl
  | succ n ih =>
    rw [Function.iterate_succ_apply',ih]
    exact electMaster_electMaster h

/-- Two sessions with the same outcome and the same peers but for our address: the next
election tells them apart exactly by whom it ends with. -/
theorem outcome_electMaster_eq_iff (h : s.Counted) (ht : t.Counted)
    (hsync : s.electionState.syncPeer.isSome)
    (hpeers : ∀ a, a ≠ config.ourAddress → t.peerCache.get a = s.peerCache.get a)
    (hsame : t.outcome = s.outcome) :
    (t.electMaster config).outcome = (s.electMaster config).outcome ↔
      t.peerCache.winner config.ourAddress = s.peerCache.winner config.ourAddress := by
  have hsyncs : t.electionState.syncPeer = s.electionState.syncPeer :=
    congrArg Outcome.syncPeer hsame
  have hsync' : t.electionState.syncPeer.isSome := hsyncs ▸ hsync
  constructor
  · intro heq
    have hpeer := congrArg Outcome.syncPeer heq
    change (t.electMaster config).electionState.syncPeer =
      (s.electMaster config).electionState.syncPeer at hpeer
    rw [syncPeer_electMaster ht hsync',syncPeer_electMaster h hsync] at hpeer
    exact Option.some.inj hpeer
  · intro hwinner
    rcases outcome_electMaster config h with ⟨peer,hne,hpeer,heq⟩ | ⟨hown,heq⟩
    · rcases outcome_electMaster config ht with ⟨peer',-,hpeer',heq'⟩ | ⟨hown,-⟩
      · rw [hwinner,hpeers _ hne,hpeer] at hpeer'
        obtain rfl := Option.some.inj hpeer'
        rw [heq,heq',outcome_adopt,outcome_adopt,hwinner]
      · exact absurd (hwinner.symm.trans hown) hne
    · rcases outcome_electMaster config ht with ⟨peer',hne,-,-⟩ | ⟨-,heq'⟩
      · exact absurd (hwinner.trans hown) hne
      · have hmaster : t.electionState.isMaster config.ourAddress =
            s.electionState.isMaster config.ourAddress := by
          rw [Bool.eq_iff_iff,isMaster_iff hsync,isMaster_iff hsync',hsyncs]
        have hepoch : t.syncState.tsfEpochInUs = s.syncState.tsfEpochInUs :=
          congrArg Outcome.tsfEpoch hsame
        rw [heq,heq',hmaster]
        split_ifs with hm
        · exact hsame
        · simp only [outcome,hepoch]

/-- The elections after the frames come down to one. -/
theorem unaffected_iff_winner (hs : s.MasterConsistent config) {receptions : List Reception}
    (ht : (s.processSpoofed config receptions).MasterConsistent config)
    (hpeers : ∀ a, a ≠ config.ourAddress →
      (s.processSpoofed config receptions).peerCache.get a = s.peerCache.get a) :
    s.Unaffected config receptions ↔ (s.processSpoofed config receptions).outcome = s.outcome ∧
      (s.processSpoofed config receptions).peerCache.winner config.ourAddress =
        s.peerCache.winner config.ourAddress := by
  constructor
  · intro h
    have hsame := h 0
    refine ⟨hsame,(outcome_electMaster_eq_iff hs.counted ht.counted hs.syncPeer_isSome hpeers
      hsame).mp (h 1)⟩
  · rintro ⟨hsame,hwinner⟩ n
    cases n with
    | zero => exact hsame
    | succ n =>
      rw [iterate_electMaster hs.counted,iterate_electMaster ht.counted]
      exact (outcome_electMaster_eq_iff hs.counted ht.counted hs.syncPeer_isSome hpeers
        hsame).mpr hwinner

end Elections

/-! ## The frames -/

section Frames
variable {config s} {peer : AwdlPeer} {transmitter : Address} {r : Reception}
  {receptions behind : List Reception}

theorem processActionFrame_cached (config : SessionConfig) (r : Reception)
    (hpeer : s.peerCache.get transmitter = some peer)
    (hsync : s.electionState.syncPeer.isSome) :
    let p := (peer.update r.frame r.rxTimestamp r.now).1
    let t := s.processActionFrame config transmitter r.frame r.rxTimestamp r.now
    t.peerCache = s.peerCache.set transmitter p ∧
    t.outcome = if s.electionState.syncPeer = some transmitter then outcomeFollowing transmitter p
      else s.outcome := by
  intro p t
  obtain ⟨queue,hqueue⟩ := ite_raiseUserEvent_eq config
    { s with peerCache := s.peerCache.set transmitter p }
    (.discoveredServiceForPeer transmitter p.airdropPort p.airplayPort)
    (peer.update r.frame r.rxTimestamp r.now).2
  have ht : t = if s.electionState.isMaster transmitter then
      CommonResources.adoptPeerAsMaster { s with
        peerCache := s.peerCache.set transmitter p
        eventQueue := queue } transmitter p
      else { s with peerCache := s.peerCache.set transmitter p, eventQueue := queue } := by
    simp only [t,processActionFrame,hpeer]
    simp only [p] at hqueue
    rw [hqueue]
  rw [ht]
  by_cases hm : s.electionState.syncPeer = some transmitter
  · rw [if_pos ((isMaster_iff hsync).mpr hm),if_pos hm]
    exact ⟨rfl,rfl⟩
  · rw [if_neg (fun h => hm ((isMaster_iff hsync).mp h)),if_neg hm]
    exact ⟨rfl,rfl⟩

/-- All frames of an entry: the last state of it is cached, and followed by a node that is
its own master. -/
theorem processSpoofed_cached (receptions : List Reception)
    (hpeer : s.peerCache.get config.ourAddress = some peer)
    (hsync : s.electionState.syncPeer.isSome) :
    (s.processSpoofed config receptions).peerCache =
      s.peerCache.set config.ourAddress (peer.updates receptions) ∧
    (s.processSpoofed config receptions).outcome =
      if receptions ≠ [] ∧ s.electionState.syncPeer = some config.ourAddress then
        outcomeFollowing config.ourAddress (peer.updates receptions)
      else s.outcome := by
  induction receptions generalizing s peer with
  | nil =>
    refine ⟨(PeerCache.set_get hpeer).symm,?_⟩
    rw [if_neg (fun h => h.1 rfl)]
    rfl
  | cons r receptions ih =>
    obtain ⟨hcache,houtcome⟩ := processActionFrame_cached config r hpeer hsync
    generalize ht : s.processActionFrame config config.ourAddress r.frame r.rxTimestamp r.now = t
      at hcache houtcome
    have hsyncs : t.electionState.syncPeer = s.electionState.syncPeer := by
      have h := congrArg Outcome.syncPeer houtcome
      split_ifs at h with hm
      · exact h.trans hm.symm
      · exact h
    have hpeer' : t.peerCache.get config.ourAddress =
        some (peer.update r.frame r.rxTimestamp r.now).1 := by
      rw [hcache]
      exact PeerCache.get_set_self (hpeer ▸ rfl)
    obtain ⟨hcache',houtcome'⟩ := ih hpeer' (hsyncs ▸ hsync)
    have hrun : s.processSpoofed config (r :: receptions) = t.processSpoofed config receptions := by
      rw [processSpoofed,List.foldl_cons,ht]
      rfl
    rw [hrun]
    constructor
    · rw [hcache',hcache,PeerCache.set_set]
      rfl
    · rw [houtcome',hsyncs,houtcome]
      by_cases hm : s.electionState.syncPeer = some config.ourAddress
      · rw [if_pos hm]
        refine Eq.trans ?_ (if_pos ⟨List.cons_ne_nil r receptions,hm⟩).symm
        cases receptions with
        | nil => rfl
        | cons r' receptions => exact if_pos ⟨List.cons_ne_nil _ _,hm⟩
      · simp only [hm,and_false,if_false]

theorem masterConsistent_processSpoofed (h : s.MasterConsistent config) :
    (s.processSpoofed config receptions).MasterConsistent config := by
  induction receptions generalizing s with
  | nil => exact h
  | cons r receptions ih =>
    have hstep : Step config s
        (.processActionFrame config.ourAddress r.frame r.rxTimestamp r.now)
        (s.processActionFrame config config.ourAddress r.frame r.rxTimestamp r.now) := rfl
    exact ih (masterConsistent_step h hstep)

theorem processSpoofed_skip (behind : List Reception)
    (hnone : s.peerCache.get config.ourAddress = none)
    (h : ∀ r ∈ receptions, AwdlPeer.newWithActionFrame r.frame r.rxTimestamp r.now = none) :
    s.processSpoofed config (receptions ++ behind) = s.processSpoofed config behind := by
  induction receptions with
  | nil => rfl
  | cons r receptions ih =>
    have hr : s.processActionFrame config config.ourAddress r.frame r.rxTimestamp r.now = s := by
      simp only [processActionFrame,hnone,h r List.mem_cons_self]
      exact ite_self s
    rw [List.cons_append,processSpoofed,List.foldl_cons,hr]
    exact ih (fun r hr => h r (List.mem_cons_of_mem _ hr))

theorem processSpoofed_full (hnone : s.peerCache.get config.ourAddress = none)
    (hfull : s.peerCache.isFull config.implementation = true) :
    s.processSpoofed config receptions = s := by
  induction receptions with
  | nil => rfl
  | cons r receptions ih =>
    have hr : s.processActionFrame config config.ourAddress r.frame r.rxTimestamp r.now = s := by
      simp only [processActionFrame,hnone]
      rw [if_pos hfull]
    rw [processSpoofed,List.foldl_cons,hr]
    exact ih

theorem unaffected_of_eq (h : s.processSpoofed config receptions = s) :
    s.Unaffected config receptions := by
  intro n
  rw [h]

/-- Frames of an entry that is cached. -/
theorem unaffected_cached_iff (hs : s.MasterConsistent config)
    (hpeer : s.peerCache.get config.ourAddress = some peer) :
    s.Unaffected config receptions ↔
      receptions = [] ∨ s.UpdateHarmless config peer receptions := by
  by_cases hnil : receptions = []
  · subst hnil
    exact iff_of_true (unaffected_of_eq rfl) (.inl rfl)
  rw [or_iff_right hnil]
  obtain ⟨hcache,houtcome⟩ := processSpoofed_cached receptions hpeer
    hs.syncPeer_isSome
  rw [unaffected_iff_winner hs (masterConsistent_processSpoofed hs),hcache,houtcome,UpdateHarmless]
  · refine and_congr_left' ?_
    by_cases hm : s.electionState.syncPeer = some config.ourAddress
    · rw [if_pos ⟨hnil,hm⟩,eq_comm,outcome_eq_following_iff,and_iff_right hm]
      exact ⟨fun h _ => h,fun h => h hm⟩
    · rw [if_neg (fun h => hm h.2)]
      exact iff_of_true rfl (fun h => absurd h hm)
  · intro a ha
    rw [hcache]
    exact PeerCache.get_set_of_ne ha

/-- The election for a new entry keeps the outcome exactly if it ends with whom the node
follows already. -/
theorem outcome_insert_iff (peer : AwdlPeer) (hs : s.MasterConsistent config)
    (hnone : s.peerCache.get config.ourAddress = none) (queue : List AwdlEvent) :
    let t := CommonResources.electMaster config { s with
      peerCache := s.peerCache.insert config.implementation config.ourAddress peer
      eventQueue := queue }
    t.outcome = s.outcome ↔ s.electionState.syncPeer =
      some ((s.peerCache.insert config.implementation config.ourAddress peer).winner
        config.ourAddress) := by
  intro t
  have hcounted : Counted { s with
      peerCache := s.peerCache.insert config.implementation config.ourAddress peer
      eventQueue := queue } := hs.counted.congr rfl
  constructor
  · intro h
    have hsync := congrArg Outcome.syncPeer h
    exact hsync.symm.trans (syncPeer_electMaster hcounted hs.syncPeer_isSome)
  · intro hsync
    rcases outcome_electMaster config hcounted with ⟨other,hne,hother,heq⟩ | ⟨hown,heq⟩
    · -- the entry that is followed is not the new one
      obtain ⟨p,hp,hfollows⟩ := hs.follows
      have hwinner := Option.some.inj (hp.symm.trans hsync)
      obtain ⟨peer',hpeer',hf⟩ := hfollows (hwinner ▸ hne)
      have hsame : other = peer' := by
        rw [PeerCache.get_insert_of_ne hnone hne,← hwinner,hpeer'] at hother
        exact (Option.some.inj hother).symm
      rw [hsame] at heq
      exact (congrArg outcome heq).trans (outcome_eq_following_iff.mpr ⟨hsync,hf⟩).symm
    · have hm : s.electionState.isMaster config.ourAddress = true := by
        rw [isMaster_iff hs.syncPeer_isSome,hsync]
        exact congrArg some hown
      simp only [hm,if_true] at heq
      have houtcome := congrArg outcome heq
      exact houtcome

/-- Frames of which one makes an entry. -/
theorem unaffected_insert_iff (hs : s.MasterConsistent config)
    (hnone : s.peerCache.get config.ourAddress = none)
    (hfull : s.peerCache.isFull config.implementation = false)
    (h : ∀ r ∈ receptions, AwdlPeer.newWithActionFrame r.frame r.rxTimestamp r.now = none)
    (hnew : AwdlPeer.newWithActionFrame r.frame r.rxTimestamp r.now = some peer) :
    s.Unaffected config (receptions ++ r :: behind) ↔ s.InsertionHarmless config peer behind := by
  obtain ⟨queue,hqueue⟩ := raiseUserEvent_eq config s (.peerDiscovered config.ourAddress)
  generalize ht : CommonResources.electMaster config { s with
    peerCache := s.peerCache.insert config.implementation config.ourAddress peer
    eventQueue := queue } = t
  have hcounted : Counted { s with
      peerCache := s.peerCache.insert config.implementation config.ourAddress peer
      eventQueue := queue } := hs.counted.congr rfl
  have hrun : s.processSpoofed config (receptions ++ r :: behind) =
      t.processSpoofed config behind := by
    rw [processSpoofed_skip (r :: behind) hnone h,processSpoofed,List.foldl_cons]
    simp only [processActionFrame,hnone,hfull,hnew,hqueue,Bool.false_eq_true,if_false,ht]
    rfl
  have hcache : t.peerCache =
      s.peerCache.insert config.implementation config.ourAddress peer := by
    rw [← ht]
    rcases outcome_electMaster config hcounted with ⟨other,-,-,heq⟩ | ⟨-,heq⟩
    · rw [heq]
      rfl
    · rw [heq]
      split_ifs <;> rfl
  have hsync : t.electionState.syncPeer = some ((s.peerCache.insert config.implementation
      config.ourAddress peer).winner config.ourAddress) := by
    rw [← ht]
    exact syncPeer_electMaster hcounted hs.syncPeer_isSome
  have hpeer : t.peerCache.get config.ourAddress = some peer := by
    rw [hcache]
    exact PeerCache.get_insert_self hnone
  have houtcome := outcome_insert_iff peer hs hnone queue
  simp only [ht] at houtcome
  obtain ⟨hcache',houtcome'⟩ := processSpoofed_cached behind hpeer
    (by rw [hsync]; rfl)
  rw [hcache,PeerCache.set_insert hnone] at hcache'
  rw [unaffected_iff_winner hs (masterConsistent_processSpoofed hs),hrun,hcache',houtcome',
    InsertionHarmless,← and_assoc]
  · refine and_congr_left' ?_
    by_cases hm : behind ≠ [] ∧ t.electionState.syncPeer = some config.ourAddress
    · have hour := Option.some.inj (hsync.symm.trans hm.2)
      rw [if_pos hm,eq_comm,outcome_eq_following_iff,hour]
      constructor
      · rintro ⟨hp,hf⟩
        exact ⟨hp,fun _ _ => hf⟩
      · rintro ⟨hp,hf⟩
        exact ⟨hp,hf hm.1 hp⟩
    · rw [if_neg hm,houtcome]
      refine ⟨fun hp => ⟨hp,fun hne hour => ?_⟩,And.left⟩
      exact absurd ⟨hne,hsync.trans (hp.symm.trans hour)⟩ hm
  · intro a ha
    rw [hrun,hcache']
    exact PeerCache.get_insert_of_ne hnone ha

/-- The frames before the first one that makes an entry. -/
theorem exists_first_new (receptions : List Reception) :
    (∀ r ∈ receptions, AwdlPeer.newWithActionFrame r.frame r.rxTimestamp r.now = none) ∨
    ∃ before r behind peer, receptions = before ++ r :: behind ∧
      (∀ r ∈ before, AwdlPeer.newWithActionFrame r.frame r.rxTimestamp r.now = none) ∧
      AwdlPeer.newWithActionFrame r.frame r.rxTimestamp r.now = some peer := by
  induction receptions with
  | nil => exact .inl (by rintro _ ⟨⟩)
  | cons r receptions ih =>
    cases hnew : AwdlPeer.newWithActionFrame r.frame r.rxTimestamp r.now with
    | some peer => exact .inr ⟨[],r,receptions,peer,rfl,by rintro _ ⟨⟩,hnew⟩
    | none =>
      rcases ih with hall | ⟨before,r',behind,peer,rfl,hbefore,hpeer⟩
      · exact .inl (List.forall_mem_cons.mpr ⟨hnew,hall⟩)
      · exact .inr ⟨r :: before,r',behind,peer,rfl,List.forall_mem_cons.mpr ⟨hnew,hbefore⟩,hpeer⟩

/-- A frame that claims any address, with a root four hops away. -/
def strangerFrame : Reception where
  frame :=
    { channelSequence := some (.simple (fun _ => 6))
      synchronizationParameters :=
        some (SynchronizationState.generateTlv ⟨fun _ => 6,0⟩ (fun _ => 3) 0 5000)
      txDelta := 0
      electionParametersV2 := none
      electionParameters := some ⟨70,4,fun _ => 4,90⟩
      serviceResponses := [] }
  rxTimestamp := 5000
  now := 5000

end Frames

end CommonResources

end FerrisOnAir.Awdl

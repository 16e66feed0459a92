import FerrisOnAir.Foundation.FirstSeen
import FerrisOnAir.Sta.Bss
import FerrisOnAir.Util.ScanCallback

/-! # Looking for networks

The scans of `foa_sta/src/operations/scan.rs`, which differ in their callbacks: one looks for an
SSID, one fills a list, and one reports every BSS that it finds. The order in which a `BTreeMap`
keeps its entries is not modelled.
-/
namespace FerrisOnAir.Sta.Beacon
open Lmac Rsn Util
variable {n : ℕ} {F G O : Type*} {capacity : ℕ∞}

/-- What the station passes to `scan`, and what the frames parse to. -/
structure StaScan (n : ℕ) (F G O : Type*) where
  scan : Scan n F G O
  parse : F → Option BeaconFrame
  isBeacon_eq : ∀ frame, scan.isBeacon frame = (parse frame).isSome

/-- The errors of a scan. -/
inductive ScanError
  | unableToFindEss
  | lmacError (error : LMacError)
deriving DecidableEq

abbrev BssList (capacity : ℕ∞) := IndexMap (Bytes 6) BSS capacity

def searchCallback (ssid : String) (captured : Unit) (beaconFrame : BeaconFrame) :
    PostChannelScanAction BSS × Unit :=
  if beaconFrame.ssid ≠ some ssid then (.continueScan,captured)
  else match BSS.fromBeaconLike beaconFrame with
    | none => (.continueScan,captured)
    | some bss => (.stop bss,captured)

def enumerateCallback (bssList : BssList capacity) (beaconFrame : BeaconFrame) :
    PostChannelScanAction Unit × BssList capacity :=
  if bssList.containsKey beaconFrame.bssid then (.continueScan,bssList)
  else if bssList.isFull then (.stop (),bssList)
  else match BSS.fromBeaconLike beaconFrame with
    | none => (.continueScan,bssList)
    | some bss => (.continueScan,bssList.insertNew beaconFrame.bssid bss)

/-- The list of a continuous scan, and what its user was told. -/
structure FoundBss where
  bssList : BssList ⊤
  reported : List BSS

def continuousCallback (bssFoundCb : BSS → Bool) (found : FoundBss) (beaconFrame : BeaconFrame) :
    PostChannelScanAction Unit × FoundBss :=
  if found.bssList.containsKey beaconFrame.bssid then (.continueScan,found)
  else match BSS.fromBeaconLike beaconFrame with
    | none => (.continueScan,found)
    | some bss => (if bssFoundCb bss then .continueScan else .stop (),
      ⟨found.bssList.insertNew beaconFrame.bssid bss,found.reported ++ [bss]⟩)

namespace StaScan
variable (k : StaScan n F G O)

def searchForBss (ssid : String) : CallbackScan n F G O BeaconFrame Unit BSS where
  scan := { k.scan with continuous := false }
  parse := k.parse
  isBeacon_eq := k.isBeacon_eq
  callback := searchCallback ssid

def enumerateBss (capacity : ℕ∞) : CallbackScan n F G O BeaconFrame (BssList capacity) Unit where
  scan := { k.scan with continuous := false }
  parse := k.parse
  isBeacon_eq := k.isBeacon_eq
  callback := enumerateCallback

def scanContinuously (bssFoundCb : BSS → Bool) :
    CallbackScan n F G O BeaconFrame FoundBss Unit where
  scan := { k.scan with continuous := true }
  parse := k.parse
  isBeacon_eq := k.isBeacon_eq
  callback := continuousCallback bssFoundCb

/-- What `search_for_bss` makes of the result of the scan. -/
def searchResult : Except LMacError (Option BSS) → Except ScanError BSS
  | .ok (some bss) => .ok bss
  | .ok none => .error .unableToFindEss
  | .error error => .error (.lmacError error)

/-- What the other two make of it. -/
def listResult : Except LMacError (Option Unit) → Except ScanError Unit
  | .ok _ => .ok ()
  | .error error => .error (.lmacError error)

end StaScan

/-- The BSS of a beacon with the SSID that is looked for. -/
def matchingBss (ssid : String) (beaconFrame : BeaconFrame) : Option BSS :=
  if beaconFrame.ssid = some ssid then BSS.fromBeaconLike beaconFrame else none

section Search
variable {ssid : String} {beacons : List BeaconFrame} {beacon : BeaconFrame} {bss : BSS}

theorem searchCallback_continue_iff {u : Unit} :
    (searchCallback ssid u beacon).1 = .continueScan ↔ matchingBss ssid beacon = none := by
  unfold searchCallback matchingBss
  by_cases hssid : beacon.ssid = some ssid
  · rw [if_neg (not_not_intro hssid),if_pos hssid]
    cases BSS.fromBeaconLike beacon with
    | none => simp
    | some bss => simp
  · rw [if_pos hssid,if_neg hssid]
    simp

theorem searchCallback_stop_iff {u : Unit} :
    (searchCallback ssid u beacon).1 = .stop bss ↔ matchingBss ssid beacon = some bss := by
  unfold searchCallback matchingBss
  by_cases hssid : beacon.ssid = some ssid
  · rw [if_neg (not_not_intro hssid),if_pos hssid]
    cases BSS.fromBeaconLike beacon with
    | none => simp
    | some bss => simp
  · rw [if_pos hssid,if_neg hssid]
    simp

/-- The search goes on as long as no beacon matches. -/
theorem search_continued_iff {u : Unit} : Continued (replies (searchCallback ssid) u beacons) ↔
    beacons.findSome? (matchingBss ssid) = none := by
  induction beacons with
  | nil => simp [Continued,replies]
  | cons beacon beacons ih =>
    rw [List.findSome?_eq_none_iff] at ih ⊢
    rw [List.forall_mem_cons,← searchCallback_continue_iff (u := u)]
    exact List.forall_mem_cons.trans (and_congr_right fun _ => ih)

/-- What a match says. -/
theorem matchingBss_eq_some_iff : matchingBss ssid beacon = some bss ↔
    beacon.ssid = some ssid ∧ ∃ channel, beacon.currentChannel = some channel ∧
      bss = ⟨.pushStr ssid,channel,beacon.bssid,beacon.rssi,.fromBeaconLike beacon.rsn⟩ := by
  unfold matchingBss BSS.fromBeaconLike
  by_cases hssid : beacon.ssid = some ssid
  · rw [if_pos hssid,hssid,Option.bind_some,Option.map_eq_some_iff]
    simp [eq_comm]
  · rw [if_neg hssid]
    simp [hssid]

end Search
section Runs
variable {k : StaScan n F G O} {channelState : ChannelState n} {scanningMode : ScanningMode}
  {router : RxRouter F O} {ssid : String}

theorem search_found {s : CallbackSystem n F O BeaconFrame Unit BSS} {bss : BSS}
    (hs : (k.searchForBss ssid).Consistent () s)
    (hphase : s.system.phase = .returned (.ok (some bss))) :
    s.heard.findSome? (matchingBss ssid) = some bss ∧
      ∃ beacon, s.heard.getLast? = some beacon ∧ matchingBss ssid beacon = some bss := by
  obtain ⟨before,beacon,hheard,hbefore,hlast⟩ := (hs.outcome rfl).1 bss hphase
  have hmatch := searchCallback_stop_iff.mp hlast
  refine ⟨?_,beacon,?_,hmatch⟩
  · rw [hheard,List.findSome?_append,search_continued_iff.mp hbefore,Option.none_or,
      List.findSome?_singleton,hmatch]
  · rw [hheard,List.getLast?_concat]

theorem search_phase {s : CallbackSystem n F O BeaconFrame Unit BSS} {bss : BSS}
    (hs : (k.searchForBss ssid).Consistent () s)
    (hsome : s.heard.findSome? (matchingBss ssid) = some bss) :
    s.system.phase = .returned (.ok (some bss)) := by
  by_cases hfound : ∃ bss', s.system.phase = .returned (.ok (some bss'))
  · obtain ⟨bss',hphase⟩ := hfound
    have hsome' := (search_found hs hphase).1
    rw [hphase,Option.some.inj (hsome.symm.trans hsome')]
  · have hgoes := (hs.outcome rfl).2 (fun bss' hphase => hfound ⟨bss',hphase⟩)
    rw [search_continued_iff.mp hgoes] at hsome
    cases hsome

/-- In every run a search ends with a BSS exactly if a beacon with the SSID was heard that
says its channel. It is the first such beacon and the last that was heard, and the BSS is that
of the beacon. A search that does not find the network has been on every channel. -/
theorem search_of_runs {ops : List (CallbackOp n F O BSS)}
    {s : CallbackSystem n F O BeaconFrame Unit BSS}
    (hr : Runs (k.searchForBss ssid).Step
      ((k.searchForBss ssid).new () channelState scanningMode router) ops s) :
    (∀ bss, (∃ result, s.system.phase = .returned result ∧ StaScan.searchResult result = .ok bss) ↔
      s.heard.findSome? (matchingBss ssid) = some bss) ∧
    (∀ bss, s.heard.findSome? (matchingBss ssid) = some bss → ∃ beacon channel,
      s.heard.getLast? = some beacon ∧ beacon.ssid = some ssid ∧
      beacon.currentChannel = some channel ∧
      bss = ⟨.pushStr ssid,channel,beacon.bssid,beacon.rssi,.fromBeaconLike beacon.rsn⟩) ∧
    (∀ result, s.system.phase = .returned result →
      StaScan.searchResult result = .error .unableToFindEss →
      s.system.tuned = s.system.channels) := by
  have hs := CallbackScan.consistent_of_runs hr
  refine ⟨fun bss => ⟨?_,fun hsome => ⟨_,search_phase hs hsome,rfl⟩⟩,?_,?_⟩
  · rintro ⟨result,hreturned,hresult⟩
    have hok : result = .ok (some bss) := by
      unfold StaScan.searchResult at hresult
      split at hresult
      · cases hresult
        rfl
      · cases hresult
      · cases hresult
    rw [hok] at hreturned
    exact (search_found hs hreturned).1
  · intro bss hsome
    obtain ⟨-,beacon,hlast,hmatch⟩ := search_found hs (search_phase hs hsome)
    obtain ⟨hssid,channel,hchannel,hbss⟩ := matchingBss_eq_some_iff.mp hmatch
    exact ⟨beacon,channel,hlast,hssid,hchannel,hbss⟩
  · intro result hreturned hresult
    refine hs.replied.swept rfl ?_
    rw [hreturned]
    unfold StaScan.searchResult at hresult
    split at hresult
    · cases hresult
    · rfl
    · cases hresult

end Runs
section Lists
variable {bssList : BssList capacity} {beacons : List BeaconFrame} {beacon : BeaconFrame}

theorem enumerateCallback_stop_iff : (enumerateCallback bssList beacon).1 = .stop () ↔
    bssList.containsKey beacon.bssid = false ∧ bssList.isFull = true := by
  unfold enumerateCallback
  cases bssList.containsKey beacon.bssid with
  | true => simp
  | false =>
    cases bssList.isFull with
    | true => simp
    | false =>
      cases BSS.fromBeaconLike beacon with
      | none => simp
      | some bss => simp

/-- A beacon that stops the scan leaves the list as it is. -/
theorem enumerateCallback_of_stop (h : (enumerateCallback bssList beacon).1 = .stop ()) :
    (enumerateCallback bssList beacon).2 = bssList := by
  obtain ⟨hnew,hfull⟩ := enumerateCallback_stop_iff.mp h
  simp [enumerateCallback,hnew,hfull]

theorem enumerate_collected (h : Continued (replies enumerateCallback bssList beacons)) :
    IndexMap.Collected BeaconFrame.bssid BSS.fromBeaconLike bssList
      (capturedAfter enumerateCallback bssList beacons) beacons := by
  induction beacons using List.reverseRecOn with
  | nil => exact .refl _
  | append_singleton beacons beacon ih =>
    rw [replies_concat] at h
    have hcollected := ih (fun action haction => h action (List.mem_append_left _ haction))
    have hgoes := h _ (List.mem_append_right _ (List.mem_singleton_self _))
    rw [capturedAfter_concat]
    unfold enumerateCallback at hgoes ⊢
    split
    · rename_i hthere
      exact hcollected.skip (Or.inl hthere)
    · rename_i hnew
      rw [if_neg hnew] at hgoes
      split
      · rename_i hfull
        rw [if_pos hfull] at hgoes
        cases hgoes
      · rename_i hroom
        split
        · rename_i hnone
          exact hcollected.skip (Or.inr hnone)
        · rename_i bss hbss
          exact hcollected.insertNew (Bool.not_eq_true _ ▸ hnew) (Bool.not_eq_true _ ▸ hroom) hbss

theorem continuous_collected (bssFoundCb : BSS → Bool) (found : FoundBss)
    (beacons : List BeaconFrame) :
    IndexMap.Collected BeaconFrame.bssid BSS.fromBeaconLike found.bssList
      (capturedAfter (continuousCallback bssFoundCb) found beacons).bssList beacons ∧
    ∃ reported, (capturedAfter (continuousCallback bssFoundCb) found beacons).reported =
        found.reported ++ reported ∧
      (capturedAfter (continuousCallback bssFoundCb) found beacons).bssList.entries =
        found.bssList.entries ++ reported.map (fun bss => (bss.bssid,bss)) := by
  induction beacons using List.reverseRecOn with
  | nil => exact ⟨.refl _,[],(List.append_nil _).symm,(List.append_nil _).symm⟩
  | append_singleton beacons beacon ih =>
    obtain ⟨hcollected,reported,hreported,hentries⟩ := ih
    rw [capturedAfter_concat]
    unfold continuousCallback
    split
    · rename_i hthere
      exact ⟨hcollected.skip (Or.inl hthere),reported,hreported,hentries⟩
    · rename_i hnew
      have hnew' := Bool.not_eq_true _ ▸ hnew
      split
      · rename_i hnone
        exact ⟨hcollected.skip (Or.inr hnone),reported,hreported,hentries⟩
      · rename_i bss hbss
        refine ⟨hcollected.insertNew hnew' (IndexMap.isFull_top _) hbss,reported ++ [bss],?_,?_⟩
        · rw [← List.append_assoc]
          exact congrArg (· ++ [bss]) hreported
        · refine (IndexMap.insertNew_entries hnew' (IndexMap.isFull_top _)).trans ?_
          rw [List.map_append,← List.append_assoc,List.map_singleton,BSS.fromBeaconLike_bssid hbss]
          exact congrArg (· ++ [(beacon.bssid,bss)]) hentries

end Lists
section Runs
variable {k : StaScan n F G O} {channelState : ChannelState n} {scanningMode : ScanningMode}
  {router : RxRouter F O} {bssList : BssList capacity}

/-- In every run a list that is filled holds each BSS as it was first heard, behind what it held
before. It stops at a beacon of a BSS that is new when the list is full, and has then taken all
before it. So unless the list is full, a scan that returns has been on every channel and the
list holds every BSS that was heard. -/
theorem enumerate_of_runs {ops : List (CallbackOp n F O Unit)}
    {s : CallbackSystem n F O BeaconFrame (BssList capacity) Unit}
    (hr : Runs (k.enumerateBss capacity).Step
      ((k.enumerateBss capacity).new bssList channelState scanningMode router) ops s) :
    (s.system.phase ≠ .returned (.ok (some ())) →
      IndexMap.Collected BeaconFrame.bssid BSS.fromBeaconLike bssList s.captured s.heard) ∧
    (s.system.phase = .returned (.ok (some ())) → ∃ before beacon, s.heard = before ++ [beacon] ∧
      IndexMap.Collected BeaconFrame.bssid BSS.fromBeaconLike bssList s.captured before ∧
      s.captured.containsKey beacon.bssid = false ∧ s.captured.isFull = true) ∧
    (∀ result, s.system.phase = .returned result → StaScan.listResult result = .ok () →
      s.captured.isFull = false → s.system.tuned = s.system.channels ∧
        ∀ bssid, s.captured.containsKey bssid = true ↔ bssList.containsKey bssid = true ∨
          ∃ beacon ∈ s.heard, beacon.bssid = bssid ∧ (BSS.fromBeaconLike beacon).isSome) := by
  have hs := CallbackScan.consistent_of_runs hr
  obtain ⟨hstopped,hcontinued⟩ := hs.outcome rfl
  have hcollected : s.system.phase ≠ .returned (.ok (some ())) →
      IndexMap.Collected BeaconFrame.bssid BSS.fromBeaconLike bssList s.captured s.heard := by
    intro hne
    rw [hs.captured]
    exact enumerate_collected (hcontinued (fun _ => hne))
  have hfull : s.system.phase = .returned (.ok (some ())) → ∃ before beacon,
      s.heard = before ++ [beacon] ∧
      IndexMap.Collected BeaconFrame.bssid BSS.fromBeaconLike bssList s.captured before ∧
      s.captured.containsKey beacon.bssid = false ∧ s.captured.isFull = true := by
    intro hphase
    obtain ⟨before,beacon,hheard,hbefore,hstop⟩ := hstopped () hphase
    have hcaptured : s.captured = capturedAfter enumerateCallback bssList before := by
      rw [hs.captured,hheard,capturedAfter_concat]
      exact enumerateCallback_of_stop hstop
    rw [hcaptured]
    exact ⟨before,beacon,hheard,enumerate_collected hbefore,enumerateCallback_stop_iff.mp hstop⟩
  refine ⟨hcollected,hfull,?_⟩
  intro result hreturned hresult hroom
  cases result with
  | error e => cases hresult
  | ok res =>
    cases res with
    | some u =>
      obtain ⟨-,-,-,-,-,hisFull⟩ := hfull hreturned
      rw [hroom] at hisFull
      cases hisFull
    | none =>
      have hne : s.system.phase ≠ .returned (.ok (some ())) := by
        rw [hreturned]
        exact fun h => by cases h
      exact ⟨hs.replied.swept rfl hreturned,fun bssid => (hcollected hne).containsKey_iff⟩

/-- In every run a continuous scan reports each BSS that it hears and that is not in the list
once, at its first beacon that is complete, and puts it behind the others. Whatever is replied
to the reports, the scan does not return but by an error. -/
theorem scanContinuously_of_runs {bssFoundCb : BSS → Bool} {bssList : BssList ⊤}
    {ops : List (CallbackOp n F O Unit)} {s : CallbackSystem n F O BeaconFrame FoundBss Unit}
    (hr : Runs (k.scanContinuously bssFoundCb).Step
      ((k.scanContinuously bssFoundCb).new ⟨bssList,[]⟩ channelState scanningMode router) ops s) :
    IndexMap.Collected BeaconFrame.bssid BSS.fromBeaconLike bssList s.captured.bssList s.heard ∧
    s.captured.bssList.entries =
      bssList.entries ++ s.captured.reported.map (fun bss => (bss.bssid,bss)) ∧
    (s.captured.reported.map BSS.bssid).Nodup ∧
    (∀ bss ∈ s.captured.reported, bssList.containsKey bss.bssid = false) ∧
    ∀ result, s.system.phase = .returned result → StaScan.listResult result ≠ .ok () := by
  have hs := CallbackScan.consistent_of_runs hr
  obtain ⟨hcollected,reported,hreported,hentries⟩ :=
    continuous_collected bssFoundCb ⟨bssList,[]⟩ s.heard
  change (k.scanContinuously bssFoundCb).Consistent ⟨bssList,[]⟩ s at hs
  have hcaptured : s.captured =
      capturedAfter (continuousCallback bssFoundCb) ⟨bssList,[]⟩ s.heard := hs.captured
  rw [← hcaptured] at hcollected hreported hentries
  rw [List.nil_append] at hreported
  rw [← hreported] at hentries
  have hnodup := s.captured.bssList.nodup
  rw [hentries,List.map_append,List.map_map] at hnodup
  obtain ⟨-,hdistinct,hdisjoint⟩ := List.nodup_append.mp hnodup
  refine ⟨hcollected,hentries,hdistinct,?_,?_⟩
  · intro bss hbss
    refine Bool.eq_false_iff.mpr fun hthere => ?_
    exact hdisjoint _ (IndexMap.containsKey_iff.mp hthere) _
      (List.mem_map_of_mem (f := Prod.fst ∘ fun bss => (bss.bssid,bss)) hbss) rfl
  · rintro result hphase hok
    cases result with
    | error e => cases hok
    | ok res => exact hs.replied.endless rfl res hphase

end Runs
section TwoNetworks

/-- Interface 0 scans the channels 1 and 11, and every frame is a beacon. -/
def twoChannels : StaScan 2 BeaconFrame Unit Unit where
  scan :=
    { valid := fun channel => decide (1 ≤ channel ∧ channel ≤ 14)
      interface := ⟨0,Nat.zero_lt_two⟩
      endpoint := .foreground
      routerConfig :=
        { concurrentOperationsSupported := false
          frameRelevantForOperation := fun _ _ => true
          compatibleWith := fun _ _ => false
          genericFrame := fun _ => some ()
          queueDepth := 4 }
      scanOperation := ()
      isBeacon := fun _ => true
      strategy := some (.custom [1,11])
      continuous := false }
  parse := some
  isBeacon_eq _ := rfl

def network (octet : UInt8) (ssid : String) (channel : UInt8) : BeaconFrame where
  bssid _ := octet
  ssid := some ssid
  currentChannel := some channel
  rsn := none
  rssi := 0

/-- The network is heard on channel 1 behind another one, and says that it is on channel 2. -/
theorem search_of_runs_second : ∃ s : CallbackSystem 2 BeaconFrame Unit BeaconFrame Unit BSS,
    s.heard = [network 3 "a" 1,network 4 "b" 2] ∧ s.system.tuned = [1] ∧
    ∃ result, s.system.phase = .returned result ∧ StaScan.searchResult result =
      .ok ⟨.pushStr "b",2,fun _ => 4,0,.openNetwork⟩ := by
  have hr : Runs (twoChannels.searchForBss "b").Step
      ((twoChannels.searchForBss "b").new () ⟨none,none,6⟩ .disabled .new)
      [.scan .beginOperation,.scan (.routeFrame (network 3 "a" 1)),.receive,
        .scan (.routeFrame (network 4 "b" 2)),.receive] _ :=
    .step rfl (.step rfl (.step rfl (.step rfl (.step rfl (.refl _)))))
  refine ⟨_,rfl,rfl,((search_of_runs hr).1 _).mpr ?_⟩
  change matchingBss "b" (network 4 "b" 2) = _
  exact matchingBss_eq_some_iff.mpr ⟨rfl,2,rfl,rfl⟩

/-- A list for one BSS is full with the first network and stops at the second. -/
theorem enumerate_of_runs_full : ∃ s : CallbackSystem 2 BeaconFrame Unit BeaconFrame
      (BssList 1) Unit,
    s.heard = [network 3 "a" 1,network 3 "c" 1,network 4 "b" 2] ∧
    ∃ before beacon, s.heard = before ++ [beacon] ∧
      IndexMap.Collected BeaconFrame.bssid BSS.fromBeaconLike ⟨[],List.nodup_nil,zero_le_one⟩
        s.captured before ∧
      s.captured.containsKey beacon.bssid = false ∧ s.captured.isFull = true := by
  have hr : Runs (twoChannels.enumerateBss 1).Step
      ((twoChannels.enumerateBss 1).new ⟨[],List.nodup_nil,zero_le_one⟩ ⟨none,none,6⟩ .disabled
        .new)
      [.scan .beginOperation,.scan (.routeFrame (network 3 "a" 1)),.receive,
        .scan (.routeFrame (network 3 "c" 1)),.scan .timeout,.receive,
        .scan (.routeFrame (network 4 "b" 2)),.receive] _ :=
    .step rfl (.step rfl (.step rfl (.step rfl (.step rfl (.step rfl (.step rfl (.step rfl
      (.refl _))))))))
  exact ⟨_,rfl,(enumerate_of_runs hr).2.1 rfl⟩

/-- The second network is not reported again, and the user's wish to stop at it has no effect. -/
theorem scanContinuously_of_runs_again : ∃ s : CallbackSystem 2 BeaconFrame Unit BeaconFrame
      FoundBss Unit,
    s.heard = [network 3 "a" 1,network 4 "b" 2,network 4 "b" 2] ∧ s.captured.reported.length = 2 ∧
    (s.captured.reported.map BSS.bssid).Nodup ∧
    ∀ result, s.system.phase = .returned result → StaScan.listResult result ≠ .ok () := by
  have hr : Runs (twoChannels.scanContinuously (fun bss => bss.channel == 1)).Step
      ((twoChannels.scanContinuously (fun bss => bss.channel == 1)).new
        ⟨⟨[],List.nodup_nil,zero_le⟩,[]⟩ ⟨none,none,6⟩ .disabled .new)
      [.scan .beginOperation,.scan (.routeFrame (network 3 "a" 1)),.receive,
        .scan (.routeFrame (network 4 "b" 2)),.receive,.scan (.routeFrame (network 4 "b" 2)),
        .receive] _ :=
    .step rfl (.step rfl (.step rfl (.step rfl (.step rfl (.step rfl (.step rfl (.refl _)))))))
  obtain ⟨-,-,hdistinct,-,hendless⟩ := scanContinuously_of_runs hr
  exact ⟨_,rfl,rfl,hdistinct,hendless⟩

end TwoNetworks

end FerrisOnAir.Sta.Beacon

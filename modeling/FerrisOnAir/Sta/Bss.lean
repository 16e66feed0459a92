import FerrisOnAir.Rsn.SecurityAssociation

/-! # What a beacon says of its BSS

`foa_sta/src/bss.rs`. The security configuration is derived from the RSN element through a
report of what its suite lists hold. Of the elements of a beacon those are here that are read:
the first SSID, the first DSSS parameter set and the first RSN element.
-/
namespace FerrisOnAir.Sta.Beacon
open Rsn

inductive CipherSuiteSelector
  | ccmp128
  | ccmp256
  | gcmp128
  | gcmp256
  | tkip
  | other (selector : UInt32)
deriving DecidableEq

inductive AkmType
  | opportunisticWirelessEncryption
  | psk
  | sae
  | other (akmSuite : UInt32)
deriving DecidableEq

inductive OptionalFeatureConfig
  | required
  | capable
  | unsupported
  | invalid
deriving DecidableEq

/-- An RSN element with the `mfp_config` of its capabilities. -/
structure RsnElement where
  groupDataCipherSuite : Option CipherSuiteSelector
  pairwiseCipherSuiteList : Option (List CipherSuiteSelector)
  akmList : Option (List AkmType)
  rsnCapabilities : Option OptionalFeatureConfig
deriving DecidableEq

structure RsnReport where
  groupCipher : CipherSuiteSelector
  ccmpPresent : Bool
  gcmpPresent : Bool
  tkipPresent : Bool
  owePresent : Bool
  saePresent : Bool
  pskPresent : Bool
  mfpRequired : Bool

structure Wpa2Config where
  mfpRequired : Bool
deriving DecidableEq

inductive SecurityConfig
  | openNetwork
  | wep
  | wpa
  | wpa2TransitionMode
  | wpa2 (config : Wpa2Config)
  | wpa3TransitionMode
  | wpa3
  | oweTransitionMode
  | owe
  | invalid
deriving DecidableEq

namespace RsnReport
variable (report : RsnReport)

def readCipher : CipherSuiteSelector → RsnReport
  | .ccmp128 => { report with ccmpPresent := true }
  | .ccmp256 => { report with ccmpPresent := true }
  | .gcmp128 => { report with gcmpPresent := true }
  | .gcmp256 => { report with gcmpPresent := true }
  | .tkip => { report with tkipPresent := true }
  | .other _ => report

def readAkm : AkmType → RsnReport
  | .opportunisticWirelessEncryption => { report with owePresent := true }
  | .psk => { report with pskPresent := true }
  | .sae => { report with saePresent := true }
  | .other _ => report

end RsnReport

namespace SecurityConfig

def mfpInvalid (rsn : RsnElement) : Bool := rsn.rsnCapabilities == some .invalid

def mfpRequired (rsn : RsnElement) : Bool := rsn.rsnCapabilities == some .required

def generateRsnReport (rsn : RsnElement) : Option RsnReport :=
  rsn.groupDataCipherSuite.bind fun groupCipher =>
    if mfpInvalid rsn then none
    else rsn.pairwiseCipherSuiteList.bind fun ciphers => rsn.akmList.map fun akms =>
      akms.foldl RsnReport.readAkm (ciphers.foldl RsnReport.readCipher
        ⟨groupCipher,false,false,false,false,false,false,mfpRequired rsn⟩)

/-- The decision on a report. -/
def ofReport (report : RsnReport) : SecurityConfig :=
  if report.groupCipher = .ccmp128 ∧ report.ccmpPresent = true then
    if report.owePresent then .owe
    else match report.pskPresent,report.saePresent with
      | true,true => .wpa3TransitionMode
      | true,false => .wpa2 ⟨report.mfpRequired⟩
      | false,true => .wpa3
      | false,false => .invalid
  else if report.groupCipher = .tkip ∧ report.tkipPresent = true then
    if report.ccmpPresent then .wpa2TransitionMode else .wpa
  else .invalid

def fromBeaconLike : Option RsnElement → SecurityConfig
  | none => .openNetwork
  | some rsn =>
    match generateRsnReport rsn with
    | none => .invalid
    | some report => ofReport report

end SecurityConfig

/-! ## What it stands for -/

namespace RsnElement
variable (rsn : RsnElement)

def Lists (cipher : CipherSuiteSelector) : Prop := ∃ ciphers ∈ rsn.pairwiseCipherSuiteList,
  cipher ∈ ciphers

def Accepts (akm : AkmType) : Prop := ∃ akms ∈ rsn.akmList, akm ∈ akms

def ListsCcmp : Prop := rsn.Lists .ccmp128 ∨ rsn.Lists .ccmp256

/-- Nothing that a report needs is missing. -/
def Complete : Prop := rsn.pairwiseCipherSuiteList.isSome ∧ rsn.akmList.isSome ∧
  rsn.rsnCapabilities ≠ some .invalid

/-- The configurations an element can stand for, by its group cipher and by what it lists. -/
inductive StandsFor (rsn : RsnElement) : SecurityConfig → Prop
  | owe (hgroup : rsn.groupDataCipherSuite = some .ccmp128) (hccmp : rsn.ListsCcmp)
      (howe : rsn.Accepts .opportunisticWirelessEncryption) : StandsFor rsn .owe
  | wpa3TransitionMode (hgroup : rsn.groupDataCipherSuite = some .ccmp128) (hccmp : rsn.ListsCcmp)
      (howe : ¬ rsn.Accepts .opportunisticWirelessEncryption) (hpsk : rsn.Accepts .psk)
      (hsae : rsn.Accepts .sae) : StandsFor rsn .wpa3TransitionMode
  | wpa2 (hgroup : rsn.groupDataCipherSuite = some .ccmp128) (hccmp : rsn.ListsCcmp)
      (howe : ¬ rsn.Accepts .opportunisticWirelessEncryption) (hpsk : rsn.Accepts .psk)
      (hsae : ¬ rsn.Accepts .sae) :
      StandsFor rsn (.wpa2 ⟨decide (rsn.rsnCapabilities = some .required)⟩)
  | wpa3 (hgroup : rsn.groupDataCipherSuite = some .ccmp128) (hccmp : rsn.ListsCcmp)
      (howe : ¬ rsn.Accepts .opportunisticWirelessEncryption) (hpsk : ¬ rsn.Accepts .psk)
      (hsae : rsn.Accepts .sae) : StandsFor rsn .wpa3
  | wpa2TransitionMode (hgroup : rsn.groupDataCipherSuite = some .tkip) (htkip : rsn.Lists .tkip)
      (hccmp : rsn.ListsCcmp) : StandsFor rsn .wpa2TransitionMode
  | wpa (hgroup : rsn.groupDataCipherSuite = some .tkip) (htkip : rsn.Lists .tkip)
      (hccmp : ¬ rsn.ListsCcmp) : StandsFor rsn .wpa

end RsnElement

namespace SecurityConfig
variable {rsn rsn' : RsnElement} {report : RsnReport} {config : SecurityConfig}

theorem foldl_readCipher (ciphers : List CipherSuiteSelector) (report : RsnReport) :
    ciphers.foldl RsnReport.readCipher report = { report with
      ccmpPresent := report.ccmpPresent || decide (.ccmp128 ∈ ciphers ∨ .ccmp256 ∈ ciphers)
      gcmpPresent := report.gcmpPresent || decide (.gcmp128 ∈ ciphers ∨ .gcmp256 ∈ ciphers)
      tkipPresent := report.tkipPresent || decide (.tkip ∈ ciphers) } := by
  induction ciphers generalizing report with
  | nil => simp
  | cons cipher ciphers ih =>
    rw [List.foldl_cons,ih]
    cases cipher <;> simp [RsnReport.readCipher]

theorem foldl_readAkm (akms : List AkmType) (report : RsnReport) :
    akms.foldl RsnReport.readAkm report = { report with
      owePresent := report.owePresent || decide (.opportunisticWirelessEncryption ∈ akms)
      pskPresent := report.pskPresent || decide (.psk ∈ akms)
      saePresent := report.saePresent || decide (.sae ∈ akms) } := by
  induction akms generalizing report with
  | nil => simp
  | cons akm akms ih =>
    rw [List.foldl_cons,ih]
    cases akm <;> simp [RsnReport.readAkm]

/-- What a report says. -/
structure Reports (rsn : RsnElement) (report : RsnReport) : Prop where
  group : rsn.groupDataCipherSuite = some report.groupCipher
  complete : rsn.Complete
  ccmp : report.ccmpPresent = true ↔ rsn.ListsCcmp
  tkip : report.tkipPresent = true ↔ rsn.Lists .tkip
  owe : report.owePresent = true ↔ rsn.Accepts .opportunisticWirelessEncryption
  psk : report.pskPresent = true ↔ rsn.Accepts .psk
  sae : report.saePresent = true ↔ rsn.Accepts .sae
  mfp : report.mfpRequired = decide (rsn.rsnCapabilities = some .required)

theorem generateRsnReport_reports (h : generateRsnReport rsn = some report) :
    Reports rsn report := by
  obtain ⟨groupCipher,hgroup,h⟩ := Option.bind_eq_some_iff.mp h
  cases hmfp : mfpInvalid rsn with
  | true => simp [hmfp] at h
  | false =>
    rw [hmfp,if_neg Bool.false_ne_true] at h
    obtain ⟨ciphers,hciphers,h⟩ := Option.bind_eq_some_iff.mp h
    obtain ⟨akms,hakms,rfl⟩ := Option.map_eq_some_iff.mp h
    rw [foldl_readAkm,foldl_readCipher]
    constructor
    case group => exact hgroup
    case complete =>
      refine ⟨?_,?_,by simpa [mfpInvalid] using hmfp⟩
      · rw [hciphers,Option.isSome_some]
      · rw [hakms,Option.isSome_some]
    case mfp => simp [mfpRequired,beq_eq_decide]
    all_goals simp [RsnElement.ListsCcmp,RsnElement.Lists,RsnElement.Accepts,hciphers,hakms]

theorem exists_report (hgroup : rsn.groupDataCipherSuite.isSome) (h : rsn.Complete) :
    ∃ report, generateRsnReport rsn = some report := by
  obtain ⟨groupCipher,hgroup⟩ := Option.isSome_iff_exists.mp hgroup
  obtain ⟨hciphers,hakms,hmfp⟩ := h
  obtain ⟨ciphers,hciphers⟩ := Option.isSome_iff_exists.mp hciphers
  obtain ⟨akms,hakms⟩ := Option.isSome_iff_exists.mp hakms
  have hvalid : mfpInvalid rsn = false := beq_false_of_ne hmfp
  unfold generateRsnReport
  rw [hgroup,Option.bind_some,hvalid,if_neg Bool.false_ne_true,hciphers,Option.bind_some,hakms]
  exact ⟨_,rfl⟩

theorem Reports.ofReport_standsFor (h : Reports rsn report) (hvalid : ofReport report ≠ .invalid) :
    rsn.StandsFor (ofReport report) := by
  unfold ofReport at hvalid ⊢
  by_cases hccm : report.groupCipher = .ccmp128 ∧ report.ccmpPresent = true
  · rw [if_pos hccm] at hvalid ⊢
    have hgroup : rsn.groupDataCipherSuite = some .ccmp128 := by rw [h.group,hccm.1]
    have hccmp := h.ccmp.mp hccm.2
    cases howe : report.owePresent with
    | true => exact .owe hgroup hccmp (h.owe.mp howe)
    | false =>
      have howe' := mt h.owe.mpr (by simp [howe])
      rw [howe,if_neg Bool.false_ne_true] at hvalid
      rw [if_neg Bool.false_ne_true]
      cases hpsk : report.pskPresent with
      | true =>
        cases hsae : report.saePresent with
        | true => exact .wpa3TransitionMode hgroup hccmp howe' (h.psk.mp hpsk) (h.sae.mp hsae)
        | false =>
          simp only [h.mfp]
          exact .wpa2 hgroup hccmp howe' (h.psk.mp hpsk) (mt h.sae.mpr (by simp [hsae]))
      | false =>
        have hpsk' := mt h.psk.mpr (by simp [hpsk])
        cases hsae : report.saePresent with
        | true => exact .wpa3 hgroup hccmp howe' hpsk' (h.sae.mp hsae)
        | false => simp [hpsk,hsae] at hvalid
  · rw [if_neg hccm] at hvalid ⊢
    by_cases htki : report.groupCipher = .tkip ∧ report.tkipPresent = true
    · rw [if_pos htki]
      have hgroup : rsn.groupDataCipherSuite = some .tkip := by rw [h.group,htki.1]
      have htkip := h.tkip.mp htki.2
      cases hccmp : report.ccmpPresent with
      | true => exact .wpa2TransitionMode hgroup htkip (h.ccmp.mp hccmp)
      | false => exact .wpa hgroup htkip (mt h.ccmp.mpr (by simp [hccmp]))
    · rw [if_neg htki] at hvalid
      exact absurd rfl hvalid

theorem Reports.ofReport_eq (h : Reports rsn report) (hc : rsn.StandsFor config) :
    ofReport report = config := by
  unfold ofReport
  cases hc with
  | owe hgroup hccmp howe =>
    have hcipher := Option.some.inj (h.group.symm.trans hgroup)
    simp [hcipher,h.ccmp.mpr hccmp,h.owe.mpr howe]
  | wpa3TransitionMode hgroup hccmp howe hpsk hsae =>
    have hcipher := Option.some.inj (h.group.symm.trans hgroup)
    simp [hcipher,h.ccmp.mpr hccmp,mt h.owe.mp howe,h.psk.mpr hpsk,h.sae.mpr hsae]
  | wpa2 hgroup hccmp howe hpsk hsae =>
    have hcipher := Option.some.inj (h.group.symm.trans hgroup)
    simp [hcipher,h.ccmp.mpr hccmp,mt h.owe.mp howe,h.psk.mpr hpsk,mt h.sae.mp hsae,h.mfp]
  | wpa3 hgroup hccmp howe hpsk hsae =>
    have hcipher := Option.some.inj (h.group.symm.trans hgroup)
    simp [hcipher,h.ccmp.mpr hccmp,mt h.owe.mp howe,mt h.psk.mp hpsk,h.sae.mpr hsae]
  | wpa2TransitionMode hgroup htkip hccmp =>
    have hcipher := Option.some.inj (h.group.symm.trans hgroup)
    simp [hcipher,h.tkip.mpr htkip,h.ccmp.mpr hccmp]
  | wpa hgroup htkip hccmp =>
    have hcipher := Option.some.inj (h.group.symm.trans hgroup)
    simp [hcipher,h.tkip.mpr htkip,mt h.ccmp.mp hccmp]

theorem standsFor_group (h : rsn.StandsFor config) : rsn.groupDataCipherSuite.isSome := by
  cases h <;> simp [*]

theorem standsFor_ne_invalid (h : rsn.StandsFor config) : config ≠ .invalid := by
  rintro rfl
  cases h

/-- An element is read as what it stands for, if it is complete. -/
theorem fromBeaconLike_some_iff (hne : config ≠ .invalid) :
    fromBeaconLike (some rsn) = config ↔ rsn.Complete ∧ rsn.StandsFor config := by
  cases hreport : generateRsnReport rsn with
  | none =>
    have hinvalid : fromBeaconLike (some rsn) = .invalid := by simp only [fromBeaconLike,hreport]
    refine iff_of_false ?_ ?_
    · exact fun h => hne (h.symm.trans hinvalid)
    · rintro ⟨hcomplete,hstands⟩
      obtain ⟨report,hsome⟩ := exists_report (standsFor_group hstands) hcomplete
      rw [hreport] at hsome
      cases hsome
  | some report =>
    have hreports := generateRsnReport_reports hreport
    have hdecided : fromBeaconLike (some rsn) = ofReport report := by
      simp only [fromBeaconLike,hreport]
    rw [hdecided]
    constructor
    · rintro rfl
      exact ⟨hreports.complete,hreports.ofReport_standsFor hne⟩
    · exact fun h => hreports.ofReport_eq h.2

end SecurityConfig

/-- Two elements that give the same group cipher and protection, and whose lists, if they are
there, hold the same suites. -/
structure RsnElement.Same (rsn rsn' : RsnElement) : Prop where
  group : rsn.groupDataCipherSuite = rsn'.groupDataCipherSuite
  mfp : rsn.rsnCapabilities = rsn'.rsnCapabilities
  pairwiseSome : rsn.pairwiseCipherSuiteList.isSome = rsn'.pairwiseCipherSuiteList.isSome
  akmSome : rsn.akmList.isSome = rsn'.akmList.isSome
  lists : ∀ cipher, rsn.Lists cipher ↔ rsn'.Lists cipher
  accepts : ∀ akm, rsn.Accepts akm ↔ rsn'.Accepts akm

namespace RsnElement.Same
variable {rsn rsn' : RsnElement} {config : SecurityConfig}

theorem symm (h : rsn.Same rsn') : rsn'.Same rsn :=
  ⟨h.group.symm,h.mfp.symm,h.pairwiseSome.symm,h.akmSome.symm,fun c => (h.lists c).symm,
    fun a => (h.accepts a).symm⟩

theorem complete (h : rsn.Same rsn') (hc : rsn.Complete) : rsn'.Complete := by
  rwa [Complete,← h.pairwiseSome,← h.akmSome,← h.mfp]

theorem listsCcmp_iff (h : rsn.Same rsn') : rsn.ListsCcmp ↔ rsn'.ListsCcmp :=
  or_congr (h.lists _) (h.lists _)

theorem standsFor (h : rsn.Same rsn') (hs : rsn.StandsFor config) : rsn'.StandsFor config := by
  have hpsk := h.accepts .psk
  have hsae := h.accepts .sae
  have howe := h.accepts .opportunisticWirelessEncryption
  cases hs with
  | owe hg hc ho => exact .owe (h.group ▸ hg) (h.listsCcmp_iff.mp hc) (howe.mp ho)
  | wpa3TransitionMode hg hc ho hp hs =>
    exact .wpa3TransitionMode (h.group ▸ hg) (h.listsCcmp_iff.mp hc) (mt howe.mpr ho)
      (hpsk.mp hp) (hsae.mp hs)
  | wpa2 hg hc ho hp hs =>
    rw [h.mfp]
    exact .wpa2 (h.group ▸ hg) (h.listsCcmp_iff.mp hc) (mt howe.mpr ho) (hpsk.mp hp)
      (mt hsae.mpr hs)
  | wpa3 hg hc ho hp hs =>
    exact .wpa3 (h.group ▸ hg) (h.listsCcmp_iff.mp hc) (mt howe.mpr ho) (mt hpsk.mpr hp)
      (hsae.mp hs)
  | wpa2TransitionMode hg ht hc =>
    exact .wpa2TransitionMode (h.group ▸ hg) ((h.lists _).mp ht) (h.listsCcmp_iff.mp hc)
  | wpa hg ht hc => exact .wpa (h.group ▸ hg) ((h.lists _).mp ht) (mt h.listsCcmp_iff.mpr hc)

end RsnElement.Same

namespace SecurityConfig

theorem fromBeaconLike_of_same {rsn rsn' : RsnElement} (h : rsn.Same rsn')
    (hne : fromBeaconLike (some rsn) ≠ .invalid) :
    fromBeaconLike (some rsn') = fromBeaconLike (some rsn) := by
  obtain ⟨hcomplete,hstands⟩ := (fromBeaconLike_some_iff hne).mp rfl
  exact (fromBeaconLike_some_iff hne).mpr ⟨h.complete hcomplete,h.standsFor hstands⟩

/-- A beacon is open only without an RSN element. With one it is read as what the element
stands for, if that is complete and stands for something, and else as invalid; the order in
which suites are listed, how often, and whatever else is listed make no difference. -/
theorem fromBeaconLike_classifies (rsn : RsnElement) :
    fromBeaconLike none = .openNetwork ∧ fromBeaconLike (some rsn) ≠ .openNetwork ∧
    (∀ config, config ≠ .invalid →
      (fromBeaconLike (some rsn) = config ↔ rsn.Complete ∧ rsn.StandsFor config)) ∧
    (fromBeaconLike (some rsn) = .invalid ↔ ∀ config, ¬ (rsn.Complete ∧ rsn.StandsFor config)) ∧
    ∀ rsn', rsn.Same rsn' → fromBeaconLike (some rsn') = fromBeaconLike (some rsn) := by
  refine ⟨rfl,?_,fun config hne => fromBeaconLike_some_iff hne,?_,?_⟩
  · intro hopen
    obtain ⟨-,hstands⟩ := (fromBeaconLike_some_iff (by decide)).mp hopen
    cases hstands
  · constructor
    · rintro hinvalid config ⟨hcomplete,hstands⟩
      have hne := standsFor_ne_invalid hstands
      have hconfig := (fromBeaconLike_some_iff hne).mpr ⟨hcomplete,hstands⟩
      exact hne (hconfig.symm.trans hinvalid)
    · intro hnone
      by_contra hne
      exact hnone _ ((fromBeaconLike_some_iff hne).mp rfl)
  · intro rsn' hsame
    by_cases hne : fromBeaconLike (some rsn) = .invalid
    · by_contra hne'
      rw [hne] at hne'
      exact hne' ((fromBeaconLike_of_same hsame.symm hne').symm.trans hne)
    · exact fromBeaconLike_of_same hsame hne

end SecurityConfig

/-! ## The BSS -/

/-- `heapless::String<32>`: its bytes in UTF-8 are at most 32. -/
structure SsidString where
  text : String
  bounded : text.utf8ByteSize ≤ 32
deriving DecidableEq

/-- `push_str` on an empty string: what does not fit is not taken at all. -/
def SsidString.pushStr (text : String) : SsidString :=
  if h : text.utf8ByteSize ≤ 32 then ⟨text,h⟩ else ⟨"",Nat.zero_le _⟩

structure BSS where
  ssid : SsidString
  channel : UInt8
  bssid : Bytes 6
  lastRssi : Int8
  securityConfig : SecurityConfig
deriving DecidableEq

/-- A beacon that was received, with the signal strength of its reception. -/
structure BeaconFrame where
  bssid : Bytes 6
  ssid : Option String
  currentChannel : Option UInt8
  rsn : Option RsnElement
  rssi : Int8

def BSS.fromBeaconLike (frame : BeaconFrame) : Option BSS :=
  frame.ssid.bind fun ssid => frame.currentChannel.map fun channel =>
    { ssid := .pushStr ssid
      channel := channel
      bssid := frame.bssid
      lastRssi := frame.rssi
      securityConfig := .fromBeaconLike frame.rsn }

theorem BSS.fromBeaconLike_bssid {frame : BeaconFrame} {bss : BSS}
    (h : fromBeaconLike frame = some bss) : bss.bssid = frame.bssid := by
  obtain ⟨ssid,-,h⟩ := Option.bind_eq_some_iff.mp h
  obtain ⟨channel,-,rfl⟩ := Option.map_eq_some_iff.mp h
  rfl

end FerrisOnAir.Sta.Beacon

import FerrisOnAir.Rsn.KeyInstallation
import FerrisOnAir.Rsn.KeyEnvelope

/-! # The group key table and the EAPOL replay counter

What an EAPOL frame can do after the connection is up is described once: nothing, a
group message that is repeated, known or new, or a third message that is repeated by
the access point. The invariants of the group key table and the discipline of the
replay counter follow by cases.
-/
namespace FerrisOnAir.Rsn
variable {F : Type*}

/-- An accepted group message: the last one again, one for the installed key, or one that
installs its key. -/
inductive GroupAccept (bssid : Bytes 6) (s : CryptoState) (m : GroupMessage1) :
    CryptoState → List SetKey → Prop
  | repeated (hcounter : m.counter = s.message3Replay.replayCounter)
      (hlast : s.lastGroupMessage = some m) : GroupAccept bssid s m s []
  | known (id : Fin 4) (hid : m.keyId = id) (hcounter : s.message3Replay.replayCounter < m.counter)
      (hinst : s.alreadyInstalled id m.key = true) :
      GroupAccept bssid s m (s.commitGroupMessage m) []
  | installed (id : Fin 4) (hid : m.keyId = id)
      (hcounter : s.message3Replay.replayCounter < m.counter)
      (hother : ¬ s.keyAtOtherId id m.key) (hinst : s.alreadyInstalled id m.key = false) :
      GroupAccept bssid s m ((s.installGroupKey id m).commitGroupMessage m)
        [⟨s.slots.keySlot (.group id),id,bssid,m.key,.group⟩]

/-- What `handle_eapol_retry` may do with a frame, behind the outer check. -/
inductive EapolOutcome (d : KeyFrameDecoder F) (bssid : Bytes 6) (s : CryptoState) (frame : F) :
    CryptoState → List SetKey → Option Reply → Prop
  | silent : EapolOutcome d bssid s frame s [] none
  | group {t : CryptoState} {commands : List SetKey} (m : GroupMessage1)
      (hgroup : d.isGroup frame = true)
      (hdecode : d.decodeGroupMessage1 frame (kck s.securityAssociations.ptksa.key)
        (kek s.securityAssociations.ptksa.key) = some m)
      (haccept : GroupAccept bssid s m t commands) :
      EapolOutcome d bssid s frame t commands
        (some (.groupMessage2 (kck s.securityAssociations.ptksa.key) m.counter))
  | message3 (m : Message3) (hgroup : d.isGroup frame = false)
      (hdecode : d.decryptMessage3 frame (kck s.securityAssociations.ptksa.key)
        (kek s.securityAssociations.ptksa.key) = some m)
      (hcounter : s.message3Replay.replayCounter < m.counter) :
      EapolOutcome d bssid s frame
        { s with message3Replay := s.message3Replay.advance m.counter } []
        (some (.message4 (kck s.securityAssociations.ptksa.key)
          s.message3Replay.supplicantNonce m.counter))

namespace CryptoState
variable {d : KeyFrameDecoder F} {bssid : Bytes 6} {s t : CryptoState} {frame : F}
  {commands : List SetKey} {reply : Option Reply}

/-- Accepting a group message never panics. -/
theorem acceptGroupMessage_cases (s : CryptoState) (m : GroupMessage1) (bssid : Bytes 6) :
    s.acceptGroupMessage m bssid = .ok none ∨
    ∃ b t commands, s.acceptGroupMessage m bssid = .ok (some (b,t,commands)) ∧
      GroupAccept bssid s m t commands := by
  unfold acceptGroupMessage
  by_cases hlt : m.counter < s.message3Replay.replayCounter
  · exact Or.inl (if_pos hlt)
  · by_cases heq : m.counter = s.message3Replay.replayCounter
    · simp only [if_neg hlt,if_pos heq]
      by_cases hlast : s.lastGroupMessage = some m
      · rw [if_pos hlast]
        exact Or.inr ⟨_,_,_,rfl,.repeated heq hlast⟩
      · rw [if_neg hlast]
        exact Or.inl rfl
    · have hcounter : s.message3Replay.replayCounter < m.counter := by omega
      by_cases hid : m.keyId < 4
      · simp only [if_neg hlt,if_neg heq,dif_pos hid]
        by_cases hother : s.keyAtOtherId ⟨m.keyId,hid⟩ m.key
        · rw [if_pos hother]
          exact Or.inl rfl
        · rw [if_neg hother]
          cases hinst : s.alreadyInstalled ⟨m.keyId,hid⟩ m.key with
          | true =>
            simp only [if_true]
            exact Or.inr ⟨_,_,_,rfl,.known ⟨m.keyId,hid⟩ rfl hcounter hinst⟩
          | false =>
            simp only [Bool.false_eq_true,if_false,programGroupKey,dif_pos hid,
              installGroupKey,Function.update_self]
            exact Or.inr ⟨_,_,_,rfl,.installed ⟨m.keyId,hid⟩ rfl hcounter hother hinst⟩
      · left
        simp only [if_neg hlt,if_neg heq,dif_neg hid]

/-- A frame has one of the outcomes, or the active group key is missing. -/
theorem processKeyFrame_cases (d : KeyFrameDecoder F) (bssid : Bytes 6) (s : CryptoState)
    (frame : F) :
    (s.processKeyFrame d bssid frame = .error .groupKeyMissing ∧
      s.securityAssociations.groupKey s.securityAssociations.activeGroupId = none) ∨
    ∃ t commands reply, s.processKeyFrame d bssid frame = .ok (t,commands,reply) ∧
      EapolOutcome d bssid s frame t commands reply := by
  unfold processKeyFrame
  cases hg : d.isGroup frame with
  | true =>
    simp only [if_true]
    cases hm : d.decodeGroupMessage1 frame (kck s.securityAssociations.ptksa.key)
        (kek s.securityAssociations.ptksa.key) with
    | none => exact Or.inr ⟨_,_,_,rfl,.silent⟩
    | some m =>
      rcases s.acceptGroupMessage_cases m bssid with hnone | ⟨b,t,commands,hsome,haccept⟩
      · simp only [hnone]
        exact Or.inr ⟨_,_,_,rfl,.silent⟩
      · simp only [hsome]
        exact Or.inr ⟨_,_,_,rfl,.group m hg hm haccept⟩
  | false =>
    cases hgtk : s.securityAssociations.groupKey s.securityAssociations.activeGroupId with
    | none => exact Or.inl ⟨rfl,rfl⟩
    | some gtk =>
      simp only [Bool.false_eq_true,if_false,Message3Replay.accept]
      cases hm : d.decryptMessage3 frame (kck s.securityAssociations.ptksa.key)
          (kek s.securityAssociations.ptksa.key) with
      | none => exact Or.inr ⟨_,_,_,rfl,.silent⟩
      | some m =>
        by_cases hfresh : m.nonce ≠ s.message3Replay.authenticatorNonce ∨
            m.counter ≤ s.message3Replay.replayCounter
        · simp only [if_pos hfresh]
          exact Or.inr ⟨_,_,_,rfl,.silent⟩
        · simp only [if_neg hfresh]
          by_cases hkey : m.gtk ≠ gtk.key ∨ m.gtkId ≠ gtk.keyId
          · simp only [if_pos hkey]
            exact Or.inr ⟨_,_,_,rfl,.silent⟩
          · simp only [if_neg hkey]
            exact Or.inr ⟨_,_,_,rfl,.message3 m hg hm (not_le.mp (fun h => hfresh (Or.inr h)))⟩

/-- `handle_eapol_retry`: the outer check comes first, and only it touches the PTK. -/
theorem handleEapolRetry_cases (d : KeyFrameDecoder F) (bssid : Bytes 6) (s : CryptoState)
    (frame : F) (packetNumber : Option ℕ) :
    (s.handleEapolRetry d bssid frame packetNumber = .error .groupKeyMissing ∧
      s.securityAssociations.groupKey s.securityAssociations.activeGroupId = none) ∨
    ∃ t commands reply,
      s.handleEapolRetry d bssid frame packetNumber = .ok (t,commands,reply) ∧
      EapolOutcome d bssid (s.validateOuter packetNumber).2 frame t commands reply := by
  unfold handleEapolRetry
  cases hv : (s.validateOuter packetNumber).1 with
  | false =>
    simp only [hv,Bool.false_eq_true,if_false]
    exact Or.inr ⟨_,_,_,rfl,.silent⟩
  | true =>
    simp only [hv,if_true]
    rcases processKeyFrame_cases d bssid (s.validateOuter packetNumber).2 frame with
      ⟨herr,hnone⟩ | hok
    · refine Or.inl ⟨herr,?_⟩
      cases packetNumber <;> exact hnone
    · exact Or.inr hok

theorem handleEapolRetry_outcome {packetNumber : Option ℕ}
    (h : s.handleEapolRetry d bssid frame packetNumber = .ok (t,commands,reply)) :
    EapolOutcome d bssid (s.validateOuter packetNumber).2 frame t commands reply := by
  rcases handleEapolRetry_cases d bssid s frame packetNumber with ⟨herr,_⟩ | ⟨_,_,_,hok,ho⟩
  · rw [h] at herr
    cases herr
  · rw [h] at hok
    cases hok
    exact ho

end CryptoState

/-- The table of group keys, the active ID, the hardware slots and the last group message
agree. -/
structure GroupKeyTable (bssid : Bytes 6) (s : CryptoRun) : Prop where
  keyId_eq : ∀ i a, s.state.securityAssociations.groupKeys i = some a → a.keyId = i
  key_injective : ∀ i j a b, s.state.securityAssociations.groupKeys i = some a →
    s.state.securityAssociations.groupKeys j = some b → a.key = b.key → i = j
  active : ∃ i : Fin 4, s.state.securityAssociations.activeGroupId = i ∧
    (s.state.securityAssociations.groupKeys i).isSome = true
  programmed : ∀ i a, s.state.securityAssociations.groupKeys i = some a →
    (s.programmed.filter (fun c => c.keySlot = s.state.slots.keySlot (.group i))).getLast? =
      some ⟨s.state.slots.keySlot (.group i),i,bssid,a.key,.group⟩
  last : ∀ m, s.state.lastGroupMessage = some m →
    m.counter ≤ s.state.message3Replay.replayCounter ∧
    ∃ i : Fin 4, m.keyId = i ∧
      ∃ a, s.state.securityAssociations.groupKeys i = some a ∧ a.key = m.key

namespace GroupKeyTable
variable {d : KeyFrameDecoder F} {bssid : Bytes 6} {s t : CryptoRun}

/-- Packet numbers do not concern the table, and the replay counter may grow. -/
theorem congr (hs : GroupKeyTable bssid s)
    (hkeys : ∀ i a, t.state.securityAssociations.groupKeys i = some a →
      ∃ b, s.state.securityAssociations.groupKeys i = some b ∧ b.key = a.key ∧ b.keyId = a.keyId)
    (hsome : ∀ i b, s.state.securityAssociations.groupKeys i = some b →
      ∃ a, t.state.securityAssociations.groupKeys i = some a ∧ a.key = b.key)
    (hactive : t.state.securityAssociations.activeGroupId =
      s.state.securityAssociations.activeGroupId)
    (hslots : t.state.slots = s.state.slots) (hprog : t.programmed = s.programmed)
    (hlast : t.state.lastGroupMessage = s.state.lastGroupMessage)
    (hcounter : s.state.message3Replay.replayCounter ≤ t.state.message3Replay.replayCounter) :
    GroupKeyTable bssid t where
  keyId_eq i a ha := by
    obtain ⟨b,hb,_,hid⟩ := hkeys i a ha
    rw [← hid]
    exact hs.keyId_eq i b hb
  key_injective i j a b ha hb hab := by
    obtain ⟨a',ha',hka,_⟩ := hkeys i a ha
    obtain ⟨b',hb',hkb,_⟩ := hkeys j b hb
    exact hs.key_injective i j a' b' ha' hb' (by rw [hka,hkb,hab])
  active := by
    obtain ⟨i,hi,hs⟩ := hs.active
    obtain ⟨b,hb⟩ := Option.isSome_iff_exists.mp hs
    obtain ⟨a,ha,_⟩ := hsome i b hb
    exact ⟨i,hactive.trans hi,by rw [ha]; rfl⟩
  programmed i a ha := by
    obtain ⟨b,hb,hk,_⟩ := hkeys i a ha
    rw [hprog,hslots,← hk]
    exact hs.programmed i b hb
  last m hm := by
    rw [hlast] at hm
    obtain ⟨hle,i,hi,b,hb,hk⟩ := hs.last m hm
    obtain ⟨a,ha,hka⟩ := hsome i b hb
    exact ⟨hle.trans hcounter,i,hi,a,ha,hka.trans hk⟩

/-- The same keys with the same receive state. -/
theorem congr_keys (hs : GroupKeyTable bssid s)
    (hkeys : t.state.securityAssociations.groupKeys = s.state.securityAssociations.groupKeys)
    (hactive : t.state.securityAssociations.activeGroupId =
      s.state.securityAssociations.activeGroupId)
    (hslots : t.state.slots = s.state.slots) (hprog : t.programmed = s.programmed)
    (hlast : t.state.lastGroupMessage = s.state.lastGroupMessage)
    (hcounter : s.state.message3Replay.replayCounter ≤ t.state.message3Replay.replayCounter) :
    GroupKeyTable bssid t := by
  apply hs.congr ?_ ?_ hactive hslots hprog hlast hcounter
  · intro i a ha
    rw [hkeys] at ha
    exact ⟨a,ha,rfl,rfl⟩
  · intro i b hb
    exact ⟨b,by rw [hkeys]; exact hb,rfl⟩

/-- A group message commits to an installed key. -/
theorem commit (hs : GroupKeyTable bssid s) {m : GroupMessage1} {id : Fin 4} (hid : m.keyId = id)
    {a : TransientKeySecurityAssociation 16}
    (ha : s.state.securityAssociations.groupKeys id = some a) (hkey : a.key = m.key)
    (hstate : t.state = s.state.commitGroupMessage m) (hprog : t.programmed = s.programmed) :
    GroupKeyTable bssid t where
  keyId_eq i b hb := by
    rw [hstate] at hb
    exact hs.keyId_eq i b hb
  key_injective i j b c hb hc := by
    rw [hstate] at hb hc
    exact hs.key_injective i j b c hb hc
  active := by
    refine ⟨id,?_,?_⟩
    · rw [hstate]
      exact hid
    · rw [hstate]
      exact Option.isSome_iff_exists.mpr ⟨a,ha⟩
  programmed i b hb := by
    rw [hstate] at hb ⊢
    rw [hprog]
    exact hs.programmed i b hb
  last m' hm' := by
    rw [hstate] at hm' ⊢
    cases hm'
    exact ⟨le_rfl,id,hid,a,ha,hkey⟩

/-- A new key goes to the table and to the hardware slot of its ID. -/
theorem install (hs : GroupKeyTable bssid s) {m : GroupMessage1} {id : Fin 4} (hid : m.keyId = id)
    (hother : ¬ s.state.keyAtOtherId id m.key)
    (hstate : t.state = (s.state.installGroupKey id m).commitGroupMessage m)
    (hprog : t.programmed = s.programmed ++
      [⟨s.state.slots.keySlot (.group id),id,bssid,m.key,.group⟩]) : GroupKeyTable bssid t := by
  let new : TransientKeySecurityAssociation 16 := ⟨m.key,m.keyId,m.rsc,1⟩
  have hkeys : t.state.securityAssociations.groupKeys =
      Function.update s.state.securityAssociations.groupKeys id (some new) := by
    rw [hstate]
    rfl
  have hnew : t.state.securityAssociations.groupKeys id = some new := by
    rw [hkeys,Function.update_self]
  have hold (i : Fin 4) (hi : i ≠ id) : t.state.securityAssociations.groupKeys i =
      s.state.securityAssociations.groupKeys i := by
    rw [hkeys,Function.update_of_ne hi]
  have hslots : t.state.slots = s.state.slots := by
    rw [hstate]
    rfl
  have hfresh (i : Fin 4) (a : TransientKeySecurityAssociation 16) (hi : i ≠ id)
      (ha : t.state.securityAssociations.groupKeys i = some a) : a.key ≠ m.key := by
    rw [hold i hi] at ha
    intro hkey
    exact hother ⟨i,hi,a,ha,hkey⟩
  constructor
  · intro i a ha
    by_cases hi : i = id
    · subst hi
      rw [hnew] at ha
      cases ha
      exact hid
    · exact hs.keyId_eq i a (hold i hi ▸ ha)
  · intro i j a b ha hb hab
    by_cases hi : i = id
    · by_cases hj : j = id
      · rw [hi,hj]
      · subst hi
        rw [hnew] at ha
        cases ha
        exact absurd hab.symm (hfresh j b hj hb)
    · by_cases hj : j = id
      · subst hj
        rw [hnew] at hb
        cases hb
        exact absurd hab (hfresh i a hi ha)
      · exact hs.key_injective i j a b (hold i hi ▸ ha) (hold j hj ▸ hb) hab
  · refine ⟨id,?_,by rw [hnew]; rfl⟩
    rw [hstate]
    exact hid
  · intro i a ha
    rw [hslots,hprog,List.filter_append]
    by_cases hi : i = id
    · subst hi
      rw [hnew] at ha
      cases ha
      simp [new]
    · have hne := s.state.slots.keySlot_injective.ne (show KeyRef.group id ≠ .group i by
        simpa using Ne.symm hi)
      rw [List.filter_cons_of_neg (by simpa using hne),List.filter_nil,List.append_nil]
      exact hs.programmed i a (hold i hi ▸ ha)
  · intro m' hm'
    rw [hstate] at hm' ⊢
    cases hm'
    exact ⟨le_rfl,id,hid,new,hstate ▸ hnew,rfl⟩

/-- The receive state of a key is not part of the table. -/
theorem updateAndValidate_entry {N : ℕ} (a : TransientKeySecurityAssociation N) (pn : ℕ) :
    (a.updateAndValidateReplayCounter pn).2.key = a.key ∧
      (a.updateAndValidateReplayCounter pn).2.keyId = a.keyId := by
  unfold TransientKeySecurityAssociation.updateAndValidateReplayCounter
  split <;> exact ⟨rfl,rfl⟩

theorem data (hs : GroupKeyTable bssid s) {g : Bool} {k pn : ℕ}
    (he : CryptoRun.Step d bssid s (.data g k pn) t) : GroupKeyTable bssid t := by
  cases he
  unfold CryptoState.validateData
  cases g with
  | false =>
    by_cases hk : k = 0
    · simp only [Bool.false_eq_true,if_false,if_pos hk]
      exact hs.congr_keys rfl rfl rfl rfl rfl le_rfl
    · simp only [Bool.false_eq_true,if_false,if_neg hk]
      exact hs.congr_keys rfl rfl rfl rfl rfl le_rfl
  | true =>
    by_cases hk : k < 4
    · simp only [if_true,dif_pos hk]
      cases ha : s.state.securityAssociations.groupKeys ⟨k,hk⟩ with
      | none => exact hs.congr_keys rfl rfl rfl rfl rfl le_rfl
      | some a =>
        obtain ⟨hkey,hid⟩ := updateAndValidate_entry a pn
        refine hs.congr ?_ ?_ rfl rfl rfl rfl le_rfl
        · intro i b hb
          change Function.update s.state.securityAssociations.groupKeys ⟨k,hk⟩ _ i = some b at hb
          by_cases hi : i = ⟨k,hk⟩
          · rw [hi,Function.update_self] at hb
            cases hb
            exact ⟨a,hi ▸ ha,hkey.symm,hid.symm⟩
          · rw [Function.update_of_ne hi] at hb
            exact ⟨b,hb,rfl,rfl⟩
        · intro i b hb
          by_cases hi : i = ⟨k,hk⟩
          · rw [hi,ha] at hb
            cases hb
            exact ⟨_,by rw [hi]; exact Function.update_self ..,hkey⟩
          · exact ⟨b,(Function.update_of_ne hi _ _).trans hb,rfl⟩
    · simp only [if_true,dif_neg hk]
      exact hs.congr_keys rfl rfl rfl rfl rfl le_rfl

theorem accept (hs : GroupKeyTable bssid s) {m : GroupMessage1} {commands : List SetKey}
    (h : GroupAccept bssid s.state m t.state commands)
    (hprog : t.programmed = s.programmed ++ commands) : GroupKeyTable bssid t := by
  generalize hstate : t.state = c at h
  cases h with
  | repeated hcounter hlast =>
    rw [List.append_nil] at hprog
    exact hs.congr_keys (by rw [hstate]) (by rw [hstate]) (by rw [hstate]) hprog (by rw [hstate])
      (by rw [hstate])
  | known id hid hcounter hinst =>
    rw [List.append_nil] at hprog
    obtain ⟨a,ha,hkey⟩ := (Option.any_eq_true _ _).mp hinst
    exact hs.commit hid ha (of_decide_eq_true hkey) hstate hprog
  | installed id hid hcounter hother hinst => exact hs.install hid hother hstate hprog

theorem eapol (hs : GroupKeyTable bssid s) {frame : F} {packetNumber : Option ℕ}
    (he : CryptoRun.Step d bssid s (.eapol frame packetNumber) t) : GroupKeyTable bssid t := by
  obtain ⟨commands,reply,hc,hprog,_⟩ := CryptoRun.step_eapol he
  -- The outer check comes first and leaves the table alone.
  have houter : GroupKeyTable bssid { s with state := (s.state.validateOuter packetNumber).2 } := by
    cases packetNumber with
    | none => exact hs
    | some pn => exact hs.congr_keys rfl rfl rfl rfl rfl le_rfl
  have ho := CryptoState.handleEapolRetry_outcome hc
  generalize hstate : t.state = c at ho
  cases ho with
  | silent =>
    rw [List.append_nil] at hprog
    exact houter.congr_keys (by rw [hstate]) (by rw [hstate]) (by rw [hstate]) hprog
      (by rw [hstate]) (by rw [hstate])
  | group m hgroup hdecode haccept =>
    subst hstate
    exact houter.accept haccept hprog
  | message3 m hgroup hdecode hcounter =>
    rw [List.append_nil] at hprog
    refine houter.congr_keys (by rw [hstate]) (by rw [hstate]) (by rw [hstate]) hprog
      (by rw [hstate]) ?_
    rw [hstate]
    exact hcounter.le

theorem step (hs : GroupKeyTable bssid s) {e : RxEvent F} (he : CryptoRun.Step d bssid s e t) :
    GroupKeyTable bssid t := by
  cases e with
  | data g k pn => exact hs.data he
  | eapol frame packetNumber => exact hs.eapol he

theorem start {slots : KeySlots} {ptk : Bytes 48} {gtk : Bytes 16} {gtkId : Fin 4}
    {m : Message3Replay} (h : CryptoRun.start slots bssid ptk gtk gtkId m = .ok s) :
    GroupKeyTable bssid s := by
  simp only [CryptoRun.start,CryptoState.new_established] at h
  cases h
  have hsome {i : Fin 4} {a : TransientKeySecurityAssociation 16}
      (ha : (SecurityAssociations.established ptk gtk gtkId).groupKeys i = some a) :
      i = gtkId ∧ a = .new gtk gtkId := by
    change Function.update (fun _ => none) gtkId _ i = some a at ha
    by_cases hi : i = gtkId
    · rw [hi,Function.update_self] at ha
      cases ha
      exact ⟨hi,rfl⟩
    · rw [Function.update_of_ne hi] at ha
      cases ha
  constructor
  · intro i a ha
    obtain ⟨rfl,rfl⟩ := hsome ha
    rfl
  · intro i j a b ha hb _
    rw [(hsome ha).1,(hsome hb).1]
  · refine ⟨gtkId,rfl,?_⟩
    simp [SecurityAssociations.established]
  · intro i a ha
    obtain ⟨rfl,rfl⟩ := hsome ha
    have hne := slots.keySlot_injective.ne (show KeyRef.pairwise ≠ .group i by simp)
    simp [hne,TransientKeySecurityAssociation.new]
  · intro m' hm'
    cases hm'

/-- No event makes the station unwrap a missing group key. -/
theorem total (hs : GroupKeyTable bssid s) (d : KeyFrameDecoder F) (e : RxEvent F) :
    ∃ t, CryptoRun.Step d bssid s e t := by
  cases e with
  | data g k pn => exact ⟨_,rfl⟩
  | eapol frame packetNumber =>
    rcases CryptoState.handleEapolRetry_cases d bssid s.state frame packetNumber with
      ⟨_,hnone⟩ | ⟨t,commands,reply,hok,_⟩
    · obtain ⟨i,hi,hsome⟩ := hs.active
      rw [hi,SecurityAssociations.groupKey,dif_pos i.isLt] at hnone
      rw [hnone] at hsome
      cases hsome
    · simp only [CryptoRun.Step,CryptoRun.step,hok]
      exact ⟨_,rfl⟩

end GroupKeyTable

section Table
variable {d : KeyFrameDecoder F} {bssid : Bytes 6} {s₀ s : CryptoRun} {es : List (RxEvent F)}

/-- The group key table is consistent in every state of a connection, whatever the
decoders return, and no received frame panics. -/
theorem group_key_table {slots : KeySlots} {ptk : Bytes 48} {gtk : Bytes 16} {gtkId : Fin 4}
    {m : Message3Replay} (h : CryptoRun.start slots bssid ptk gtk gtkId m = .ok s₀)
    (hr : Runs (CryptoRun.Step d bssid) s₀ es s) :
    GroupKeyTable bssid s ∧ ∀ e, ∃ t, CryptoRun.Step d bssid s e t := by
  have hs : GroupKeyTable bssid s :=
    Runs.invariant (fun _ _ _ hs he => hs.step he) hr (GroupKeyTable.start h)
  exact ⟨hs,hs.total d⟩

/-- After two rekeys the first key is gone from its entry, and the hardware follows. -/
theorem group_key_table_rekeyed :
    let d : KeyFrameDecoder GroupMessage1 := ⟨fun _ => true,fun m _ _ => some m,fun _ _ _ => none⟩
    let key (b : UInt8) : Bytes 16 := fun _ => b
    ∃ s₀, CryptoRun.start .lowest 0 0 (key 9) 1 ⟨0,0,2⟩ = .ok s₀ ∧
    ∃ s, Runs (CryptoRun.Step d 0) s₀
      [.eapol ⟨3,0,key 7,2,0⟩ none,.eapol ⟨4,0,key 9,3,0⟩ none,.eapol ⟨5,0,key 8,1,0⟩ none,
        .eapol ⟨6,0,key 5,4,0⟩ none] s ∧
    s.state.securityAssociations.activeGroupId = 1 ∧ GroupKeyTable 0 s := by
  intro d key
  have hstart : CryptoRun.start .lowest 0 0 (key 9) 1 ⟨0,0,2⟩ = .ok _ := rfl
  refine ⟨_,hstart,?_⟩
  apply Runs.exists_of_execute (fun _ _ _ => ok_of_toOption)
    (fun s => s.state.securityAssociations.activeGroupId = 1)
  · decide
  · intro s hr hs
    exact ⟨hs,(group_key_table hstart hr).1⟩

end Table
end FerrisOnAir.Rsn

import Mathlib

/-! # Security associations of a WPA2 connection

`foa_sta/src/rsn.rs`, the acceptance rules of `rsn_retransmit.rs` and the crypto
closures of `runner.rs`. A `u64` that is only stored and compared is a natural
number; the transmit packet number wraps as `fetch_add` does. What the frame
decoders make of the bytes is a parameter, since every rule below has to hold for
whatever they return. Commands to the hardware key slots are returned in order.
-/
namespace FerrisOnAir.Rsn

abbrev Bytes (n : ℕ) := Fin n → UInt8

/-- `TransientKeySecurityAssociation`. -/
structure TransientKeySecurityAssociation (N : ℕ) where
  key : Bytes N
  keyId : ℕ
  replayCounter : ℕ
  packetNumber : ℕ
deriving DecidableEq

namespace TransientKeySecurityAssociation
variable {N : ℕ} (a : TransientKeySecurityAssociation N)

def new (key : Bytes N) (keyId : ℕ) : TransientKeySecurityAssociation N := ⟨key,keyId,0,1⟩

def withReceiveFloor (floor : ℕ) : TransientKeySecurityAssociation N :=
  { a with replayCounter := floor }

/-- `next_packet_number`: the old value of a wrapping `fetch_add`. -/
def nextPacketNumber : ℕ × TransientKeySecurityAssociation N :=
  (a.packetNumber,{ a with packetNumber := (a.packetNumber + 1) % 2 ^ 64 })

def updateAndValidateReplayCounter (packetNumber : ℕ) :
    Bool × TransientKeySecurityAssociation N :=
  if a.replayCounter < packetNumber then (true,{ a with replayCounter := packetNumber })
  else (false,a)

variable {a}

theorem updateAndValidate_of_lt {pn : ℕ} (h : a.replayCounter < pn) :
    a.updateAndValidateReplayCounter pn = (true,{ a with replayCounter := pn }) := if_pos h

theorem updateAndValidate_of_le {pn : ℕ} (h : pn ≤ a.replayCounter) :
    a.updateAndValidateReplayCounter pn = (false,a) := if_neg (Nat.not_lt.mpr h)

end TransientKeySecurityAssociation

/-- The PTK or the GTK of one key ID. -/
inductive KeyRef
  | pairwise
  | group (i : Fin 4)
deriving DecidableEq

/-- `PTK_LENGTH` and `GTK_LENGTH`. -/
abbrev KeyRef.length : KeyRef → ℕ
  | pairwise => 48
  | group _ => 16

/-- The temporal key: the last part of a PTK (after KCK and KEK), all of a GTK. -/
def tk : {r : KeyRef} → Bytes r.length → Bytes 16
  | .pairwise,key => fun i => key ⟨i + 32,by simp [KeyRef.length]; omega⟩
  | .group _,key => key

def kck (ptk : Bytes 48) : Bytes 16 := fun i => ptk ⟨i,by omega⟩

def kek (ptk : Bytes 48) : Bytes 16 := fun i => ptk ⟨i + 16,by omega⟩

/-- `SecurityAssociations`; the suites are the constants of WPA2-PSK with CCMP. -/
structure SecurityAssociations where
  ptksa : TransientKeySecurityAssociation 48
  groupKeys : Fin 4 → Option (TransientKeySecurityAssociation 16)
  activeGroupId : ℕ
deriving DecidableEq

namespace SecurityAssociations
variable (s : SecurityAssociations)

def groupKey (id : ℕ) : Option (TransientKeySecurityAssociation 16) :=
  if h : id < 4 then s.groupKeys ⟨id,h⟩ else none

/-- The associations at the end of `do_4whs`. A GTK ID has two bits. -/
def established (ptk : Bytes 48) (gtk : Bytes 16) (gtkId : Fin 4) : SecurityAssociations where
  ptksa := .new ptk 0
  groupKeys := Function.update (fun _ => none) gtkId (some (.new gtk gtkId))
  activeGroupId := gtkId

def association : (r : KeyRef) → Option (TransientKeySecurityAssociation r.length)
  | .pairwise => some s.ptksa
  | .group i => s.groupKeys i

end SecurityAssociations

/-- `GroupMessage1`. -/
structure GroupMessage1 where
  counter : ℕ
  nonce : Bytes 32
  key : Bytes 16
  keyId : ℕ
  rsc : ℕ
deriving DecidableEq

/-- `Message3`, the decrypted third message of the initial exchange. -/
structure Message3 where
  nonce : Bytes 32
  counter : ℕ
  gtk : Bytes 16
  gtkId : ℕ
deriving DecidableEq

structure Message3Replay where
  authenticatorNonce : Bytes 32
  supplicantNonce : Bytes 32
  replayCounter : ℕ
deriving DecidableEq

namespace Message3Replay

def advance (m : Message3Replay) (counter : ℕ) : Message3Replay :=
  { m with replayCounter := counter }

/-- `Message3Replay::accept` on the decrypted message. -/
def accept (m : Message3Replay) (message : Option Message3) (gtk : Bytes 16) (gtkId : ℕ) :
    Option (ℕ × Message3Replay) :=
  match message with
  | none => none
  | some key =>
    if key.nonce ≠ m.authenticatorNonce ∨ key.counter ≤ m.replayCounter then none
    else if key.gtk ≠ gtk ∨ key.gtkId ≠ gtkId then none
    else some (key.counter,{ m with replayCounter := key.counter })

/-- The nonces of the exchange are the same. -/
def SameNonces (m m' : Message3Replay) : Prop :=
  m'.authenticatorNonce = m.authenticatorNonce ∧ m'.supplicantNonce = m.supplicantNonce

theorem accept_sameNonces {m m' : Message3Replay} {message : Option Message3} {gtk : Bytes 16}
    {gtkId counter : ℕ} (h : m.accept message gtk gtkId = some (counter,m')) :
    m.SameNonces m' := by
  unfold accept at h
  split at h
  · cases h
  · split at h
    · cases h
    · split at h
      · cases h
      · cases h
        exact ⟨rfl,rfl⟩

end Message3Replay

/-- The five live `KeySlot`s of a connection. A live slot is owned once. -/
structure KeySlots where
  keySlot : KeyRef → ℕ
  keySlot_injective : Function.Injective keySlot

/-- The lowest five slots, which the first connection acquires. -/
def KeySlots.lowest : KeySlots where
  keySlot
    | .pairwise => 4
    | .group i => i
  keySlot_injective := by
    rintro (_ | i) (_ | j) h <;> simp at h ⊢ <;> omega

inductive KeyType
  | pairwise
  | group
deriving DecidableEq

/-- `KeySlot::set_key` with CCMP parameters. -/
structure SetKey where
  keySlot : ℕ
  keyId : ℕ
  address : Bytes 6
  key : Bytes 16
  keyType : KeyType
deriving DecidableEq

inductive RsnPanic
  | groupKeyMissing
deriving DecidableEq

structure CryptoState where
  message3Replay : Message3Replay
  slots : KeySlots
  lastGroupMessage : Option GroupMessage1
  securityAssociations : SecurityAssociations

namespace CryptoState
variable (s : CryptoState)

def programPairwiseKey (bssid : Bytes 6) : SetKey where
  keySlot := s.slots.keySlot .pairwise
  keyId := 0
  address := bssid
  key := tk (r := .pairwise) s.securityAssociations.ptksa.key
  keyType := .pairwise

def programGroupKey (id : ℕ) (bssid : Bytes 6) : Except RsnPanic SetKey :=
  if h : id < 4 then
    match s.securityAssociations.groupKeys ⟨id,h⟩ with
    | none => .error .groupKeyMissing
    | some key => .ok ⟨s.slots.keySlot (.group ⟨id,h⟩),id,bssid,key.key,.group⟩
  else .error .groupKeyMissing

/-- `CryptoState::new` programs the PTK and the active GTK. -/
def new (slots : KeySlots) (bssid : Bytes 6) (sa : SecurityAssociations)
    (message3Replay : Message3Replay) : Except RsnPanic (CryptoState × List SetKey) :=
  let temp : CryptoState := ⟨message3Replay,slots,none,sa⟩
  match temp.programGroupKey sa.activeGroupId bssid with
  | .error e => .error e
  | .ok command => .ok (temp,[temp.programPairwiseKey bssid,command])

/-- An entry other than `id` holds the key bytes already. -/
def keyAtOtherId (id : Fin 4) (key : Bytes 16) : Prop :=
  ∃ other, other ≠ id ∧ ∃ a, s.securityAssociations.groupKeys other = some a ∧ a.key = key

instance (id : Fin 4) (key : Bytes 16) : Decidable (s.keyAtOtherId id key) :=
  decidable_of_iff (∃ other, other ≠ id ∧
      (s.securityAssociations.groupKeys other).any (fun a => decide (a.key = key)) = true) (by
    simp [keyAtOtherId,Option.any_eq_true])

def alreadyInstalled (id : Fin 4) (key : Bytes 16) : Bool :=
  (s.securityAssociations.groupKeys id).any (fun a => decide (a.key = key))

/-- The state after the key of `message` is in the table: a fresh association with
the receive floor of the message unless the same key is installed already. -/
def installGroupKey (id : Fin 4) (message : GroupMessage1) : CryptoState :=
  { s with securityAssociations := { s.securityAssociations with
      groupKeys := Function.update s.securityAssociations.groupKeys id
        (some ((TransientKeySecurityAssociation.new message.key message.keyId).withReceiveFloor
          message.rsc)) } }

/-- The commit at the end of `accept_group_message`. -/
def commitGroupMessage (message : GroupMessage1) : CryptoState :=
  { s with
    securityAssociations := { s.securityAssociations with activeGroupId := message.keyId }
    message3Replay := s.message3Replay.advance message.counter
    lastGroupMessage := some message }

/-- `CryptoState::accept_group_message`. `none` leaves the state as it is. -/
def acceptGroupMessage (message : GroupMessage1) (bssid : Bytes 6) :
    Except RsnPanic (Option (Bool × CryptoState × List SetKey)) :=
  let counter := s.message3Replay.replayCounter
  if message.counter < counter then .ok none
  else if message.counter = counter then
    .ok (if s.lastGroupMessage = some message then some (false,s,[]) else none)
  else if h : message.keyId < 4 then
    let id : Fin 4 := ⟨message.keyId,h⟩
    if s.keyAtOtherId id message.key then .ok none
    else if s.alreadyInstalled id message.key then
      .ok (some (false,s.commitGroupMessage message,[]))
    else
      let s' := s.installGroupKey id message
      match s'.programGroupKey message.keyId bssid with
      | .error e => .error e
      | .ok command => .ok (some (true,s'.commitGroupMessage message,[command]))
  else .ok none

end CryptoState

/-- The decoders of an EAPOL frame without its CCMP header: the group test on the key
information, `decode_group_message_1` and `decrypt_message_3` under KCK and KEK. -/
structure KeyFrameDecoder (F : Type*) where
  isGroup : F → Bool
  decodeGroupMessage1 : F → Bytes 16 → Bytes 16 → Option GroupMessage1
  decryptMessage3 : F → Bytes 16 → Bytes 16 → Option Message3

/-- What `handle_eapol_retry` sends after its closure. -/
inductive Reply
  | groupMessage2 (kck : Bytes 16) (counter : ℕ)
  | message4 (kck : Bytes 16) (nonce : Bytes 32) (counter : ℕ)
deriving DecidableEq

namespace CryptoState
variable {F : Type*} (d : KeyFrameDecoder F) (s : CryptoState)

def setPtksa (a : TransientKeySecurityAssociation 48) : CryptoState :=
  { s with securityAssociations := { s.securityAssociations with ptksa := a } }

def setGroupKey (id : Fin 4) (a : TransientKeySecurityAssociation 16) : CryptoState :=
  { s with securityAssociations := { s.securityAssociations with
      groupKeys := Function.update s.securityAssociations.groupKeys id (some a) } }

/-- The crypto closure of `process_potentially_wrapped_payload`. -/
def validateData (isGroup : Bool) (keyId packetNumber : ℕ) : Bool × CryptoState :=
  if isGroup then
    if h : keyId < 4 then
      match s.securityAssociations.groupKeys ⟨keyId,h⟩ with
      | none => (false,s)
      | some a =>
        let r := a.updateAndValidateReplayCounter packetNumber
        (r.1,s.setGroupKey ⟨keyId,h⟩ r.2)
    else (false,s)
  else if keyId = 0 then
    let r := s.securityAssociations.ptksa.updateAndValidateReplayCounter packetNumber
    (r.1,s.setPtksa r.2)
  else (false,s)

/-- The outer check of `handle_eapol_retry`; a clear frame passes. -/
def validateOuter (packetNumber : Option ℕ) : Bool × CryptoState :=
  match packetNumber with
  | none => (true,s)
  | some pn =>
    let r := s.securityAssociations.ptksa.updateAndValidateReplayCounter pn
    (r.1,s.setPtksa r.2)

/-- The part of `handle_eapol_retry` behind the outer check. -/
def processKeyFrame (bssid : Bytes 6) (frame : F) :
    Except RsnPanic (CryptoState × List SetKey × Option Reply) :=
  let ptk := s.securityAssociations.ptksa.key
  if d.isGroup frame then
    match d.decodeGroupMessage1 frame (kck ptk) (kek ptk) with
    | none => .ok (s,[],none)
    | some message =>
      match s.acceptGroupMessage message bssid with
      | .error e => .error e
      | .ok none => .ok (s,[],none)
      | .ok (some (_,s',commands)) =>
        .ok (s',commands,some (.groupMessage2 (kck ptk) message.counter))
  else
    match s.securityAssociations.groupKey s.securityAssociations.activeGroupId with
    | none => .error .groupKeyMissing
    | some gtk =>
      match s.message3Replay.accept (d.decryptMessage3 frame (kck ptk) (kek ptk)) gtk.key
          gtk.keyId with
      | none => .ok (s,[],none)
      | some (counter,m) =>
        .ok ({ s with message3Replay := m },[],
          some (.message4 (kck ptk) m.supplicantNonce counter))

/-- The crypto closure of `handle_eapol_retry`. -/
def handleEapolRetry (bssid : Bytes 6) (frame : F) (packetNumber : Option ℕ) :
    Except RsnPanic (CryptoState × List SetKey × Option Reply) :=
  let r := s.validateOuter packetNumber
  if r.1 then r.2.processKeyFrame d bssid frame else .ok (r.2,[],none)

/-- The GTK table and the commands to its slots change together, or not at all. -/
inductive TableChange (bssid : Bytes 6) (s t : CryptoState) : List SetKey → Prop
  | kept (h : t.securityAssociations.groupKeys = s.securityAssociations.groupKeys) :
      TableChange bssid s t []
  | installed (id : Fin 4) (m : GroupMessage1) (hother : s.alreadyInstalled id m.key = false)
      (h : t.securityAssociations.groupKeys = Function.update s.securityAssociations.groupKeys id
        (some ((TransientKeySecurityAssociation.new m.key m.keyId).withReceiveFloor m.rsc))) :
      TableChange bssid s t [⟨s.slots.keySlot (.group id),m.keyId,bssid,m.key,.group⟩]

variable {d} {s} {t : CryptoState} {bssid : Bytes 6} {commands : List SetKey}

theorem acceptGroupMessage_some {m : GroupMessage1} {b : Bool}
    (h : s.acceptGroupMessage m bssid = .ok (some (b,t,commands))) :
    t.slots = s.slots ∧ t.securityAssociations.ptksa = s.securityAssociations.ptksa ∧
      s.message3Replay.SameNonces t.message3Replay ∧ TableChange bssid s t commands := by
  unfold acceptGroupMessage at h
  by_cases hlt : m.counter < s.message3Replay.replayCounter
  · simp only [if_pos hlt] at h
    cases h
  · by_cases heq : m.counter = s.message3Replay.replayCounter
    · simp only [if_neg hlt,if_pos heq] at h
      by_cases hlast : s.lastGroupMessage = some m
      · rw [if_pos hlast] at h
        cases h
        exact ⟨rfl,rfl,⟨rfl,rfl⟩,.kept rfl⟩
      · rw [if_neg hlast] at h
        cases h
    · by_cases hid : m.keyId < 4
      · simp only [if_neg hlt,if_neg heq,dif_pos hid] at h
        by_cases hother : s.keyAtOtherId ⟨m.keyId,hid⟩ m.key
        · rw [if_pos hother] at h
          cases h
        · rw [if_neg hother] at h
          cases hinst : s.alreadyInstalled ⟨m.keyId,hid⟩ m.key with
          | true =>
            simp only [hinst,if_true] at h
            cases h
            exact ⟨rfl,rfl,⟨rfl,rfl⟩,.kept rfl⟩
          | false =>
            simp only [hinst,Bool.false_eq_true,if_false,programGroupKey,dif_pos hid,
              installGroupKey,Function.update_self] at h
            cases h
            exact ⟨rfl,rfl,⟨rfl,rfl⟩,.installed _ m hinst rfl⟩
      · simp only [if_neg hlt,if_neg heq,dif_neg hid] at h
        cases h

theorem processKeyFrame_ok {frame : F} {reply : Option Reply}
    (h : s.processKeyFrame d bssid frame = .ok (t,commands,reply)) :
    t.slots = s.slots ∧ t.securityAssociations.ptksa = s.securityAssociations.ptksa ∧
      s.message3Replay.SameNonces t.message3Replay ∧ TableChange bssid s t commands := by
  unfold processKeyFrame at h
  cases hg : d.isGroup frame with
  | true =>
    simp only [hg,if_true] at h
    split at h
    · cases h
      exact ⟨rfl,rfl,⟨rfl,rfl⟩,.kept rfl⟩
    · split at h
      · cases h
      · cases h
        exact ⟨rfl,rfl,⟨rfl,rfl⟩,.kept rfl⟩
      · rename_i hacc
        cases h
        exact acceptGroupMessage_some hacc
  | false =>
    simp only [hg,Bool.false_eq_true,if_false] at h
    split at h
    · cases h
    · split at h
      · cases h
        exact ⟨rfl,rfl,⟨rfl,rfl⟩,.kept rfl⟩
      · rename_i hacc
        cases h
        exact ⟨rfl,rfl,Message3Replay.accept_sameNonces hacc,.kept rfl⟩

theorem validateOuter_frame (s : CryptoState) (packetNumber : Option ℕ) :
    (s.validateOuter packetNumber).2.slots = s.slots ∧
      (s.validateOuter packetNumber).2.message3Replay = s.message3Replay ∧
      (s.validateOuter packetNumber).2.securityAssociations.groupKeys =
        s.securityAssociations.groupKeys := by
  cases packetNumber <;> exact ⟨rfl,rfl,rfl⟩

theorem handleEapolRetry_ok {frame : F} {packetNumber : Option ℕ} {reply : Option Reply}
    (h : s.handleEapolRetry d bssid frame packetNumber = .ok (t,commands,reply)) :
    t.slots = s.slots ∧
      t.securityAssociations.ptksa = (s.validateOuter packetNumber).2.securityAssociations.ptksa ∧
      s.message3Replay.SameNonces t.message3Replay ∧ TableChange bssid s t commands := by
  obtain ⟨hslots,hreplay,htable⟩ := s.validateOuter_frame packetNumber
  unfold handleEapolRetry at h
  cases hv : (s.validateOuter packetNumber).1 with
  | false =>
    simp only [hv,Bool.false_eq_true,if_false] at h
    cases h
    refine ⟨hslots,rfl,?_,.kept htable⟩
    rw [hreplay]
    exact ⟨rfl,rfl⟩
  | true =>
    simp only [hv,if_true] at h
    obtain ⟨h₁,h₂,h₃,h₄⟩ := processKeyFrame_ok h
    rw [hreplay] at h₃
    refine ⟨h₁.trans hslots,h₂,h₃,?_⟩
    cases h₄ with
    | kept hkeys => exact .kept (hkeys.trans htable)
    | installed id m hother hkeys =>
      rw [hslots]
      rw [htable] at hkeys
      rw [alreadyInstalled,htable] at hother
      exact .installed id m hother hkeys

theorem updateAndValidate_key {N : ℕ} (a : TransientKeySecurityAssociation N) (pn : ℕ) :
    (a.updateAndValidateReplayCounter pn).2.key = a.key ∧
      (a.updateAndValidateReplayCounter pn).2.packetNumber = a.packetNumber := by
  unfold TransientKeySecurityAssociation.updateAndValidateReplayCounter
  split <;> exact ⟨rfl,rfl⟩

theorem validateData_frame (s : CryptoState) (isGroup : Bool) (keyId packetNumber : ℕ) :
    (s.validateData isGroup keyId packetNumber).2.slots = s.slots ∧
      (s.validateData isGroup keyId packetNumber).2.message3Replay = s.message3Replay ∧
      (s.validateData isGroup keyId packetNumber).2.securityAssociations.ptksa.key =
        s.securityAssociations.ptksa.key ∧
      (s.validateData isGroup keyId packetNumber).2.securityAssociations.ptksa.packetNumber =
        s.securityAssociations.ptksa.packetNumber := by
  unfold validateData
  split
  · split
    · split <;> exact ⟨rfl,rfl,rfl,rfl⟩
    · exact ⟨rfl,rfl,rfl,rfl⟩
  · split
    · exact ⟨rfl,rfl,updateAndValidate_key _ _⟩
    · exact ⟨rfl,rfl,rfl,rfl⟩

theorem validateOuter_key (s : CryptoState) (packetNumber : Option ℕ) :
    (s.validateOuter packetNumber).2.securityAssociations.ptksa.key =
        s.securityAssociations.ptksa.key ∧
      (s.validateOuter packetNumber).2.securityAssociations.ptksa.packetNumber =
        s.securityAssociations.ptksa.packetNumber := by
  cases packetNumber with
  | none => exact ⟨rfl,rfl⟩
  | some pn => exact updateAndValidate_key _ _

/-- The same slots, PTK and nonces: what the 4-way handshake of a connection fixes. -/
def SameHandshake (s t : CryptoState) : Prop :=
  t.slots = s.slots ∧ t.securityAssociations.ptksa.key = s.securityAssociations.ptksa.key ∧
    s.message3Replay.SameNonces t.message3Replay

theorem handleEapolRetry_sameHandshake {frame : F} {packetNumber : Option ℕ}
    {reply : Option Reply}
    (h : s.handleEapolRetry d bssid frame packetNumber = .ok (t,commands,reply)) :
    s.SameHandshake t := by
  obtain ⟨hslots,hptk,hnonces,_⟩ := handleEapolRetry_ok h
  refine ⟨hslots,?_,hnonces⟩
  rw [hptk]
  exact (s.validateOuter_key packetNumber).1

theorem validateData_sameHandshake (s : CryptoState) (isGroup : Bool) (keyId packetNumber : ℕ) :
    s.SameHandshake (s.validateData isGroup keyId packetNumber).2 := by
  obtain ⟨hslots,hreplay,hkey,_⟩ := s.validateData_frame isGroup keyId packetNumber
  refine ⟨hslots,hkey,?_⟩
  rw [hreplay]
  exact ⟨rfl,rfl⟩

/-- The associations of a finished handshake have an active GTK, so `new` does not panic. -/
theorem new_established (slots : KeySlots) (bssid : Bytes 6) (ptk : Bytes 48) (gtk : Bytes 16)
    (gtkId : Fin 4) (m : Message3Replay) :
    CryptoState.new slots bssid (.established ptk gtk gtkId) m =
      .ok (⟨m,slots,none,.established ptk gtk gtkId⟩,
        [⟨slots.keySlot .pairwise,0,bssid,tk (r := .pairwise) ptk,.pairwise⟩,
          ⟨slots.keySlot (.group gtkId),gtkId,bssid,gtk,.group⟩]) := by
  simp only [CryptoState.new,programGroupKey,SecurityAssociations.established,Fin.is_lt,dif_pos,
    Fin.eta,Function.update_self]
  rfl

end CryptoState
end FerrisOnAir.Rsn

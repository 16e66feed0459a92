import FerrisOnAir.Rsn.SecurityAssociation

/-! # EAPOL key frames

`key_envelope` of `foa_sta/src/rsn_retransmit.rs` and the decoders on top of it. Parsing
the 802.11 header and `deserialize_eapol_data_frame`, which checks the MIC and unwraps
the key data, are taken from the `ieee80211` crate and parameters here. An envelope
carries the length checks, so every later access is in range.
-/
namespace FerrisOnAir.Rsn

/-- A parsed data frame, as far as the envelope is concerned. -/
structure DataFrame where
  address1 : Bytes 6
  address2 : Bytes 6
  fromDs : Bool
  toDs : Bool
  isProtected : Bool
  payload : Option (List UInt8)

/-- `u16::from_be_bytes`. -/
def beU16 (a b : UInt8) : ℕ := 256 * a.toNat + b.toNat

/-- `u64::from_be_bytes` on a slice; from the back it is `u64::from_le_bytes`. -/
def beU64 (bytes : List UInt8) : ℕ := bytes.foldl (fun n b => 256 * n + b.toNat) 0

/-- The slice that `key_envelope` returns. -/
structure KeyEnvelope where
  eapol : List UInt8
  length_ge : 99 ≤ eapol.length
  bodyLength : beU16 eapol[2] eapol[3] + 4 = eapol.length
  dataLength : beU16 eapol[97] eapol[98] + 99 = eapol.length

namespace KeyEnvelope
variable (e : KeyEnvelope)

/-- A byte of the fixed part. -/
def byte (i : ℕ) (h : i < 99) : UInt8 := e.eapol.get ⟨i,h.trans_le e.length_ge⟩

def keyInformation : ℕ := beU16 (e.byte 5 (by decide)) (e.byte 6 (by decide))

def replayCounter : ℕ := beU64 ((e.eapol.drop 9).take 8)

def keyNonce : Bytes 32 := fun i => e.byte (17 + i) (by omega)

/-- The CCMP packet number among the eight bytes of the RSC. -/
def rsc : ℕ := beU64 ((e.eapol.drop 65).take 6).reverse

def dataLen : ℕ := e.eapol.length - 99

end KeyEnvelope

def eapolLlc : List UInt8 := [0xaa,0xaa,3,0,0,0,0x88,0x8e]

/-- `key_envelope` on a parsed frame. -/
def keyEnvelope (frame : DataFrame) (ownAddress bssid : Bytes 6) (group : Bool) :
    Option KeyEnvelope :=
  if frame.address1 ≠ ownAddress ∨ frame.address2 ≠ bssid ∨ frame.fromDs = false ∨
      frame.toDs = true ∨ frame.isProtected = true then none
  else match frame.payload with
    | none => none
    | some payload =>
      if payload.take 8 ≠ eapolLlc then none
      else
        let eapol := payload.drop 8
        if h : 99 ≤ eapol.length then
          if (eapol[0] ≠ 1 ∧ eapol[0] ≠ 2) ∨ eapol[1] ≠ 3 ∨ eapol[4] ≠ 2 ∨
              ¬ (beU16 eapol[7] eapol[8] = 16 ∨ group = true ∧ eapol[7] = 0 ∧ eapol[8] = 0) then
            none
          else if hl : beU16 eapol[2] eapol[3] + 4 = eapol.length ∧
              beU16 eapol[97] eapol[98] + 99 = eapol.length then some ⟨eapol,h,hl.1,hl.2⟩
          else none
        else none

/-- The envelope of a pairwise message also passes as that of a group message. -/
theorem keyEnvelope_group {frame : DataFrame} {ownAddress bssid : Bytes 6} {e : KeyEnvelope}
    (h : keyEnvelope frame ownAddress bssid false = some e) :
    keyEnvelope frame ownAddress bssid true = some e := by
  unfold keyEnvelope at h ⊢
  split at h
  · cases h
  · rename_i haddr
    rw [if_neg haddr]
    cases hp : frame.payload with
    | none => simp only [hp] at h; cases h
    | some payload =>
      simp only [hp] at h ⊢
      split at h
      · cases h
      · rename_i hllc
        rw [if_neg hllc]
        split at h
        · rename_i hlen
          rw [dif_pos hlen]
          split at h
          · cases h
          · rename_i hfields
            rw [if_neg]
            · exact h
            · intro hno
              apply hfields
              rcases hno with hno | hno | hno | hno
              · exact Or.inl hno
              · exact Or.inr (Or.inl hno)
              · exact Or.inr (Or.inr (Or.inl hno))
              · refine Or.inr (Or.inr (Or.inr ?_))
                rintro (h16 | ⟨hg,_⟩)
                · exact hno (Or.inl h16)
                · cases hg
        · cases h

/-- The payload of an accepted frame is the LLC header and the envelope. -/
theorem keyEnvelope_eapol {frame : DataFrame} {ownAddress bssid : Bytes 6} {group : Bool}
    {e : KeyEnvelope} (h : keyEnvelope frame ownAddress bssid group = some e) :
    frame.payload = some (eapolLlc ++ e.eapol) := by
  unfold keyEnvelope at h
  split at h
  · cases h
  · cases hp : frame.payload with
    | none => simp only [hp] at h; cases h
    | some payload =>
      simp only [hp] at h
      split at h
      · cases h
      · rename_i hllc
        rw [← not_not.mp hllc]
        split at h
        · split at h
          · cases h
          · split at h <;> cases h
            rw [List.take_append_drop]
        · cases h

/-- The fields the station reads from a deserialized key frame: the nonce, the counter and
the first GTK element with its ID of two bits. -/
structure EapolKeyFrame where
  keyNonce : Bytes 32
  keyReplayCounter : ℕ
  gtk : Option (List UInt8 × Fin 4)

/-- The functions of the `ieee80211` crate. -/
structure EapolCodec (F : Type*) where
  dataFrame : F → Option DataFrame
  deserializeEapolDataFrame : F → Bytes 16 → Bytes 16 → Option EapolKeyFrame

/-- `TryFrom<&[u8]>` for an array. -/
def tryIntoBytes (n : ℕ) (bytes : List UInt8) : Option (Bytes n) :=
  if h : bytes.length = n then some (fun i => bytes.get ⟨i,by omega⟩) else none

namespace EapolCodec
variable {F : Type*} (codec : EapolCodec F) (ownAddress bssid : Bytes 6) (scratch : ℕ)

def keyPayload (frame : F) : Option KeyEnvelope :=
  (codec.dataFrame frame).bind (fun f => keyEnvelope f ownAddress bssid false)

def groupKeyPayload (frame : F) : Option KeyEnvelope :=
  (codec.dataFrame frame).bind (fun f => keyEnvelope f ownAddress bssid true)

/-- The bounds on the key data before it is unwrapped into the scratch buffer. -/
def unwrappable (e : KeyEnvelope) : Bool :=
  !(e.dataLen < 24 || e.dataLen % 8 ≠ 0 || e.dataLen - 8 > scratch)

def decryptMessage3 (frame : F) (kck kek : Bytes 16) : Option Message3 :=
  match codec.keyPayload ownAddress bssid frame with
  | none => none
  | some e =>
    if e.keyInformation ≠ 0x13ca ∨ unwrappable scratch e = false then none
    else match codec.deserializeEapolDataFrame frame kck kek with
      | none => none
      | some key =>
        match key.gtk with
        | none => none
        | some (gtk,gtkId) => (tryIntoBytes 16 gtk).map (fun gtk =>
            ⟨key.keyNonce,key.keyReplayCounter,gtk,gtkId⟩)

def decodeGroupMessage1 (frame : F) (kck kek : Bytes 16) : Option GroupMessage1 :=
  match codec.groupKeyPayload ownAddress bssid frame with
  | none => none
  | some e =>
    if e.keyInformation ≠ 0x1382 ∨ unwrappable scratch e = false then none
    else if e.byte 71 (by decide) ≠ 0 ∨ e.byte 72 (by decide) ≠ 0 then none
    else match codec.deserializeEapolDataFrame frame kck kek with
      | none => none
      | some key =>
        match key.gtk with
        | none => none
        | some (gtk,gtkId) => (tryIntoBytes 16 gtk).map (fun gtk =>
            ⟨key.keyReplayCounter,key.keyNonce,gtk,gtkId,e.rsc⟩)

/-- The group test of `handle_eapol_retry`. -/
def isGroup (frame : F) : Bool :=
  (codec.groupKeyPayload ownAddress bssid frame).any (fun e => e.keyInformation == 0x1382)

def decoder : KeyFrameDecoder F where
  isGroup := codec.isGroup ownAddress bssid
  decodeGroupMessage1 := codec.decodeGroupMessage1 ownAddress bssid scratch
  decryptMessage3 := codec.decryptMessage3 ownAddress bssid scratch

/-- The counter field of a key frame. -/
def counter (frame : F) : Option ℕ :=
  (codec.groupKeyPayload ownAddress bssid frame).map KeyEnvelope.replayCounter

/-- Deserializing a key frame reads its counter field. -/
def ReadsCounter : Prop :=
  ∀ frame kck kek key e, codec.groupKeyPayload ownAddress bssid frame = some e →
    codec.deserializeEapolDataFrame frame kck kek = some key →
    key.keyReplayCounter = e.replayCounter

variable {codec ownAddress bssid scratch} {frame : F} {kck kek : Bytes 16}

theorem keyPayload_group {e : KeyEnvelope} (h : codec.keyPayload ownAddress bssid frame = some e) :
    codec.groupKeyPayload ownAddress bssid frame = some e := by
  obtain ⟨f,hf,he⟩ := Option.bind_eq_some_iff.mp h
  exact Option.bind_eq_some_iff.mpr ⟨f,hf,keyEnvelope_group he⟩

/-- What an accepted third message of the exchange went through. -/
theorem decryptMessage3_some {m : Message3}
    (h : codec.decryptMessage3 ownAddress bssid scratch frame kck kek = some m) : ∃ e key,
      codec.keyPayload ownAddress bssid frame = some e ∧ e.keyInformation = 0x13ca ∧
      codec.deserializeEapolDataFrame frame kck kek = some key ∧
      m.counter = key.keyReplayCounter ∧ m.gtkId < 4 := by
  unfold decryptMessage3 at h
  cases he : codec.keyPayload ownAddress bssid frame with
  | none => simp only [he] at h; cases h
  | some e =>
    simp only [he] at h
    split at h
    · cases h
    · rename_i hchecks
      cases hk : codec.deserializeEapolDataFrame frame kck kek with
      | none => simp only [hk] at h; cases h
      | some key =>
        simp only [hk] at h
        split at h
        · cases h
        · obtain ⟨gtk,_,rfl⟩ := Option.map_eq_some_iff.mp h
          refine ⟨e,key,rfl,?_,rfl,rfl,Fin.isLt _⟩
          by_contra hne
          exact hchecks (Or.inl hne)

theorem decodeGroupMessage1_some {m : GroupMessage1}
    (h : codec.decodeGroupMessage1 ownAddress bssid scratch frame kck kek = some m) : ∃ e key,
      codec.groupKeyPayload ownAddress bssid frame = some e ∧
      codec.deserializeEapolDataFrame frame kck kek = some key ∧
      m.counter = key.keyReplayCounter := by
  unfold decodeGroupMessage1 at h
  cases he : codec.groupKeyPayload ownAddress bssid frame with
  | none => simp only [he] at h; cases h
  | some e =>
    simp only [he] at h
    split at h
    · cases h
    · split at h
      · cases h
      · cases hk : codec.deserializeEapolDataFrame frame kck kek with
        | none => simp only [hk] at h; cases h
        | some key =>
          simp only [hk] at h
          split at h
          · cases h
          · obtain ⟨gtk,_,rfl⟩ := Option.map_eq_some_iff.mp h
            exact ⟨e,key,rfl,rfl,rfl⟩

/-- Both decoders return the counter field of the frame. -/
theorem decryptMessage3_counter (hc : codec.ReadsCounter ownAddress bssid) {m : Message3}
    (h : codec.decryptMessage3 ownAddress bssid scratch frame kck kek = some m) :
    codec.counter ownAddress bssid frame = some m.counter := by
  obtain ⟨e,key,he,_,hk,hm,_⟩ := decryptMessage3_some h
  rw [counter,keyPayload_group he,Option.map_some,hm,hc _ _ _ _ _ (keyPayload_group he) hk]

theorem decodeGroupMessage1_counter (hc : codec.ReadsCounter ownAddress bssid) {m : GroupMessage1}
    (h : codec.decodeGroupMessage1 ownAddress bssid scratch frame kck kek = some m) :
    codec.counter ownAddress bssid frame = some m.counter := by
  obtain ⟨e,key,he,hk,hm⟩ := decodeGroupMessage1_some h
  rw [counter,he,Option.map_some,hm,hc _ _ _ _ _ he hk]

end EapolCodec

/-- A clear key frame between two equal addresses, with zero nonce and 24 bytes of key
data. -/
def DataFrame.clear (keyInformation counter : ℕ) : DataFrame where
  address1 := 0
  address2 := 0
  fromDs := true
  toDs := false
  isProtected := false
  payload := some (eapolLlc ++ [2,3,0,119,2] ++
    [UInt8.ofNat (keyInformation / 256),UInt8.ofNat keyInformation,0,16] ++ List.replicate 7 0 ++
    [UInt8.ofNat counter] ++ List.replicate 80 0 ++ [0,24] ++ List.replicate 24 0)

/-- Reads the counter field and finds a key of sixteen sevens with ID 3 in the key data. -/
def EapolCodec.reading : EapolCodec DataFrame where
  dataFrame := some
  deserializeEapolDataFrame frame _ _ := frame.payload.map (fun payload =>
    ⟨0,beU64 ((payload.drop 17).take 8),some (List.replicate 16 7,Fin.last 3)⟩)

theorem EapolCodec.reading_readsCounter (ownAddress bssid : Bytes 6) :
    EapolCodec.reading.ReadsCounter ownAddress bssid := by
  intro frame kck kek key e he hk
  obtain ⟨f,hf,hf'⟩ := Option.bind_eq_some_iff.mp he
  cases hf
  have hp := keyEnvelope_eapol hf'
  simp only [reading,hp,Option.map_some,Option.some.injEq] at hk
  subst hk
  rfl

end FerrisOnAir.Rsn

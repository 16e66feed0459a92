import FerrisOnAir.Foundation.Slices
import FerrisOnAir.Rsn.InitialHandshake
import FerrisOnAir.Sta.EapolFraming

/-! # Key frames byte by byte

`key_envelope` of `foa_sta/src/rsn_retransmit.rs` and the functions that index what it
returns, with every index, range and subtraction checked where the source makes it. None
of them panics, and they return what the functions of `Rsn.KeyEnvelope` return. Parsing
the data frame and the decoder are those of the `ieee80211` crate and parameters here.
-/
namespace FerrisOnAir.Sta
open Rsn Slices

/-- What the key frames need of the `ieee80211` crate. The decoder works in the buffer and
in a scratch buffer. -/
structure KeyFrameCrate where
  dataFrame : List UInt8 → Option DataFrame
  deserializeEapolDataFrame : Bytes 16 → Bytes 16 → List UInt8 → List UInt8 → Option EapolKeyFrame

/-- A call of `deserialize_eapol_data_frame`. -/
structure DecoderCall where
  buffer : List UInt8
  scratch : List UInt8

/-- `slice.get(..n)`. -/
def getTo (xs : List UInt8) (n : ℕ) : Option (List UInt8) :=
  if n ≤ xs.length then some (xs.take n) else none

/-- `slice.get(n..)`. -/
def getFrom (xs : List UInt8) (n : ℕ) : Option (List UInt8) :=
  if n ≤ xs.length then some (xs.drop n) else none

/-- The last test on the fixed fields: a key length of 16, or of zero in a group message. -/
def checkKeyLength (eapol : List UInt8) (group : Bool) : Run DecoderCall Unit := do
  let high ← Run.index eapol 7
  let low ← Run.index eapol 8
  if beU16 high low = 16 then return ()
  else
    Run.rejectIf (group = false)
    let keyLength ← Run.range eapol 7 9
    Run.rejectIf (keyLength ≠ [0,0])

/-- The tests on the fixed fields. -/
def checkFields (eapol : List UInt8) (group : Bool) : Run DecoderCall Unit := do
  Run.rejectIf (eapol.length < 99)
  let version ← Run.index eapol 0
  Run.rejectIf (¬ (version = 1 ∨ version = 2))
  let packetType ← Run.index eapol 1
  Run.rejectIf (packetType ≠ 3)
  let descriptor ← Run.index eapol 4
  Run.rejectIf (descriptor ≠ 2)
  checkKeyLength eapol group

/-- The body and the key data have the lengths their fields say. -/
def checkLengths (eapol : List UInt8) : Run DecoderCall Unit := do
  let bodyHigh ← Run.index eapol 2
  let bodyLow ← Run.index eapol 3
  let dataHigh ← Run.index eapol 97
  let dataLow ← Run.index eapol 98
  Run.rejectIf (beU16 bodyHigh bodyLow + 4 ≠ eapol.length ∨
    beU16 dataHigh dataLow + 99 ≠ eapol.length)

/-- The tests on the key data, each made only if the ones before it passed. -/
def checkKeyData (dataLen : ℕ) (scratch : List UInt8) : Run DecoderCall Unit := do
  Run.rejectIf (dataLen < 24)
  Run.rejectIf (dataLen % 8 ≠ 0)
  let unwrapped ← Run.sub dataLen 8
  Run.rejectIf (unwrapped > scratch.length)

namespace KeyFrameCrate
variable (crate : KeyFrameCrate) (buffer scratch : List UInt8) (own bssid : Bytes 6)
  (kck kek : Bytes 16)

/-- `key_envelope`. -/
def keyEnvelope (group : Bool) : Run DecoderCall (List UInt8) := do
  let frame ← Run.ofOption (crate.dataFrame buffer)
  Run.rejectIf (frame.address1 ≠ own ∨ frame.address2 ≠ bssid ∨ frame.fromDs = false ∨
    frame.toDs = true ∨ frame.isProtected = true)
  let payload ← Run.ofOption frame.payload
  let llc ← Run.ofOption (getTo payload 8)
  Run.rejectIf (llc ≠ [0xaa,0xaa,3,0,0,0,0x88,0x8e])
  let eapol ← Run.ofOption (getFrom payload 8)
  checkFields eapol group
  checkLengths eapol
  return eapol

def keyPayload : Run DecoderCall (List UInt8) := crate.keyEnvelope buffer own bssid false

def groupKeyPayload : Run DecoderCall (List UInt8) := crate.keyEnvelope buffer own bssid true

/-- `InitialHandshake::from_message_1`. -/
def fromMessage1 : Run DecoderCall InitialHandshake := do
  let key ← crate.keyPayload buffer own bssid
  let high ← Run.index key 5
  let low ← Run.index key 6
  Run.rejectIf (beU16 high low ≠ 0x008a)
  let nonce ← Run.range key 17 49
  let nonce ← Run.ofOption (tryIntoBytes 32 nonce)
  let counter ← Run.range key 9 17
  let counter ← Run.ofOption (tryIntoBytes 8 counter)
  return ⟨nonce,beU64 (List.ofFn counter)⟩

/-- `decrypt_message_3`. -/
def decryptMessage3 : Run DecoderCall Message3 := do
  let eapol ← crate.keyPayload buffer own bssid
  let dataLen ← Run.sub eapol.length 99
  let high ← Run.index eapol 5
  let low ← Run.index eapol 6
  Run.rejectIf (beU16 high low ≠ 0x13ca)
  checkKeyData dataLen scratch
  Run.call ⟨buffer,scratch⟩
  let key ← Run.ofOption (crate.deserializeEapolDataFrame kck kek buffer scratch)
  let gtk ← Run.ofOption key.gtk
  let bytes ← Run.ofOption (tryIntoBytes 16 gtk.1)
  return ⟨key.keyNonce,key.keyReplayCounter,bytes,gtk.2⟩

/-- `decode_group_message_1`. -/
def decodeGroupMessage1 : Run DecoderCall GroupMessage1 := do
  let envelope ← crate.groupKeyPayload buffer own bssid
  let high ← Run.index envelope 5
  let low ← Run.index envelope 6
  Run.rejectIf (beU16 high low ≠ 0x1382)
  let dataLen ← Run.sub envelope.length 99
  checkKeyData dataLen scratch
  let reserved ← Run.range envelope 71 73
  Run.rejectIf (reserved ≠ [0,0])
  let counter ← Run.range envelope 65 71
  let rscBytes ← Run.copyFromSlice (List.replicate 8 0) 0 6 counter
  Run.call ⟨buffer,scratch⟩
  let key ← Run.ofOption (crate.deserializeEapolDataFrame kck kek buffer scratch)
  let gtk ← Run.ofOption key.gtk
  let bytes ← Run.ofOption (tryIntoBytes 16 gtk.1)
  return ⟨key.keyReplayCounter,key.keyNonce,bytes,gtk.2,beU64 rscBytes.reverse⟩

/-- The test of `handle_eapol_retry`. -/
def isGroup : Run DecoderCall Bool :=
  (crate.groupKeyPayload buffer own bssid).isSomeAnd (fun key => do
    let high ← Run.index key 5
    let low ← Run.index key 6
    return beU16 high low == 0x1382)

/-- The functions of the crate as the key frame rules use them. -/
def codec : EapolCodec (List UInt8) where
  dataFrame := crate.dataFrame
  deserializeEapolDataFrame buffer kck kek :=
    crate.deserializeEapolDataFrame kck kek buffer scratch

/-- Every length the decoder relies on: both length fields describe exactly the bytes that
remain, and the key data is whole blocks that fit the scratch buffer once unwrapped. -/
def Ready (c : DecoderCall) : Prop :=
  ∃ frame eapol, crate.dataFrame c.buffer = some frame ∧
    frame.payload = some (eapolLlc ++ eapol) ∧ 99 ≤ eapol.length ∧
    beU16 (eapol.getD 2 0) (eapol.getD 3 0) = eapol.length - 4 ∧
    beU16 (eapol.getD 97 0) (eapol.getD 98 0) = eapol.length - 99 ∧
    24 ≤ eapol.length - 99 ∧ 8 ∣ eapol.length - 99 ∧
    eapol.length - 99 - 8 ≤ c.scratch.length

/-- The frame control field fixes the length of the header, and the payload is all that
follows it. -/
def HeaderFirst : Prop :=
  ∃ headerLength : List UInt8 → ℕ, ∀ b frame payload, crate.dataFrame b = some frame →
    frame.payload = some payload → 2 ≤ headerLength (b.take 2) ∧
      headerLength (b.take 2) ≤ b.length ∧ payload = b.drop (headerLength (b.take 2))

/-- One of the functions takes the frame for a key frame. -/
def Accepts : Prop :=
  (∃ group eapol, (crate.keyEnvelope buffer own bssid group).result = .ok (some eapol)) ∨
  (∃ pending, (crate.fromMessage1 buffer own bssid).result = .ok (some pending)) ∨
  (∃ scratch kck kek m,
    (crate.decryptMessage3 buffer scratch own bssid kck kek).result = .ok (some m)) ∨
  (∃ scratch kck kek m,
    (crate.decodeGroupMessage1 buffer scratch own bssid kck kek).result = .ok (some m)) ∨
  (crate.isGroup buffer own bssid).result = .ok (some true)

/-- All of them turn it down, and none reaches the decoder. -/
structure Rejects : Prop where
  keyEnvelope : ∀ group, crate.keyEnvelope buffer own bssid group = ⟨.ok none,[]⟩
  fromMessage1 : crate.fromMessage1 buffer own bssid = ⟨.ok none,[]⟩
  decryptMessage3 : ∀ scratch kck kek,
    crate.decryptMessage3 buffer scratch own bssid kck kek = ⟨.ok none,[]⟩
  decodeGroupMessage1 : ∀ scratch kck kek,
    crate.decodeGroupMessage1 buffer scratch own bssid kck kek = ⟨.ok none,[]⟩
  isGroup : crate.isGroup buffer own bssid = ⟨.ok (some false),[]⟩

end KeyFrameCrate

section Checks
variable {eapol scratch : List UInt8} {group : Bool} {P : DecoderCall → Prop}

theorem take_two_drop {α : Type} {xs : List α} {i : ℕ} (h : i + 1 < xs.length) :
    (xs.drop i).take 2 = [xs[i],xs[i + 1]] := by
  rw [List.drop_eq_getElem_cons (by omega),List.take_succ_cons,List.drop_eq_getElem_cons h,
    List.take_succ_cons,List.take_zero]

theorem checkKeyLength_ends (h : 99 ≤ eapol.length) :
    (checkKeyLength eapol group).Ends P
      (if beU16 eapol[7] eapol[8] = 16 ∨ group = true ∧ eapol[7] = 0 ∧ eapol[8] = 0 then some ()
      else none) := by
  unfold checkKeyLength
  refine .index (by omega) (.index (by omega) ?_)
  by_cases h16 : beU16 eapol[7] eapol[8] = 16
  · rw [if_pos h16,if_pos (Or.inl h16)]
    exact .pure ()
  · rw [if_neg h16]
    cases group with
    | false =>
      rw [if_neg (by simp [h16])]
      exact .rejectIf_pos rfl
    | true =>
      refine .rejectIf_neg Bool.true_eq_false.mp (.range (by omega) (by omega) ?_)
      have hpair : (eapol.drop 7).take (9 - 7) = [eapol[7],eapol[8]] := take_two_drop (by omega)
      have hzero : (if [eapol[7],eapol[8]] ≠ [0,0] then none else some ()) =
          if beU16 eapol[7] eapol[8] = 16 ∨ true = true ∧ eapol[7] = 0 ∧ eapol[8] = 0 then some ()
          else none := by
        by_cases hz : eapol[7] = 0 ∧ eapol[8] = 0
        · simp [hz]
        · simp [hz,h16]
      rw [hpair,← hzero]
      exact .rejectIf

theorem checkFields_short (h : ¬ 99 ≤ eapol.length) : (checkFields eapol group).Ends P none :=
  .rejectIf_pos (Nat.not_le.mp h)

theorem checkFields_ends (h : 99 ≤ eapol.length) : (checkFields eapol group).Ends P
    (if (eapol[0] ≠ 1 ∧ eapol[0] ≠ 2) ∨ eapol[1] ≠ 3 ∨ eapol[4] ≠ 2 ∨
      ¬ (beU16 eapol[7] eapol[8] = 16 ∨ group = true ∧ eapol[7] = 0 ∧ eapol[8] = 0) then none
    else some ()) := by
  unfold checkFields
  refine .rejectIf_neg (Nat.not_lt.mpr h) (.index (by omega) ?_)
  by_cases hversion : eapol[0] = 1 ∨ eapol[0] = 2
  · refine .rejectIf_neg (not_not.mpr hversion) (.index (by omega) ?_)
    by_cases htype : eapol[1] = 3
    · refine .rejectIf_neg (not_not.mpr htype) (.index (by omega) ?_)
      by_cases hdescriptor : eapol[4] = 2
      · refine .rejectIf_neg (not_not.mpr hdescriptor) ?_
        have hversion' : ¬ (eapol[0] ≠ 1 ∧ eapol[0] ≠ 2) := by tauto
        simp only [hversion',htype,hdescriptor,false_or,ne_eq,not_true_eq_false,ite_not]
        exact checkKeyLength_ends h
      · rw [if_pos (Or.inr (Or.inr (Or.inl hdescriptor)))]
        exact .rejectIf_pos hdescriptor
    · rw [if_pos (Or.inr (Or.inl htype))]
      exact .rejectIf_pos htype
  · rw [if_pos (Or.inl (not_or.mp hversion))]
    exact .rejectIf_pos hversion

theorem checkLengths_ends (h₂ : 2 < eapol.length) (h₃ : 3 < eapol.length)
    (h₉₇ : 97 < eapol.length) (h₉₈ : 98 < eapol.length) : (checkLengths eapol).Ends P
    (if beU16 eapol[2] eapol[3] + 4 = eapol.length ∧ beU16 eapol[97] eapol[98] + 99 = eapol.length
    then some () else none) := by
  unfold checkLengths
  refine .index h₂ (.index h₃ (.index h₉₇ (.index h₉₈ ?_)))
  rw [← ite_not]
  simp only [ne_eq,not_and_or]
  exact .rejectIf

/-- What is shorter than the header does not begin with it. -/
theorem take_ne_eapolLlc {payload : List UInt8} (h : ¬ 8 ≤ payload.length) :
    payload.take 8 ≠ eapolLlc := by
  intro htake
  have hlen := congrArg List.length htake
  rw [List.length_take] at hlen
  change min 8 payload.length = 8 at hlen
  omega

theorem unwrappable_iff (e : KeyEnvelope) : EapolCodec.unwrappable scratch.length e = true ↔
    ¬ e.dataLen < 24 ∧ ¬ e.dataLen % 8 ≠ 0 ∧ ¬ e.dataLen - 8 > scratch.length := by
  simp [EapolCodec.unwrappable,and_assoc]

theorem checkKeyData_ends (e : KeyEnvelope) : (checkKeyData e.dataLen scratch).Ends P
    (if EapolCodec.unwrappable scratch.length e = true then some () else none) := by
  unfold checkKeyData
  by_cases hshort : e.dataLen < 24
  · rw [if_neg (fun h => ((unwrappable_iff e).mp h).1 hshort)]
    exact .rejectIf_pos hshort
  · refine .rejectIf_neg hshort ?_
    by_cases hblocks : e.dataLen % 8 ≠ 0
    · rw [if_neg (fun h => ((unwrappable_iff e).mp h).2.1 hblocks)]
      exact .rejectIf_pos hblocks
    · refine .rejectIf_neg hblocks (.sub (by omega) ?_)
      have hfits : EapolCodec.unwrappable scratch.length e = true ↔
          ¬ e.dataLen - 8 > scratch.length :=
        (unwrappable_iff e).trans (by simp only [hshort,hblocks,not_false_eq_true,true_and])
      simp only [hfits,ite_not]
      exact .rejectIf

end Checks

namespace KeyFrameCrate
variable {crate : KeyFrameCrate} {buffer scratch : List UInt8} {own bssid : Bytes 6}
  {kck kek : Bytes 16} {group : Bool} {P : DecoderCall → Prop}

/-- `key_envelope` returns the slice of the envelope. -/
theorem keyEnvelope_ends : (crate.keyEnvelope buffer own bssid group).Ends P
    (((crate.dataFrame buffer).bind (fun f => Rsn.keyEnvelope f own bssid group)).map
      KeyEnvelope.eapol) := by
  unfold keyEnvelope
  cases crate.dataFrame buffer with
  | none => exact .bind_none .ofOption
  | some frame =>
    refine .bind .ofOption ?_
    rw [Option.bind_some]
    unfold Rsn.keyEnvelope
    split
    · rename_i haddress
      exact .rejectIf_pos haddress
    · rename_i haddress
      refine .rejectIf_neg haddress ?_
      cases frame.payload with
      | none => exact .bind_none .ofOption
      | some payload =>
        refine .bind .ofOption ?_
        by_cases hlong : 8 ≤ payload.length
        · have hto : getTo payload 8 = some (payload.take 8) := if_pos hlong
          have hfrom : getFrom payload 8 = some (payload.drop 8) := if_pos hlong
          rw [hto,hfrom]
          refine .bind .ofOption ?_
          dsimp only
          split
          · rename_i hllc
            exact .rejectIf_pos hllc
          · rename_i hllc
            refine .rejectIf_neg hllc (.bind .ofOption ?_)
            split
            · rename_i h99
              have hfields : (checkFields (payload.drop 8) group).Ends P _ := checkFields_ends h99
              split
              · rename_i hbad
                rw [if_pos hbad] at hfields
                exact .bind_none hfields
              · rename_i hok
                rw [if_neg hok] at hfields
                refine .bind hfields ?_
                have hlengths : (checkLengths (payload.drop 8)).Ends P _ :=
                  checkLengths_ends (by omega) (by omega) (by omega) (by omega)
                split
                · rename_i hl
                  rw [if_pos hl] at hlengths
                  exact .bind hlengths (.pure _)
                · rename_i hl
                  rw [if_neg hl] at hlengths
                  exact .bind_none hlengths
            · rename_i h99
              exact .bind_none (checkFields_short h99)
        · have hto : getTo payload 8 = none := if_neg hlong
          rw [hto]
          dsimp only
          rw [if_pos (take_ne_eapolLlc hlong)]
          exact .bind_none .ofOption

theorem keyPayload_ends {e : Option KeyEnvelope}
    (h : (crate.codec scratch).keyPayload own bssid buffer = e) :
    (crate.keyPayload buffer own bssid).Ends P (e.map KeyEnvelope.eapol) := by
  rw [← h]
  exact keyEnvelope_ends

theorem groupKeyPayload_ends {e : Option KeyEnvelope}
    (h : (crate.codec scratch).groupKeyPayload own bssid buffer = e) :
    (crate.groupKeyPayload buffer own bssid).Ends P (e.map KeyEnvelope.eapol) := by
  rw [← h]
  exact keyEnvelope_ends

/-- The key information of an envelope, read byte by byte. -/
theorem keyInformation_ends {β : Type} {f : UInt8 → UInt8 → Run DecoderCall β} {r : Option β}
    (e : KeyEnvelope) (h : ∀ high low, beU16 high low = e.keyInformation → (f high low).Ends P r) :
    (Run.index e.eapol 5 >>= fun high => Run.index e.eapol 6 >>= fun low => f high low).Ends P r :=
  have hlen := e.length_ge
  .index (by omega) (.index (by omega) (h _ _ rfl))

theorem length_take_drop {n i : ℕ} {xs : List UInt8} (h : i + n ≤ xs.length) :
    ((xs.drop i).take n).length = n := by
  rw [List.length_take,List.length_drop]
  omega

theorem tryIntoBytes_take_drop {n i : ℕ} {xs : List UInt8} (h : i + n ≤ xs.length) :
    tryIntoBytes n ((xs.drop i).take n) =
      some (fun k : Fin n => xs.get ⟨i + k,by have hk := k.isLt; omega⟩) := by
  rw [tryIntoBytes,dif_pos (length_take_drop h)]
  congr 1
  funext k
  simp

theorem ofFn_take_drop {n i : ℕ} {xs : List UInt8} (h : i + n ≤ xs.length) :
    List.ofFn (fun k : Fin n => xs.get ⟨i + k,by have hk := k.isLt; omega⟩) =
      (xs.drop i).take n := by
  apply List.ext_getElem
  · rw [List.length_ofFn,length_take_drop h]
  · intro k hk hk'
    simp

theorem fromMessage1_ends (scratch : List UInt8) : (crate.fromMessage1 buffer own bssid).Ends P
    (InitialHandshake.fromMessage1 (crate.codec scratch) own bssid buffer) := by
  unfold fromMessage1 InitialHandshake.fromMessage1
  cases hp : (crate.codec scratch).keyPayload own bssid buffer with
  | none =>
    exact .bind_none (keyPayload_ends hp)
  | some e =>
    have hlen := e.length_ge
    refine .bind (keyPayload_ends hp) (keyInformation_ends e ?_)
    intro high low hinfo
    rw [hinfo]
    dsimp only
    split
    · rename_i hne
      exact .rejectIf_pos hne
    · rename_i heq
      refine .rejectIf_neg heq (.range (by omega) (by omega) ?_)
      have hnonce : tryIntoBytes 32 ((e.eapol.drop 17).take (49 - 17)) = some e.keyNonce :=
        tryIntoBytes_take_drop (by omega)
      rw [hnonce]
      refine .bind .ofOption (.range (by omega) (by omega) ?_)
      have hcounter : tryIntoBytes 8 ((e.eapol.drop 9).take (17 - 9)) = some _ :=
        tryIntoBytes_take_drop (by omega)
      rw [hcounter]
      refine .bind .ofOption ?_
      rw [ofFn_take_drop (by omega)]
      exact .pure _

theorem isGroup_ends (scratch : List UInt8) : (crate.isGroup buffer own bssid).Ends P
    (some ((crate.codec scratch).isGroup own bssid buffer)) := by
  unfold isGroup EapolCodec.isGroup
  cases hp : (crate.codec scratch).groupKeyPayload own bssid buffer with
  | none =>
    exact .isSomeAnd_none (groupKeyPayload_ends hp)
  | some e =>
    refine .isSomeAnd_some (groupKeyPayload_ends hp) (keyInformation_ends e ?_)
    intro high low hinfo
    rw [hinfo]
    exact .pure _

/-- What the lengths of an envelope whose key data passed the checks give the decoder. -/
theorem ready_of_unwrappable {e : KeyEnvelope} {frame : DataFrame}
    (hframe : crate.dataFrame buffer = some frame)
    (he : Rsn.keyEnvelope frame own bssid group = some e)
    (hdata : EapolCodec.unwrappable scratch.length e = true) :
    crate.Ready ⟨buffer,scratch⟩ := by
  have hlen := e.length_ge
  have hbody := e.bodyLength
  have hkeyData := e.dataLength
  obtain ⟨hlong,hblocks,hfits⟩ := (unwrappable_iff e).mp hdata
  unfold KeyEnvelope.dataLen at hlong hblocks hfits
  refine ⟨frame,e.eapol,hframe,keyEnvelope_eapol he,hlen,?_,?_,by omega,by omega,
    Nat.not_lt.mp hfits⟩
  · rw [List.getD_eq_getElem _ _ (by omega),List.getD_eq_getElem _ _ (by omega)]
    omega
  · rw [List.getD_eq_getElem _ _ (by omega),List.getD_eq_getElem _ _ (by omega)]
    omega

/-- The decoder and what is made of the key frame it returns. -/
theorem decoder_ends {β : Type} (mk : EapolKeyFrame → Bytes 16 → Fin 4 → β)
    (hready : crate.Ready ⟨buffer,scratch⟩) :
    (Run.call ⟨buffer,scratch⟩ >>= fun _ =>
      Run.ofOption (crate.deserializeEapolDataFrame kck kek buffer scratch) >>= fun key =>
      Run.ofOption key.gtk >>= fun gtk => Run.ofOption (tryIntoBytes 16 gtk.1) >>= fun bytes =>
      (pure (mk key bytes gtk.2) : Run DecoderCall β)).Ends crate.Ready
    (match (crate.codec scratch).deserializeEapolDataFrame buffer kck kek with
      | none => none
      | some key =>
        match key.gtk with
        | none => none
        | some (gtk,gtkId) => (tryIntoBytes 16 gtk).map (fun gtk => mk key gtk gtkId)) := by
  refine .call hready ?_
  change Run.Ends _ _ (match crate.deserializeEapolDataFrame kck kek buffer scratch with
    | none => none | some key => _)
  cases crate.deserializeEapolDataFrame kck kek buffer scratch with
  | none => exact .bind_none .ofOption
  | some key =>
    refine .bind .ofOption ?_
    dsimp only
    cases key.gtk with
    | none => exact .bind_none .ofOption
    | some gtk =>
      refine .bind .ofOption ?_
      dsimp only
      cases tryIntoBytes 16 gtk.1 with
      | none => exact .bind_none .ofOption
      | some bytes => exact .bind .ofOption (.pure _)

theorem decryptMessage3_ends : (crate.decryptMessage3 buffer scratch own bssid kck kek).Ends
    crate.Ready ((crate.codec scratch).decryptMessage3 own bssid scratch.length buffer kck kek) := by
  unfold decryptMessage3 EapolCodec.decryptMessage3
  cases hp : (crate.codec scratch).keyPayload own bssid buffer with
  | none =>
    exact .bind_none (keyPayload_ends hp)
  | some e =>
    refine .bind (keyPayload_ends hp) (.sub e.length_ge (keyInformation_ends e ?_))
    intro high low hinfo
    rw [hinfo]
    have hdata : (checkKeyData e.dataLen scratch).Ends crate.Ready _ := checkKeyData_ends e
    by_cases hne : e.keyInformation ≠ 0x13ca
    · dsimp only
      rw [if_pos (Or.inl hne)]
      exact .rejectIf_pos hne
    · refine .rejectIf_neg hne ?_
      by_cases hok : EapolCodec.unwrappable scratch.length e = true
      · rw [if_pos hok] at hdata
        dsimp only
        rw [if_neg (by simp [hok,not_not.mp hne])]
        obtain ⟨frame,hframe,he⟩ := Option.bind_eq_some_iff.mp hp
        exact .bind hdata (decoder_ends (fun key gtk id =>
          Message3.mk key.keyNonce key.keyReplayCounter gtk id)
          (ready_of_unwrappable hframe he hok))
      · rw [if_neg hok] at hdata
        dsimp only
        rw [if_pos (Or.inr (Bool.eq_false_iff.mpr hok))]
        exact .bind_none hdata

/-- The six bytes of the packet number with two zero bytes behind them, least significant
byte first. -/
theorem beU64_overwrite_zero {counter : List UInt8} (h : counter.length = 6) :
    beU64 (Buffer.overwrite (List.replicate 8 0) 0 counter).reverse = beU64 counter.reverse := by
  have hzeros : Buffer.overwrite (List.replicate 8 0) 0 counter = counter ++ [0,0] := by
    rw [Buffer.overwrite,h]
    rfl
  rw [hzeros,List.reverse_append]
  rfl

theorem decodeGroupMessage1_ends :
    (crate.decodeGroupMessage1 buffer scratch own bssid kck kek).Ends crate.Ready
      ((crate.codec scratch).decodeGroupMessage1 own bssid scratch.length buffer kck kek) := by
  unfold decodeGroupMessage1 EapolCodec.decodeGroupMessage1
  cases hp : (crate.codec scratch).groupKeyPayload own bssid buffer with
  | none =>
    exact .bind_none (groupKeyPayload_ends hp)
  | some e =>
    have hlen := e.length_ge
    refine .bind (groupKeyPayload_ends hp) (keyInformation_ends e ?_)
    intro high low hinfo
    rw [hinfo]
    dsimp only
    have hdata : (checkKeyData e.dataLen scratch).Ends crate.Ready _ := checkKeyData_ends e
    by_cases hne : e.keyInformation ≠ 0x1382
    · rw [if_pos (Or.inl hne)]
      exact .rejectIf_pos hne
    · refine .rejectIf_neg hne (.sub hlen ?_)
      by_cases hok : EapolCodec.unwrappable scratch.length e = true
      · rw [if_pos hok] at hdata
        rw [if_neg (by simp [hok,not_not.mp hne])]
        refine .bind hdata (.range (by omega) (by omega) ?_)
        have hpair : (e.eapol.drop 71).take (73 - 71) =
            [e.byte 71 (by decide),e.byte 72 (by decide)] := take_two_drop (by omega)
        rw [hpair]
        split
        · rename_i hreserved
          exact .rejectIf_pos (by simpa [imp_iff_not_or] using hreserved)
        · rename_i hreserved
          refine .rejectIf_neg (by simpa using hreserved) (.range (by omega) (by omega) ?_)
          have hcounter : ((e.eapol.drop 65).take (71 - 65)).length = 6 :=
            length_take_drop (by omega)
          refine .copyFromSlice (by simp) (by omega) ?_
          rw [beU64_overwrite_zero hcounter]
          obtain ⟨frame,hframe,he⟩ := Option.bind_eq_some_iff.mp hp
          exact decoder_ends (fun key gtk id =>
            GroupMessage1.mk key.keyReplayCounter key.keyNonce gtk id e.rsc)
            (ready_of_unwrappable hframe he hok)
      · rw [if_neg hok] at hdata
        rw [if_pos (Or.inr (Bool.eq_false_iff.mpr hok))]
        exact .bind_none hdata

/-- Without an envelope nothing is accepted. -/
theorem rejects_of_none (h : (crate.codec scratch).groupKeyPayload own bssid buffer = none) :
    crate.Rejects buffer own bssid := by
  have hgroup : crate.keyEnvelope buffer own bssid true = ⟨.ok none,[]⟩ :=
    (groupKeyPayload_ends h).eq_mk
  have hpairwise : crate.keyEnvelope buffer own bssid false = ⟨.ok none,[]⟩ := by
    cases hp : (crate.codec scratch).keyPayload own bssid buffer with
    | none => exact (keyPayload_ends hp).eq_mk
    | some e =>
      rw [EapolCodec.keyPayload_group hp] at h
      cases h
  refine ⟨?_,?_,?_,?_,?_⟩
  · intro group
    cases group with
    | false => exact hpairwise
    | true => exact hgroup
  · rw [fromMessage1,keyPayload,hpairwise]
    rfl
  · intro scratch kck kek
    rw [decryptMessage3,keyPayload,hpairwise]
    rfl
  · intro scratch kck kek
    rw [decodeGroupMessage1,groupKeyPayload,hgroup]
    rfl
  · rw [isGroup,groupKeyPayload,hgroup]
    rfl

/-- The header of a longer frame is that of its beginning, so its payload is longer too. -/
theorem payload_append (hlayout : crate.HeaderFirst) {rest p p' : List UInt8}
    {frame frame' : DataFrame} (hframe : crate.dataFrame buffer = some frame)
    (hp : frame.payload = some p) (hframe' : crate.dataFrame (buffer ++ rest) = some frame')
    (hp' : frame'.payload = some p') : p' = p ++ rest := by
  obtain ⟨headerLength,hlayout⟩ := hlayout
  obtain ⟨htwo,hle,rfl⟩ := hlayout buffer frame p hframe hp
  obtain ⟨_,_,rfl⟩ := hlayout (buffer ++ rest) frame' p' hframe' hp'
  rw [List.take_append_of_le_length (by omega),List.drop_append_of_le_length hle]

/-- An envelope with bytes behind it is none: its length fields are the same. -/
theorem eq_nil_of_append {e e' : KeyEnvelope} {rest : List UInt8}
    (h : e'.eapol = e.eapol ++ rest) : rest = [] := by
  have hlen := e.length_ge
  have hbody := e.bodyLength
  have hbody' := e'.bodyLength
  simp only [h,List.getElem_append_left (by omega : 2 < e.eapol.length),
    List.getElem_append_left (by omega : 3 < e.eapol.length),List.length_append] at hbody'
  exact List.length_eq_zero_iff.mp (by omega)

/-- Of a frame and a longer one with the same beginning at most one is accepted. -/
theorem rejects_or_eq_nil (hlayout : crate.HeaderFirst) (rest : List UInt8) :
    crate.Rejects buffer own bssid ∨ crate.Rejects (buffer ++ rest) own bssid ∨ rest = [] := by
  cases hp : (crate.codec []).groupKeyPayload own bssid buffer with
  | none => exact Or.inl (rejects_of_none hp)
  | some e =>
    cases hp' : (crate.codec []).groupKeyPayload own bssid (buffer ++ rest) with
    | none => exact Or.inr (Or.inl (rejects_of_none hp'))
    | some e' =>
      obtain ⟨frame,hframe,he⟩ := Option.bind_eq_some_iff.mp hp
      obtain ⟨frame',hframe',he'⟩ := Option.bind_eq_some_iff.mp hp'
      have happend := payload_append hlayout hframe (keyEnvelope_eapol he) hframe'
        (keyEnvelope_eapol he')
      rw [List.append_assoc] at happend
      exact Or.inr (Or.inr (eq_nil_of_append (List.append_cancel_left happend)))

theorem not_rejects_of_accepts (h : crate.Accepts buffer own bssid) :
    ¬ crate.Rejects buffer own bssid := by
  intro hr
  rcases h with ⟨group,eapol,h⟩ | ⟨pending,h⟩ | ⟨scratch,kck,kek,m,h⟩ | ⟨scratch,kck,kek,m,h⟩ | h
  · rw [hr.keyEnvelope] at h; cases h
  · rw [hr.fromMessage1] at h; cases h
  · rw [hr.decryptMessage3] at h; cases h
  · rw [hr.decodeGroupMessage1] at h; cases h
  · rw [hr.isGroup] at h; cases h

/-- No function over a key frame indexes outside of it, the decoder is reached only with
lengths that are exact, and an accepted frame is rejected once it is cut or extended. -/
theorem envelope_exact (crate : KeyFrameCrate) (buffer scratch : List UInt8) (own bssid : Bytes 6)
    (kck kek : Bytes 16) :
    ((∀ group, ¬ (crate.keyEnvelope buffer own bssid group).Panics) ∧
      ¬ (crate.fromMessage1 buffer own bssid).Panics ∧
      ¬ (crate.decryptMessage3 buffer scratch own bssid kck kek).Panics ∧
      ¬ (crate.decodeGroupMessage1 buffer scratch own bssid kck kek).Panics ∧
      ¬ (crate.isGroup buffer own bssid).Panics) ∧
    ((∀ group, (crate.keyEnvelope buffer own bssid group).calls = []) ∧
      (crate.fromMessage1 buffer own bssid).calls = [] ∧
      (∀ c ∈ (crate.decryptMessage3 buffer scratch own bssid kck kek).calls, crate.Ready c) ∧
      (∀ c ∈ (crate.decodeGroupMessage1 buffer scratch own bssid kck kek).calls,
        crate.Ready c) ∧
      (crate.isGroup buffer own bssid).calls = []) ∧
    (crate.HeaderFirst → crate.Accepts buffer own bssid →
      (∀ n < buffer.length, crate.Rejects (buffer.take n) own bssid) ∧
      ∀ rest, rest ≠ [] → crate.Rejects (buffer ++ rest) own bssid) := by
  have hmessage1 : (crate.fromMessage1 buffer own bssid).Ends (fun _ => False) _ :=
    fromMessage1_ends scratch
  have hgroup : (crate.isGroup buffer own bssid).Ends (fun _ => False) _ :=
    isGroup_ends scratch
  refine ⟨⟨?_,hmessage1.not_panics,decryptMessage3_ends.not_panics,
    decodeGroupMessage1_ends.not_panics,hgroup.not_panics⟩,⟨?_,?_,decryptMessage3_ends.calls,
    decodeGroupMessage1_ends.calls,?_⟩,?_⟩
  · intro group
    have henvelope : (crate.keyEnvelope buffer own bssid group).Ends (fun _ => False) _ :=
      keyEnvelope_ends
    exact henvelope.not_panics
  · intro group
    rw [keyEnvelope_ends.eq_mk]
  · rw [hmessage1.eq_mk]
  · rw [hgroup.eq_mk]
  · intro hlayout haccepts
    have hnot := not_rejects_of_accepts haccepts
    constructor
    · intro n hn
      have hsplit : crate.Rejects (buffer.take n) own bssid ∨
          crate.Rejects (buffer.take n ++ buffer.drop n) own bssid ∨ buffer.drop n = [] :=
        rejects_or_eq_nil hlayout (buffer.drop n)
      rw [List.take_append_drop] at hsplit
      rcases hsplit with h | h | h
      · exact h
      · exact absurd h hnot
      · have hlen := congrArg List.length h
        rw [List.length_drop,List.length_nil] at hlen
        omega
    · intro rest hrest
      rcases rejects_or_eq_nil hlayout rest with h | h | h
      · exact absurd h hnot
      · exact h
      · exact absurd h hrest

end KeyFrameCrate

namespace Wire

/-- The wire format with a decoder that accepts no MIC. -/
def keyFrameCrate : KeyFrameCrate where
  dataFrame b := (dataFrame b).map (fun w => w.toDataMpdu.toDataFrame)
  deserializeEapolDataFrame _ _ _ _ := none

theorem byteAt_take {b : List UInt8} {i n : ℕ} (h : i < n) : byteAt (b.take n) i = byteAt b i := by
  rw [byteAt,byteAt,List.getD_eq_getElem?_getD,List.getD_eq_getElem?_getD,
    List.getElem?_take_of_lt h]

theorem keyFrameCrate_headerFirst : keyFrameCrate.HeaderFirst := by
  refine ⟨fun control => headerLength (byteAt control 0) (byteAt control 1),?_⟩
  intro b frame payload hframe hp
  obtain ⟨w,hw,rfl⟩ := Option.map_eq_some_iff.mp hframe
  obtain ⟨htwo,hle⟩ := codec_onTheWire.header b w hw
  have hpayload := codec_onTheWire.payload b w payload hw hp
  obtain ⟨_,_,rfl⟩ := dataFrame_some hw
  dsimp only
  rw [byteAt_take (by omega),byteAt_take (by omega)]
  exact ⟨htwo,hle,hpayload⟩

/-- A first message with counter 7 from the access point 2 to the station 1. -/
def firstMessage : List UInt8 :=
  [0x88,0x02,0,0] ++ List.replicate 6 1 ++ List.replicate 6 2 ++ List.replicate 6 3 ++ [0,0,0,0] ++
    eapolLlc ++ [2,3,0,95,2,0,0x8a,0,16] ++ [0,0,0,0,0,0,0,7] ++ List.replicate 80 5 ++ [0,0]

theorem envelope_exact_firstMessage :
    keyFrameCrate.Accepts firstMessage (fun _ => 1) (fun _ => 2) ∧
    keyFrameCrate.Rejects (firstMessage.take 132) (fun _ => 1) (fun _ => 2) ∧
    keyFrameCrate.Rejects (firstMessage ++ [0]) (fun _ => 1) (fun _ => 2) := by
  have haccepts : keyFrameCrate.Accepts firstMessage (fun _ => 1) (fun _ => 2) :=
    Or.inl ⟨false,firstMessage.drop 34,by decide +kernel⟩
  obtain ⟨_,_,h⟩ := KeyFrameCrate.envelope_exact keyFrameCrate firstMessage [] (fun _ => 1)
    (fun _ => 2) 0 0
  obtain ⟨hcut,hextended⟩ := h keyFrameCrate_headerFirst haccepts
  exact ⟨haccepts,hcut 132 (by decide +kernel),hextended [0] (by decide)⟩

end Wire

end FerrisOnAir.Sta

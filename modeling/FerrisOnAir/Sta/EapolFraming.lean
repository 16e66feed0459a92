import FerrisOnAir.Foundation.Buffer
import FerrisOnAir.Sta.Routing

/-! # CCMP framing of EAPOL frames

`protect_eapol`, `is_key_frame` and `normalize` of `foa_sta/src/rsn_group.rs` on bytes.
Sending inserts a CCMP header behind the 802.11 header and leaves room for the MIC; the
hardware strips the MIC of a received frame and leaves the header, which `normalize`
deletes. Parsing a data frame and the CCMP header are those of the `ieee80211` crate and
parameters here, assumed to follow the wire; unwrapping panics on a CCMP header that is
truncated or invalid.
-/
namespace FerrisOnAir.Sta
open Rsn Buffer

/-- A parsed data frame with the length of its header. -/
structure WireFrame extends DataMpdu where
  lengthInBytes : ℕ
  isAmsdu : Bool

inductive PayloadPanic
  | invalidCryptoHeader
deriving DecidableEq

/-- What the station uses of the `ieee80211` crate. The MIC is never present, and the key ID
of a CCMP header written here is zero. -/
structure FrameCodec where
  genericFrame : List UInt8 → Option GenericFrame
  dataFrame : List UInt8 → Option WireFrame
  readPayload : Bool → List UInt8 → DataFrameReadPayload
  potentiallyWrappedPayload : WireFrame → Except PayloadPanic (Option PotentiallyWrappedPayload)
  cryptoHeader : ℕ → Option (List UInt8)

/-- `CryptoHeader::MAX_PN`. -/
def maxPn : ℕ := 2 ^ 48 - 1

/-- The CCMP header of a packet number: its low two bytes, a reserved byte, the extended IV
flag with key ID zero, and its high four bytes. -/
def ccmpHeader (pn : ℕ) : List UInt8 :=
  [UInt8.ofNat pn,UInt8.ofNat (pn / 2 ^ 8),0,0x20,UInt8.ofNat (pn / 2 ^ 16),
    UInt8.ofNat (pn / 2 ^ 24),UInt8.ofNat (pn / 2 ^ 32),UInt8.ofNat (pn / 2 ^ 40)]

def ccmpPacketNumber : List UInt8 → ℕ
  | b₀ :: b₁ :: _ :: _ :: b₄ :: b₅ :: b₆ :: b₇ :: _ =>
    b₀.toNat + 2 ^ 8 * b₁.toNat + 2 ^ 16 * b₄.toNat + 2 ^ 24 * b₅.toNat + 2 ^ 32 * b₆.toNat +
      2 ^ 40 * b₇.toNat
  | _ => 0

/-- `buffer[1] |= 0x40`. -/
def setProtected (buffer : List UInt8) : List UInt8 := buffer.modify 1 (fun f => f ||| 0x40)

/-- `buffer[1] &= !0x40`. -/
def clearProtected (buffer : List UInt8) : List UInt8 := buffer.modify 1 (fun f => f &&& 0xbf)

namespace FrameCodec
variable (codec : FrameCodec)

/-- A protected frame whose body does not start with a complete and valid CCMP header. -/
def Malformed (buffer : List UInt8) : Prop := ∃ w body, codec.dataFrame buffer = some w ∧
  w.isProtected = true ∧ w.payload = some body ∧ ccmpKeyId body = none

/-- The parser follows the wire. -/
structure OnTheWire : Prop where
  header : ∀ b w, codec.dataFrame b = some w → 2 ≤ w.lengthInBytes ∧ w.lengthInBytes ≤ b.length
  payload : ∀ b w p, codec.dataFrame b = some w → w.payload = some p → p = b.drop w.lengthInBytes
  protectedFlag : ∀ b w, codec.dataFrame b = some w →
    w.isProtected = b[1]?.any (fun f => f &&& 0x40 != 0)
  reframed : ∀ b w p rest, codec.dataFrame b = some w → w.isProtected = false →
    w.payload = some p → codec.dataFrame (setProtected (b.take w.lengthInBytes) ++ rest) =
      some { w with isProtected := true, payload := some rest }
  panics : ∀ w, (∃ e, codec.potentiallyWrappedPayload w = .error e) ↔
    w.isProtected = true ∧ ∃ body, w.payload = some body ∧ ccmpKeyId body = none
  unwrapped : ∀ w p, w.isProtected = false → w.payload = some p →
    codec.potentiallyWrappedPayload w =
      .ok (some (.unwrapped (codec.readPayload w.isAmsdu p)))
  wrapped : ∀ w body, w.isProtected = true → w.payload = some body →
    (ccmpKeyId body).isSome → codec.potentiallyWrappedPayload w =
      .ok (some (.cryptoWrapped (ccmpPacketNumber body) (codec.readPayload w.isAmsdu (body.drop 8))))
  absent : ∀ w, w.payload = none → codec.potentiallyWrappedPayload w = .ok none
  cryptoHeader : ∀ pn, pn ≤ maxPn → codec.cryptoHeader pn = some (ccmpHeader pn)

/-- `protect_eapol`, with the buffer it leaves. -/
def protectEapol (buffer : List UInt8) (length pn : ℕ) : Option ℕ × List UInt8 :=
  if pn = 0 ∨ pn > maxPn ∨ length + 16 > buffer.length then (none,buffer)
  else match codec.dataFrame (buffer.take length) with
    | none => (none,buffer)
    | some frame =>
      if frame.isProtected then (none,buffer)
      else
        let header := frame.lengthInBytes
        let moved := copyWithin buffer header length (header + 8)
        match codec.cryptoHeader pn with
        | none => (none,moved)
        | some iv =>
          let written := setProtected (overwrite moved header iv)
          (some (length + 16),overwrite written (length + 8) (List.replicate 8 0))

/-- The test at the end of `is_key_frame`. -/
def isKeyPayload : DataFrameReadPayload → Bool
  | .single bytes => bytes.take 8 == eapolLlc && bytes[9]? == some 3
  | .amsdu _ => false

def isKeyFrame (buffer : List UInt8) : Except PayloadPanic Bool :=
  match codec.dataFrame buffer with
  | none => .ok false
  | some frame =>
    match codec.potentiallyWrappedPayload frame with
    | .error e => .error e
    | .ok none => .ok false
    | .ok (some (.unwrapped payload)) => .ok (isKeyPayload payload)
    | .ok (some (.cryptoWrapped _ payload)) => .ok (isKeyPayload payload)

/-- `normalize`, with the buffer it leaves. -/
def normalize (buffer : List UInt8) (own bssid : Bytes 6) :
    Except PayloadPanic (Option (ℕ × Option ℕ) × List UInt8) :=
  match codec.dataFrame buffer with
  | none => .ok (none,buffer)
  | some frame =>
    if frame.address1 ≠ own ∨ frame.address2 ≠ bssid ∨ frame.fromDs = false ∨
        frame.toDs = true then .ok (none,buffer)
    else match codec.isKeyFrame buffer with
      | .error e => .error e
      | .ok false => .ok (none,buffer)
      | .ok true =>
        let header := frame.lengthInBytes
        match codec.potentiallyWrappedPayload frame with
        | .error e => .error e
        | .ok none => .ok (none,buffer)
        | .ok (some (.unwrapped _)) => .ok (some (buffer.length,none),buffer)
        | .ok (some (.cryptoWrapped pn _)) =>
          match (buffer.drop header).take 8 with
          | [_,_,b₂,b₃,_,_,_,_] =>
            if b₂ ≠ 0 ∨ b₃ ≠ 0x20 then .ok (none,buffer)
            else .ok (some (buffer.length - 8,some pn),
              clearProtected (copyWithin buffer (header + 8) buffer.length header))
          | _ => .ok (none,buffer)

end FrameCodec

theorem ccmpPacketNumber_ccmpHeader {pn : ℕ} (h : pn ≤ maxPn) (rest : List UInt8) :
    ccmpPacketNumber (ccmpHeader pn ++ rest) = pn := by
  simp only [ccmpHeader,List.cons_append,ccmpPacketNumber,UInt8.toNat_ofNat']
  unfold maxPn at h
  omega

/-- Setting a bit that is clear and clearing it again. -/
theorem byte_set_clear (f : UInt8) (h : (f &&& 0x40 != 0) = false) : (f ||| 0x40) &&& 0xbf = f := by
  obtain ⟨b⟩ := f
  revert h b
  decide +kernel

theorem clearProtected_setProtected {b : List UInt8}
    (h : b[1]?.any (fun f => f &&& 0x40 != 0) = false) :
    clearProtected (setProtected b) = b := by
  match b with
  | [] => rfl
  | [_] => rfl
  | f₀ :: f :: rest =>
    have hf : (f &&& 0x40 != 0) = false := h
    change f₀ :: ((f ||| 0x40) &&& 0xbf) :: rest = f₀ :: f :: rest
    rw [byte_set_clear f hf]

theorem modify_one_append {b rest : List UInt8} {g : UInt8 → UInt8} (h : 2 ≤ b.length) :
    (b ++ rest).modify 1 g = b.modify 1 g ++ rest := by
  match b with
  | [] => simp at h
  | [_] => simp at h
  | _ :: _ :: _ => rfl

namespace FrameCodec
variable {codec : FrameCodec} {x buffer : List UInt8} {w : WireFrame} {p : List UInt8} {pn : ℕ}
  {own bssid : Bytes 6}

/-- What the hardware sends of a protected frame, and what is left of it at the receiver
once the MIC is stripped. -/
def onAir (w : WireFrame) (x : List UInt8) (pn : ℕ) : List UInt8 :=
  setProtected (x.take w.lengthInBytes) ++ (ccmpHeader pn ++ x.drop w.lengthInBytes)

theorem protectEapol_eq (hwire : codec.OnTheWire) (hx : codec.dataFrame x = some w)
    (hclear : w.isProtected = false) (hbuffer : buffer.take x.length = x)
    (hroom : x.length + 16 ≤ buffer.length) (hpn : pn ≠ 0) (hmax : pn ≤ maxPn) :
    (codec.protectEapol buffer x.length pn).1 = some (x.length + 16) ∧
      (codec.protectEapol buffer x.length pn).2.take (x.length + 8) = onAir w x pn := by
  obtain ⟨htwo,hle⟩ := hwire.header x w hx
  have hchecks : ¬ (pn = 0 ∨ pn > maxPn ∨ x.length + 16 > buffer.length) := by omega
  let p := x.take w.lengthInBytes
  let m := x.drop w.lengthInBytes
  let g := (buffer.drop x.length).take 8
  let r := (buffer.drop x.length).drop 8
  have hsplit : buffer = p ++ (m ++ (g ++ r)) := by
    have h := List.take_append_drop x.length buffer
    rw [hbuffer] at h
    rw [List.take_append_drop,← List.append_assoc,List.take_append_drop,h]
  have hp : p.length = w.lengthInBytes := List.length_take_of_le hle
  have hpm : p.length + m.length = x.length := by
    rw [← List.length_append,List.take_append_drop]
  have hg : g.length = (ccmpHeader pn).length := by
    rw [List.length_take,List.length_drop]
    change min 8 (buffer.length - x.length) = 8
    omega
  have hwritten : overwrite (copyWithin buffer w.lengthInBytes x.length (w.lengthInBytes + 8))
      w.lengthInBytes (ccmpHeader pn) = p ++ (ccmpHeader pn ++ (m ++ r)) := by
    rw [← overwrite_copyWithin (p := p) (m := m) (r := r) hg,← hsplit,hp,← hpm,hp]
    rfl
  have hflag : setProtected (p ++ (ccmpHeader pn ++ (m ++ r))) = onAir w x pn ++ r := by
    rw [setProtected,modify_one_append (by omega),onAir]
    simp only [List.append_assoc]
    rfl
  have hair : (onAir w x pn).length = x.length + 8 := by
    simp only [onAir,setProtected,List.length_append,List.length_modify]
    change p.length + (8 + m.length) = x.length + 8
    omega
  unfold protectEapol
  simp only [if_neg hchecks,hbuffer,hx,hclear,hwire.cryptoHeader pn hmax,Bool.false_eq_true,
    if_false,hwritten,hflag]
  refine ⟨trivial,?_⟩
  rw [overwrite,← hair,List.append_assoc,List.take_left,List.take_left]

/-- An accepted clear frame: its body is an EAPOL key payload. -/
theorem isKeyFrame_clear (hwire : codec.OnTheWire) (hx : codec.dataFrame x = some w)
    (hclear : w.isProtected = false) (hkey : codec.isKeyFrame x = .ok true) :
    w.payload = some (x.drop w.lengthInBytes) ∧
      isKeyPayload (codec.readPayload w.isAmsdu (x.drop w.lengthInBytes)) = true := by
  unfold isKeyFrame at hkey
  simp only [hx] at hkey
  cases hp : w.payload with
  | none =>
    simp only [hwire.absent w hp] at hkey
    cases hkey
  | some p =>
    obtain rfl := hwire.payload x w p hx hp
    simp only [hwire.unwrapped w _ hclear hp] at hkey
    exact ⟨rfl,Except.ok.inj hkey⟩

/-- The frame on the air is the same one, protected, with the CCMP header in its body. -/
theorem dataFrame_onAir (pn : ℕ) (hwire : codec.OnTheWire) (hx : codec.dataFrame x = some w)
    (hclear : w.isProtected = false) (hp : w.payload = some p) :
    codec.dataFrame (onAir w x pn) = some { w with
      isProtected := true
      payload := some (ccmpHeader pn ++ x.drop w.lengthInBytes) } :=
  hwire.reframed x w p _ hx hclear hp

theorem wrappedPayload_onAir (hwire : codec.OnTheWire) (hmax : pn ≤ maxPn) :
    codec.potentiallyWrappedPayload { w with
      isProtected := true
      payload := some (ccmpHeader pn ++ x.drop w.lengthInBytes) } =
    .ok (some (.cryptoWrapped pn (codec.readPayload w.isAmsdu (x.drop w.lengthInBytes)))) := by
  rw [hwire.wrapped _ (ccmpHeader pn ++ x.drop w.lengthInBytes) rfl rfl rfl,
    ccmpPacketNumber_ccmpHeader hmax]
  rfl

theorem normalize_onAir (hwire : codec.OnTheWire) (hx : codec.dataFrame x = some w)
    (hclear : w.isProtected = false) (hkey : codec.isKeyFrame x = .ok true)
    (hown : w.address1 = own) (hbssid : w.address2 = bssid) (hfrom : w.fromDs = true)
    (hto : w.toDs = false) (hmax : pn ≤ maxPn) :
    ∃ left, codec.normalize (onAir w x pn) own bssid = .ok (some (x.length,some pn),left) ∧
      left.take x.length = x := by
  obtain ⟨htwo,hle⟩ := hwire.header x w hx
  obtain ⟨hp,hpayload⟩ := isKeyFrame_clear hwire hx hclear hkey
  have hframe := dataFrame_onAir pn hwire hx hclear hp
  have hwrapped := wrappedPayload_onAir (w := w) (x := x) hwire hmax
  let q := setProtected (x.take w.lengthInBytes)
  let m := x.drop w.lengthInBytes
  have hq : q.length = w.lengthInBytes := by
    simp only [q,setProtected,List.length_modify,List.length_take_of_le hle]
  have hm : m.length = x.length - w.lengthInBytes := List.length_drop
  have hair : (onAir w x pn).length = x.length + 8 := by
    rw [onAir,List.length_append,List.length_append]
    change q.length + (8 + m.length) = x.length + 8
    omega
  have hkey' : codec.isKeyFrame (onAir w x pn) = .ok true := by
    simp only [isKeyFrame,hframe,hwrapped,hpayload]
  have haddress : ¬ (w.address1 ≠ own ∨ w.address2 ≠ bssid ∨ w.fromDs = false ∨
      w.toDs = true) := by
    simp [hown,hbssid,hfrom,hto]
  have hcrypto : ((onAir w x pn).drop w.lengthInBytes).take 8 = ccmpHeader pn := by
    have hdrop : (q ++ (ccmpHeader pn ++ m)).drop q.length = ccmpHeader pn ++ m := List.drop_left
    rw [hq] at hdrop
    rw [onAir,hdrop]
    rfl
  refine ⟨clearProtected (copyWithin (onAir w x pn) (w.lengthInBytes + 8) (onAir w x pn).length
    w.lengthInBytes),?_,?_⟩
  · unfold normalize
    simp only [hframe,if_neg haddress,hkey',hwrapped,hcrypto,hair]
    rfl
  · have htake : (copyWithin (onAir w x pn) (w.lengthInBytes + 8) (onAir w x pn).length
        w.lengthInBytes).take x.length = q ++ m := by
      have hlen : x.length = q.length + m.length := by omega
      rw [hlen,← hq]
      exact take_copyWithin
    rw [clearProtected,List.take_modify,htake,modify_one_append (by omega)]
    have hflag := hwire.protectedFlag x w hx
    have hbit : (x.take w.lengthInBytes)[1]?.any (fun f => f &&& 0x40 != 0) = false := by
      rw [List.getElem?_take_of_lt (by omega),← hflag]
      exact hclear
    have hback := clearProtected_setProtected hbit
    rw [clearProtected] at hback
    rw [hback,List.take_append_drop]

theorem normalize_clear (hwire : codec.OnTheWire) (hx : codec.dataFrame x = some w)
    (hclear : w.isProtected = false) (hkey : codec.isKeyFrame x = .ok true)
    (hown : w.address1 = own) (hbssid : w.address2 = bssid) (hfrom : w.fromDs = true)
    (hto : w.toDs = false) :
    codec.normalize x own bssid = .ok (some (x.length,none),x) := by
  obtain ⟨hp,_⟩ := isKeyFrame_clear hwire hx hclear hkey
  have haddress : ¬ (w.address1 ≠ own ∨ w.address2 ≠ bssid ∨ w.fromDs = false ∨
      w.toDs = true) := by
    simp [hown,hbssid,hfrom,hto]
  simp only [normalize,hx,if_neg haddress,hkey,hwire.unwrapped w _ hclear hp]

/-- A rejected frame is left alone. -/
theorem protectEapol_rejected {length : ℕ} (h : pn = 0 ∨ maxPn < pn ∨
      (∃ w, codec.dataFrame (buffer.take length) = some w ∧ w.isProtected = true) ∨
      buffer.length < length + 16) :
    codec.protectEapol buffer length pn = (none,buffer) := by
  unfold protectEapol
  split
  · rfl
  · rename_i hchecks
    rcases h with h | h | ⟨w,hw,hprotected⟩ | h
    · exact absurd (Or.inl h) hchecks
    · exact absurd (Or.inr (Or.inl h)) hchecks
    · simp only [hw,hprotected,if_true]
    · exact absurd (Or.inr (Or.inr h)) hchecks

/-- Protecting an EAPOL frame and normalizing what arrives of it are inverse, and every
rejection leaves the buffer alone. -/
theorem eapol_round_trip (hwire : codec.OnTheWire) :
    (∀ x w own bssid, codec.dataFrame x = some w → w.isProtected = false →
      w.address1 = own → w.address2 = bssid → w.fromDs = true → w.toDs = false →
      codec.isKeyFrame x = .ok true →
      (∀ buffer pn, 1 ≤ pn → pn ≤ 2 ^ 48 - 1 → buffer.take x.length = x →
        x.length + 16 ≤ buffer.length →
        (codec.protectEapol buffer x.length pn).1 = some (x.length + 16) ∧
        ∃ left, codec.normalize ((codec.protectEapol buffer x.length pn).2.take (x.length + 8))
            own bssid = .ok (some (x.length,some pn),left) ∧ left.take x.length = x) ∧
      codec.normalize x own bssid = .ok (some (x.length,none),x)) ∧
    ∀ buffer length pn, (pn = 0 ∨ 2 ^ 48 - 1 < pn ∨
        (∃ w, codec.dataFrame (buffer.take length) = some w ∧ w.isProtected = true) ∨
        buffer.length < length + 16) →
      codec.protectEapol buffer length pn = (none,buffer) := by
  constructor
  · intro x w own bssid hx hclear hown hbssid hfrom hto hkey
    refine ⟨?_,normalize_clear hwire hx hclear hkey hown hbssid hfrom hto⟩
    intro buffer pn hpn hmax hbuffer hroom
    obtain ⟨hlength,htake⟩ :=
      protectEapol_eq hwire hx hclear hbuffer hroom (Nat.one_le_iff_ne_zero.mp hpn) hmax
    rw [htake]
    exact ⟨hlength,normalize_onAir hwire hx hclear hkey hown hbssid hfrom hto hmax⟩
  · intro buffer length pn h
    exact protectEapol_rejected h

end FrameCodec

/-! ## The wire format

A data frame as the standard lays it out: frame control and flags, three addresses, a
fourth one between distribution systems, QoS control and HT control. -/

namespace Wire
variable (b : List UInt8)

def byteAt (i : ℕ) : UInt8 := b.getD i 0

def addressAt (i : ℕ) : Bytes 6 := fun k => byteAt b (i + k)

def toDs (flags : UInt8) : Bool := flags &&& 1 != 0

def fromDs (flags : UInt8) : Bool := flags &&& 2 != 0

def isProtected (flags : UInt8) : Bool := flags &&& 0x40 != 0

def order (flags : UInt8) : Bool := flags &&& 0x80 != 0

def isQos (control : UInt8) : Bool := control &&& 0x80 != 0

/-- Where the optional fields end. -/
def addressesLength (flags : UInt8) : ℕ := if toDs flags && fromDs flags then 30 else 24

def headerLength (control flags : UInt8) : ℕ :=
  addressesLength flags + if isQos control then (if order flags then 6 else 2) else 0

def isAmsdu (control flags : UInt8) : Bool :=
  isQos control && (byteAt b (addressesLength flags) &&& 0x80 != 0)

/-- The fields of a header with given flags; a null frame has no payload. -/
def frame (flags : UInt8) : WireFrame where
  address1 := addressAt b 4
  address2 := addressAt b 10
  fromDs := fromDs flags
  toDs := toDs flags
  isProtected := isProtected flags
  payload := if byteAt b 0 &&& 0x40 != 0 then none
    else some (b.drop (headerLength (byteAt b 0) flags))
  destinationAddress := if isAmsdu b (byteAt b 0) flags then none
    else some (addressAt b (if toDs flags then 16 else 4))
  sourceAddress := if isAmsdu b (byteAt b 0) flags then none
    else some (addressAt b (if fromDs flags then (if toDs flags then 24 else 16) else 10))
  lengthInBytes := headerLength (byteAt b 0) flags
  isAmsdu := isAmsdu b (byteAt b 0) flags

def dataFrame : Option WireFrame :=
  if byteAt b 0 &&& 0x0f = 0x08 ∧ headerLength (byteAt b 0) (byteAt b 1) ≤ b.length then
    some (frame b (byteAt b 1))
  else none

def potentiallyWrappedPayload (w : WireFrame) :
    Except PayloadPanic (Option PotentiallyWrappedPayload) :=
  match w.payload with
  | none => .ok none
  | some body =>
    if w.isProtected then
      match ccmpKeyId body with
      | none => .error .invalidCryptoHeader
      | some _ => .ok (some (.cryptoWrapped (ccmpPacketNumber body)
          (if w.isAmsdu then .amsdu [] else .single (body.drop 8))))
    else .ok (some (.unwrapped (if w.isAmsdu then .amsdu [] else .single body)))

/-- The codec of the wire format. The subframes of an A-MSDU are not split. -/
def codec : FrameCodec where
  genericFrame b := if b.length < 10 then none else some
    { frameType := if byteAt b 0 &&& 0x0c = 0x08 then .data
        else if byteAt b 0 &&& 0x0c = 0x04 then .control else .management .other
      address1 := addressAt b 4
      isEapolKeyFrame := false }
  dataFrame := dataFrame
  readPayload amsdu bytes := if amsdu then .amsdu [] else .single bytes
  potentiallyWrappedPayload := potentiallyWrappedPayload
  cryptoHeader pn := if pn ≤ maxPn then some (ccmpHeader pn) else none

variable {b}

theorem addressesLength_ge (flags : UInt8) : 24 ≤ addressesLength flags := by
  unfold addressesLength
  split <;> omega

theorem addressesLength_le (control flags : UInt8) :
    addressesLength flags ≤ headerLength control flags := Nat.le_add_right _ _

/-- The Protected flag is none of the bits the rest of the header depends on. -/
theorem flags_setProtected (f : UInt8) : toDs (f ||| 0x40) = toDs f ∧
    fromDs (f ||| 0x40) = fromDs f ∧ order (f ||| 0x40) = order f ∧
    isProtected (f ||| 0x40) = true := by
  obtain ⟨v⟩ := f
  revert v
  decide +kernel

theorem headerLength_setProtected (control f : UInt8) :
    headerLength control (f ||| 0x40) = headerLength control f ∧
      addressesLength (f ||| 0x40) = addressesLength f := by
  obtain ⟨hto,hfrom,horder,_⟩ := flags_setProtected f
  simp only [headerLength,addressesLength,hto,hfrom,horder,and_self]

theorem byteAt_reframed {h i : ℕ} {rest : List UInt8} (hh : h ≤ b.length) (hi : i < h)
    (hne : i ≠ 1) : byteAt (setProtected (b.take h) ++ rest) i = byteAt b i := by
  have hlen : i < (setProtected (b.take h)).length := by
    rw [setProtected,List.length_modify,List.length_take_of_le hh]
    exact hi
  rw [byteAt,byteAt,List.getD_eq_getElem?_getD,List.getD_eq_getElem?_getD,
    List.getElem?_append_left hlen,setProtected,List.getElem?_modify_ne _ _ (Ne.symm hne),
    List.getElem?_take_of_lt hi]

theorem byteAt_reframed_flags {h : ℕ} {rest : List UInt8} (hh : h ≤ b.length) (hi : 2 ≤ h) :
    byteAt (setProtected (b.take h) ++ rest) 1 = byteAt b 1 ||| 0x40 := by
  match b with
  | [] => simp at hh; omega
  | [_] => simp at hh; omega
  | f₀ :: f :: tail =>
    obtain ⟨k,rfl⟩ : ∃ k, h = k + 2 := ⟨h - 2,by omega⟩
    rfl

theorem addressAt_reframed {h i : ℕ} {rest : List UInt8} (hh : h ≤ b.length) (hi : i + 6 ≤ h)
    (hone : 1 < i) : addressAt (setProtected (b.take h) ++ rest) i = addressAt b i := by
  funext k
  exact byteAt_reframed hh (by omega) (by omega)

/-- Where the source address stands depends on flags that stay, and it lies in the header. -/
theorem sourceAddress_reframed {h : ℕ} {f : UInt8} (rest : List UInt8) (hh : h ≤ b.length)
    (hle : addressesLength f ≤ h) :
    addressAt (setProtected (b.take h) ++ rest)
      (if fromDs f then (if toDs f then 24 else 16) else 10) =
      addressAt b (if fromDs f then (if toDs f then 24 else 16) else 10) := by
  have hge := addressesLength_ge f
  cases hf : fromDs f with
  | false => exact addressAt_reframed hh (i := 10) (by omega) (by omega)
  | true =>
    cases ht : toDs f with
    | false => exact addressAt_reframed hh (i := 16) (by omega) (by omega)
    | true =>
      have hfour : addressesLength f = 30 := by simp [addressesLength,hf,ht]
      exact addressAt_reframed hh (i := 24) (by omega) (by omega)

theorem destinationAddress_reframed {h : ℕ} (f : UInt8) (rest : List UInt8) (hh : h ≤ b.length)
    (hle : 24 ≤ h) :
    addressAt (setProtected (b.take h) ++ rest) (if toDs f then 16 else 4) =
      addressAt b (if toDs f then 16 else 4) := by
  cases toDs f with
  | false => exact addressAt_reframed hh (i := 4) (by omega) (by omega)
  | true => exact addressAt_reframed hh (i := 16) (by omega) (by omega)

theorem dataFrame_some {w : WireFrame} (h : dataFrame b = some w) :
    byteAt b 0 &&& 0x0f = 0x08 ∧ headerLength (byteAt b 0) (byteAt b 1) ≤ b.length ∧
      w = frame b (byteAt b 1) := by
  unfold dataFrame at h
  split at h
  · rename_i hcond
    exact ⟨hcond.1,hcond.2,(Option.some.inj h).symm⟩
  · cases h

theorem isAmsdu_reframed {f : UInt8} {rest : List UInt8}
    (hh : headerLength (byteAt b 0) f ≤ b.length) :
    isAmsdu (setProtected (b.take (headerLength (byteAt b 0) f)) ++ rest) (byteAt b 0)
      (f ||| 0x40) = isAmsdu b (byteAt b 0) f := by
  have hge := addressesLength_ge f
  rw [isAmsdu,isAmsdu,(headerLength_setProtected (byteAt b 0) f).2]
  cases hqos : isQos (byteAt b 0) with
  | false => rfl
  | true =>
    have hlt : addressesLength f < headerLength (byteAt b 0) f := by
      rw [headerLength,hqos,if_pos rfl]
      split <;> omega
    rw [byteAt_reframed hh hlt (by omega)]

/-- The header of a clear frame with a body, put in front of anything with the Protected
flag set, is the same header. -/
theorem dataFrame_reframed {w : WireFrame} {p : List UInt8} (rest : List UInt8)
    (hb : dataFrame b = some w) (hp : w.payload = some p) :
    dataFrame (setProtected (b.take w.lengthInBytes) ++ rest) =
      some { w with isProtected := true, payload := some rest } := by
  obtain ⟨hdata,hh,rfl⟩ := dataFrame_some hb
  let f := byteAt b 1
  let h := headerLength (byteAt b 0) f
  have hge : 24 ≤ addressesLength f := addressesLength_ge f
  have hle : addressesLength f ≤ h := addressesLength_le (byteAt b 0) f
  obtain ⟨hto,hfrom,_,hprotected⟩ := flags_setProtected f
  obtain ⟨hheader,_⟩ := headerLength_setProtected (byteAt b 0) f
  have hcontrol : byteAt (setProtected (b.take h) ++ rest) 0 = byteAt b 0 :=
    byteAt_reframed hh (by omega) (by omega)
  have hflags : byteAt (setProtected (b.take h) ++ rest) 1 = f ||| 0x40 :=
    byteAt_reframed_flags hh (by omega)
  have hlength : (setProtected (b.take h)).length = h := by
    rw [setProtected,List.length_modify,List.length_take_of_le hh]
  have hdrop : (setProtected (b.take h) ++ rest).drop h = rest := by
    nth_rewrite 1 [← hlength]
    exact List.drop_left
  have hnull : (byteAt b 0 &&& 0x40 != 0) = false := by
    by_contra hne
    rw [Bool.not_eq_false] at hne
    simp [frame,hne] at hp
  have hlow : ∀ i, 1 < i → i + 6 ≤ 24 →
      addressAt (setProtected (b.take h) ++ rest) i = addressAt b i := fun i hone hi =>
    addressAt_reframed hh (by omega) hone
  have hsource : addressAt (setProtected (b.take h) ++ rest)
      (if fromDs f then (if toDs f then 24 else 16) else 10) =
      addressAt b (if fromDs f then (if toDs f then 24 else 16) else 10) :=
    sourceAddress_reframed rest hh hle
  have hdestination : addressAt (setProtected (b.take h) ++ rest) (if toDs f then 16 else 4) =
      addressAt b (if toDs f then 16 else 4) :=
    destinationAddress_reframed f rest hh (hge.trans hle)
  have hamsdu : isAmsdu (setProtected (b.take h) ++ rest) (byteAt b 0) (f ||| 0x40) =
      isAmsdu b (byteAt b 0) f := isAmsdu_reframed hh
  have hframe : frame (setProtected (b.take h) ++ rest) (f ||| 0x40) =
      { frame b f with isProtected := true, payload := some rest } := by
    simp only [frame,hcontrol,hheader,hto,hfrom,hprotected,hnull,hamsdu,hsource,hdestination,
      hlow 4 (by omega) (by omega),hlow 10 (by omega) (by omega),Bool.false_eq_true,if_false]
    rw [hdrop]
  have hcond : byteAt (setProtected (b.take h) ++ rest) 0 &&& 0x0f = 0x08 ∧
      headerLength (byteAt (setProtected (b.take h) ++ rest) 0)
        (byteAt (setProtected (b.take h) ++ rest) 1) ≤
        (setProtected (b.take h) ++ rest).length := by
    rw [hcontrol,hflags,hheader,List.length_append,hlength]
    exact ⟨hdata,Nat.le_add_right _ _⟩
  change dataFrame (setProtected (b.take h) ++ rest) = _
  rw [dataFrame,if_pos hcond,hflags,hframe]

theorem codec_onTheWire : codec.OnTheWire where
  header b w hb := by
    obtain ⟨_,hh,rfl⟩ := dataFrame_some hb
    have hge := addressesLength_ge (byteAt b 1)
    have hle := addressesLength_le (byteAt b 0) (byteAt b 1)
    exact ⟨by change 2 ≤ headerLength _ _; omega,hh⟩
  payload b w p hb hp := by
    obtain ⟨_,_,rfl⟩ := dataFrame_some hb
    simp only [frame] at hp
    split at hp
    · cases hp
    · exact (Option.some.inj hp).symm
  protectedFlag b w hb := by
    obtain ⟨_,hh,rfl⟩ := dataFrame_some hb
    have hge := addressesLength_ge (byteAt b 1)
    have hle := addressesLength_le (byteAt b 0) (byteAt b 1)
    change isProtected (byteAt b 1) = _
    have hlt : 1 < b.length := by omega
    rw [byteAt,List.getD_eq_getElem _ _ hlt,List.getElem?_eq_getElem hlt]
    rfl
  reframed b w p rest hb _ hp := dataFrame_reframed rest hb hp
  panics w := by
    change (∃ e, potentiallyWrappedPayload w = .error e) ↔ _
    unfold potentiallyWrappedPayload
    cases hp : w.payload with
    | none => simp
    | some body =>
      cases hprot : w.isProtected with
      | false => simp
      | true =>
        cases hk : ccmpKeyId body with
        | none => simpa [hk] using ⟨PayloadPanic.invalidCryptoHeader⟩
        | some id => simp [hk]
  unwrapped w p hclear hp := by
    simp only [codec,potentiallyWrappedPayload,hp,hclear,Bool.false_eq_true,if_false]
  wrapped w body hprot hp hk := by
    obtain ⟨id,hid⟩ := Option.isSome_iff_exists.mp hk
    simp only [codec,potentiallyWrappedPayload,hp,hprot,hid,if_true]
  absent w hp := by simp only [codec,potentiallyWrappedPayload,hp]
  cryptoHeader pn hpn := if_pos hpn

/-- A clear QoS frame from the access point 2 to the station 1 with an EAPOL key packet. -/
def keyFrame : List UInt8 :=
  [0x88,0x02,0,0] ++ List.replicate 6 1 ++ List.replicate 6 2 ++ List.replicate 6 3 ++ [0,0,0,0] ++
    eapolLlc ++ [2,3,0,0]

theorem eapol_round_trip_keyFrame : ∃ left, codec.normalize
    ((codec.protectEapol (keyFrame ++ List.replicate 16 0xff) 38 0x123456789abc).2.take 46)
      (fun _ => 1) (fun _ => 2) = .ok (some (38,some 0x123456789abc),left) ∧
    left.take 38 = keyFrame := by
  have h := (FrameCodec.eapol_round_trip codec_onTheWire).1 keyFrame (frame keyFrame 2)
    (fun _ => 1) (fun _ => 2) rfl rfl (by decide) (by decide) rfl rfl rfl
  exact (h.1 (keyFrame ++ List.replicate 16 0xff) 0x123456789abc (by norm_num) (by norm_num) rfl
    (by decide)).2

end Wire

end FerrisOnAir.Sta

import FerrisOnAir.Foundation.PeekQueue
import FerrisOnAir.Rsn.KeyEnvelope
import FerrisOnAir.Rsn.PacketNumbers

/-! # Retiring MSDUs

One pass of `run_msdu_tx` in `foa_sta/src/runner.rs` with every call it makes, up to the
end of the loop body or one of its two `continue`s. `tx_buf` returns the same MSDU until
`tx_done`, so an MSDU whose pass leaves early is the next one again. Parsing Ethernet and
serializing the data frame belong to the crates `ethernet` and `ieee80211` and are
parameters.
-/
namespace FerrisOnAir.Sta
open Rsn Tx

structure Ethernet2Frame where
  dst : Bytes 6
  src : Bytes 6
  etherType : ℕ
  payload : List UInt8
deriving DecidableEq

/-- The data frame of an MSDU: to the distribution system, around an LLC frame with a zero
OUI. -/
structure MsduFrame where
  address1 : Bytes 6
  address2 : Bytes 6
  address3 : Bytes 6
  toDs : Bool
  etherType : ℕ
  payload : List UInt8
deriving DecidableEq

/-- `pwrite` returns the bytes written into a buffer of a given length; with a CCMP header
the frame is wrapped and room is left for a short MIC. -/
structure MsduCrates where
  ethernet2Frame : List UInt8 → Option Ethernet2Frame
  pwrite : MsduFrame → Option CryptoHeader → ℕ → Option ℕ

inductive MsduCall
  | waitForOffChannelCompletion
  | allocTxBuf
  | transmitEdca (frame : MsduFrame) (header : Option CryptoHeader) (written : ℕ)
      (mac : TxMacParameters)
  | txDone
deriving DecidableEq

/-- The unwrapped `CryptoHeader::new`. -/
inductive MsduPanic
  | invalidCryptoHeader
deriving DecidableEq

/-- The connection and what a pass finds in the shared state: whether its interface is off
channel, and the PTK with its key slot. -/
structure MsduContext where
  bssid : Bytes 6
  ownAddress : Bytes 6
  inOffChannelOperation : Bool
  cryptoState : Option (TransientKeySecurityAssociation 48 × ℕ)

def MsduContext.dataFrame (context : MsduContext) (ethernet : Ethernet2Frame) : MsduFrame where
  address1 := context.bssid
  address2 := context.ownAddress
  address3 := ethernet.dst
  toDs := true
  etherType := ethernet.etherType
  payload := ethernet.payload

namespace MsduCrates
variable (crates : MsduCrates)

/-- The frame in the buffer and the key slot it is sent with, or the `continue` if it does
not fit. -/
def writeMsdu (context : MsduContext) (frame : MsduFrame) :
    Except MsduPanic (Option (Option CryptoHeader × ℕ × Option ℕ)) :=
  match context.cryptoState with
  | some (ptksa,keySlot) =>
    match CryptoHeader.new ptksa.nextPacketNumber.1 ptksa.keyId with
    | none => .error .invalidCryptoHeader
    | some header => .ok ((crates.pwrite frame (some header) txBufferSize).map
        (fun written => (some header,written,some keySlot)))
  | none => .ok ((crates.pwrite frame none txBufferSize).map (fun written => (none,written,none)))

/-- The rest of a pass once the buffer is written. -/
def transmitMsdu (frame : MsduFrame) : Option (Option CryptoHeader × ℕ × Option ℕ) → List MsduCall
  | none => []
  | some (header,written,keySlot) =>
    [.transmitEdca frame header written ⟨keySlot,true,true⟩,.txDone]

/-- One pass of `run_msdu_tx`, after `tx_buf`. -/
def runMsduTx (context : MsduContext) (msdu : List UInt8) : Except MsduPanic (List MsduCall) :=
  let waited := if context.inOffChannelOperation then [MsduCall.waitForOffChannelCompletion] else []
  match crates.ethernet2Frame msdu with
  | none => .ok waited
  | some ethernet =>
    (crates.writeMsdu context (context.dataFrame ethernet)).map (fun w =>
      waited ++ .allocTxBuf :: transmitMsdu (context.dataFrame ethernet) w)

/-- How often a pass retires the MSDU it fetched. -/
def retirements (context : MsduContext) (msdu : List UInt8) : Option ℕ :=
  (crates.runMsduTx context msdu).toOption.map (fun calls => calls.count .txDone)

/-- A data frame has 24 bytes of header and 8 of LLC in front of its payload, and 16 more
if it is wrapped. It is written exactly if it fits. -/
def Measures : Prop :=
  ∀ frame header n, (crates.pwrite frame header n).isSome ↔
    24 + 8 + frame.payload.length + (if header.isSome then 16 else 0) ≤ n

/-- A data frame with this payload fits a transmit buffer, and CCMP can carry the packet
number it is sent with. -/
def Fits (context : MsduContext) (payload : List UInt8) : Prop :=
  match context.cryptoState with
  | none => 32 + payload.length ≤ txBufferSize
  | some (ptksa,_) => 1 ≤ ptksa.packetNumber ∧ ptksa.packetNumber ≤ CryptoHeader.maxPn ∧
      48 + payload.length ≤ txBufferSize

instance (context : MsduContext) (payload : List UInt8) : Decidable (Fits context payload) :=
  match context with
  | ⟨_,_,_,none⟩ => inferInstanceAs (Decidable (_ ≤ _))
  | ⟨_,_,_,some _⟩ => inferInstanceAs (Decidable (_ ∧ _ ∧ _))

/-- The MSDU is an Ethernet II frame and fits. -/
def Transmittable (context : MsduContext) (msdu : List UInt8) : Prop :=
  ∃ ethernet, crates.ethernet2Frame msdu = some ethernet ∧ Fits context ethernet.payload

variable {crates} {s : Consumer (List UInt8)} {context : MsduContext} {msdu : List UInt8}

theorem cryptoHeader_new_isSome {pn keyId : ℕ} :
    (CryptoHeader.new pn keyId).isSome ↔ 1 ≤ pn ∧ pn ≤ CryptoHeader.maxPn := by
  unfold CryptoHeader.new
  split <;> simp_all

theorem exists_ok_map_iff {ε α β : Type*} {o : Option α} {f : α → β} :
    (∃ x, (Except.ok (o.map f) : Except ε (Option β)) = .ok (some x)) ↔ o.isSome := by
  cases o with
  | none => simp
  | some a => simp

/-- The frame is written exactly if it fits and the packet number is in range. -/
theorem writeMsdu_iff (hm : crates.Measures) (frame : MsduFrame) :
    (∃ x, crates.writeMsdu context frame = .ok (some x)) ↔ Fits context frame.payload := by
  unfold writeMsdu Fits
  cases context.cryptoState with
  | none =>
    have hfit : (crates.pwrite frame none txBufferSize).isSome ↔
        24 + 8 + frame.payload.length + 0 ≤ txBufferSize := hm frame none txBufferSize
    exact exists_ok_map_iff.trans hfit
  | some crypto =>
    obtain ⟨ptksa,keySlot⟩ := crypto
    have hpn : (CryptoHeader.new ptksa.packetNumber ptksa.keyId).isSome ↔
        1 ≤ ptksa.packetNumber ∧ ptksa.packetNumber ≤ CryptoHeader.maxPn :=
      cryptoHeader_new_isSome
    change (∃ x, (match CryptoHeader.new ptksa.packetNumber ptksa.keyId with
      | none => Except.error MsduPanic.invalidCryptoHeader
      | some header => _) = Except.ok (some x)) ↔ _
    cases hnew : CryptoHeader.new ptksa.packetNumber ptksa.keyId with
    | none =>
      rw [hnew] at hpn
      constructor
      · rintro ⟨x,hx⟩
        cases hx
      · rintro ⟨hlow,hhigh,_⟩
        exact absurd (hpn.mpr ⟨hlow,hhigh⟩) (by simp)
    | some header =>
      rw [hnew] at hpn
      have hfit : (crates.pwrite frame (some header) txBufferSize).isSome ↔
          24 + 8 + frame.payload.length + 16 ≤ txBufferSize := hm frame (some header) txBufferSize
      obtain ⟨hlow,hhigh⟩ := hpn.mp rfl
      refine exists_ok_map_iff.trans (hfit.trans ?_)
      constructor
      · intro h
        exact ⟨hlow,hhigh,by omega⟩
      · rintro ⟨_,_,h⟩
        omega

theorem count_txDone (waits : Bool) (frame : MsduFrame)
    (w : Option (Option CryptoHeader × ℕ × Option ℕ)) :
    ((if waits then [MsduCall.waitForOffChannelCompletion] else []) ++
      .allocTxBuf :: transmitMsdu frame w).count .txDone = if w.isSome then 1 else 0 := by
  cases waits with
  | false =>
    cases w with
    | none => rfl
    | some x => rfl
  | true =>
    cases w with
    | none => rfl
    | some x => rfl

/-- A pass that reaches its end calls `tx_done` once, one that leaves early never. -/
theorem runMsduTx_retires_iff (hm : crates.Measures) :
    (∃ calls, crates.runMsduTx context msdu = .ok calls ∧ calls.count .txDone = 1) ↔
      crates.Transmittable context msdu := by
  unfold runMsduTx Transmittable
  cases crates.ethernet2Frame msdu with
  | none =>
    cases context.inOffChannelOperation with
    | false => simp
    | true => simp
  | some ethernet =>
    have hwrite : (∃ x, crates.writeMsdu context (context.dataFrame ethernet) = .ok (some x)) ↔
        Fits context ethernet.payload := writeMsdu_iff hm (context.dataFrame ethernet)
    have hright : (∃ e, some ethernet = some e ∧ Fits context e.payload) ↔
        Fits context ethernet.payload := by simp
    rw [hright,← hwrite]
    dsimp only
    cases crates.writeMsdu context (context.dataFrame ethernet) with
    | error e => simp [Except.map]
    | ok w =>
      simp only [Except.map,Except.ok.injEq,exists_eq_left',count_txDone]
      cases w with
      | none => simp
      | some x => simp

/-- The two crates, as far as lengths go. -/
def byLength : MsduCrates where
  ethernet2Frame b :=
    if 14 ≤ b.length then
      some ⟨fun i => b.getD i 0,fun i => b.getD (6 + i) 0,beU16 (b.getD 12 0) (b.getD 13 0),b.drop 14⟩
    else none
  pwrite frame header n :=
    let length := 24 + 8 + frame.payload.length + if header.isSome then 16 else 0
    if length ≤ n then some length else none

theorem byLength_measures : byLength.Measures := by
  intro frame header n
  simp only [byLength]
  split <;> simp_all

/-- A connection without encryption, on channel. -/
def clearContext : MsduContext := ⟨0,0,false,none⟩

end MsduCrates

end FerrisOnAir.Sta

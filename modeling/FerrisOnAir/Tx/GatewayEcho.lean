import FerrisOnAir.Foundation.Parts
import FerrisOnAir.Rsn.KeyEnvelope

/-! # Echo requests to the gateway

`gateway_echo_sequence` of `foa/src/tx_probe.rs` finds the echo requests of the probe among the
Ethernet frames that are sent. It accepts exactly the frames of a grammar, and what it ignores
in them does not matter in any other frame either.
-/
namespace FerrisOnAir.Tx.Probe
open Rsn Slices
variable {κ : Type}

/-- `u16::from_be_bytes(part.get(a..a + 2)?.try_into().ok()?)`. -/
def fetchBeU16 (part : Part) (xs : List UInt8) (a : ℕ) : Run κ ℕ := do
  let fetched ← part.fetch xs a (a + 2)
  let bytes ← Run.ofOption (tryIntoBytes 2 fetched)
  return beU16 (bytes 0) (bytes 1)

/-- The first half of `gateway_echo_sequence`, up to the ICMP message. -/
def gatewayIcmp (ethernet : List UInt8) (gateway : Bytes 4) : Run Empty Part := do
  let frame := Part.all ethernet
  let etherType ← frame.fetch ethernet 12 14
  Run.rejectIf (etherType ≠ [0x08,0x00])
  let ip ← Run.ofOption (frame.getFrom 14)
  let versionIhl ← ip.fetchAt ethernet 0
  let header := (versionIhl &&& 15).toNat * 4
  Run.rejectIf (versionIhl >>> 4 ≠ 4 ∨ header < 20)
  let total ← fetchBeU16 ip ethernet 2
  Run.rejectIf (total ≠ header + 520 ∨ total > ip.length)
  let protocol ← ip.fetchAt ethernet 9
  Run.rejectIf (protocol ≠ 1)
  let destination ← ip.fetch ethernet 16 20
  Run.rejectIf (destination ≠ List.ofFn gateway)
  let fragment ← fetchBeU16 ip ethernet 6
  Run.rejectIf (fragment &&& 0x3fff ≠ 0)
  Run.ofOption (ip.get header total)

/-- The second half. -/
def echoSequence (ethernet : List UInt8) (icmp : Part) : Run Empty ℕ := do
  let echo ← icmp.fetch ethernet 0 2
  Run.rejectIf (echo ≠ [8,0])
  let identifier ← icmp.fetch ethernet 4 6
  Run.rejectIf (identifier ≠ [0x53,0x53])
  let sequence ← fetchBeU16 icmp ethernet 6
  Run.rejectIf (¬ (1 ≤ sequence ∧ sequence ≤ 20))
  let payload ← icmp.fetch ethernet 8 icmp.length
  Run.rejectIf (payload.all (· == 0x5a) = false)
  return sequence

def gatewayEchoSequence (ethernet : List UInt8) (gateway : Bytes 4) : Run Empty ℕ := do
  let icmp ← gatewayIcmp ethernet gateway
  echoSequence ethernet icmp

/-! ## The grammar -/

/-- `u16::to_be_bytes`. -/
def be16 (n : ℕ) : List UInt8 := [UInt8.ofNat (n / 256),UInt8.ofNat n]

/-- The first byte of the fragment field without `MF` and offset. -/
def fragmentFlags (reserved dontFragment : Bool) : UInt8 :=
  (if reserved then 0x80 else 0) + (if dontFragment then 0x40 else 0)

/-- An echo request of the probe in an Ethernet frame. -/
structure GatewayEcho where
  macAddresses : List.Vector UInt8 12
  ihl : ℕ
  ihl_mem : 5 ≤ ihl ∧ ihl ≤ 15
  typeOfService : UInt8
  identification : List.Vector UInt8 2
  reserved : Bool
  dontFragment : Bool
  timeToLive : UInt8
  headerChecksum : List.Vector UInt8 2
  source : List.Vector UInt8 4
  options : List.Vector UInt8 (4 * ihl - 20)
  icmpChecksum : List.Vector UInt8 2
  sequence : ℕ
  sequence_mem : 1 ≤ sequence ∧ sequence ≤ 20
  padding : List UInt8

namespace GatewayEcho
variable (p : GatewayEcho) (gateway : Bytes 4)

def segments : List (List UInt8) :=
  [p.macAddresses.toList,[0x08,0x00],
    [UInt8.ofNat (0x40 + p.ihl)],[p.typeOfService],be16 (4 * p.ihl + 520),
    p.identification.toList,[fragmentFlags p.reserved p.dontFragment,0],[p.timeToLive],[1],
    p.headerChecksum.toList,p.source.toList,List.ofFn gateway,p.options.toList,
    [8,0],p.icmpChecksum.toList,[0x53,0x53],be16 p.sequence,List.replicate 512 0x5a,p.padding]

def bytes : List UInt8 := (p.segments gateway).flatten

/-- What an echo says of its length. -/
theorem lengths : (p.segments gateway).map List.length =
    [12,2,1,1,2,2,2,1,1,2,4,4,4 * p.ihl - 20,2,2,2,2,512,p.padding.length] := by
  simp only [segments,be16,List.map_cons,List.map_nil,List.Vector.toList_length,List.length_cons,
    List.length_nil,List.length_ofFn,List.length_replicate]

/-- A segment stands behind the ones before it. -/
theorem slice_bytes {p : GatewayEcho} {gateway : Bytes 4} (i : ℕ)
    (h : i < (p.segments gateway).length) {a b : ℕ}
    (ha : a = (List.take i
      [12,2,1,1,2,2,2,1,1,2,4,4,4 * p.ihl - 20,2,2,2,2,512,p.padding.length]).sum)
    (hb : b = a + (p.segments gateway)[i].length) :
    slice (p.bytes gateway) a b = (p.segments gateway)[i] := by
  rw [← p.lengths gateway] at ha
  exact slice_flatten h ha hb

/-- A segment of the message, counted from its start. -/
theorem slice_message {p : GatewayEcho} {gateway : Bytes 4} (i : ℕ)
    (h : 13 + i < (p.segments gateway).length) {a b : ℕ}
    (ha : a = 14 + 4 * p.ihl + (List.take i [2,2,2,2,512,p.padding.length]).sum)
    (hb : b = a + (p.segments gateway)[13 + i].length) :
    slice (p.bytes gateway) a b = (p.segments gateway)[13 + i] := by
  have hihl := p.ihl_mem
  refine slice_bytes (13 + i) h (ha.trans ?_) hb
  rw [Nat.add_comm 13 i]
  simp only [List.take_succ_cons,List.sum_cons]
  omega

theorem length_bytes : (p.bytes gateway).length = 14 + 4 * p.ihl + 520 + p.padding.length := by
  have hihl := p.ihl_mem
  rw [bytes,List.length_flatten,lengths]
  simp only [List.sum_cons,List.sum_nil]
  omega

end GatewayEcho

section Bytes

theorem toNat_ofNat_lt {n : ℕ} (h : n < 256) : (UInt8.ofNat n).toNat = n := by
  rw [UInt8.toNat_ofNat']
  exact Nat.mod_eq_of_lt h

theorem beU16_eq_iff {x y : UInt8} {n : ℕ} (hn : n < 65536) :
    beU16 x y = n ↔ [x,y] = be16 n := by
  have hx := x.toNat_lt
  have hy := y.toNat_lt
  have hhigh : (UInt8.ofNat (n / 256)).toNat = n / 256 := toNat_ofNat_lt (by omega)
  have hlow : (UInt8.ofNat n).toNat = n % 256 := UInt8.toNat_ofNat'
  unfold beU16 be16
  constructor
  · intro h
    have hxn : x = UInt8.ofNat (n / 256) := by
      apply UInt8.toNat_inj.mp
      omega
    have hyn : y = UInt8.ofNat n := by
      apply UInt8.toNat_inj.mp
      omega
    rw [hxn,hyn]
  · intro h
    obtain ⟨rfl,hrest⟩ := List.cons_eq_cons.mp h
    obtain ⟨rfl,-⟩ := List.cons_eq_cons.mp hrest
    omega

theorem be16_injective {m n : ℕ} (hm : m < 65536) (hn : n < 65536) (h : be16 m = be16 n) :
    m = n := by
  have hsame := (beU16_eq_iff hm).mpr (rfl : be16 m = be16 m)
  have hother := (beU16_eq_iff hn).mpr h
  exact hsame.symm.trans hother

/-- The version and the length of the header share a byte. -/
theorem versionIhl_iff {v : UInt8} {ihl : ℕ} (hihl : ihl ≤ 15) :
    v >>> 4 = 4 ∧ (v &&& 15).toNat = ihl ↔ v = UInt8.ofNat (0x40 + ihl) := by
  have hv := v.toNat_lt
  have hlow : (v &&& 15).toNat = v.toNat % 16 := Nat.and_two_pow_sub_one_eq_mod v.toNat 4
  have hhigh : (v >>> 4).toNat = v.toNat / 16 := Nat.shiftRight_eq_div_pow v.toNat 4
  have hbyte : (UInt8.ofNat (0x40 + ihl)).toNat = 0x40 + ihl := toNat_ofNat_lt (by omega)
  rw [← UInt8.toNat_inj,← UInt8.toNat_inj,hlow,hhigh,hbyte]
  change v.toNat / 16 = 4 ∧ _ ↔ _
  omega

theorem fragment_iff {x y : UInt8} :
    beU16 x y &&& 0x3fff = 0 ↔
      y = 0 ∧ ∃ reserved dontFragment, x = fragmentFlags reserved dontFragment := by
  have hx := x.toNat_lt
  have hy := y.toNat_lt
  have hmask : beU16 x y &&& 0x3fff = beU16 x y % 2 ^ 14 :=
    Nat.and_two_pow_sub_one_eq_mod (beU16 x y) 14
  rw [hmask]
  unfold beU16
  constructor
  · intro h
    have hzero : y = 0 := by
      apply UInt8.toNat_inj.mp
      change y.toNat = 0
      omega
    have hflags : x.toNat = 0 ∨ x.toNat = 64 ∨ x.toNat = 128 ∨ x.toNat = 192 := by omega
    refine ⟨hzero,?_⟩
    rcases hflags with hx | hx | hx | hx
    · exact ⟨false,false,UInt8.toNat_inj.mp hx⟩
    · exact ⟨false,true,UInt8.toNat_inj.mp hx⟩
    · exact ⟨true,false,UInt8.toNat_inj.mp hx⟩
    · exact ⟨true,true,UInt8.toNat_inj.mp hx⟩
  · rintro ⟨rfl,reserved,dontFragment,rfl⟩
    cases reserved <;> cases dontFragment <;> rfl

theorem payload_iff {xs : List UInt8} (h : xs.length = 512) :
    xs.all (· == 0x5a) = true ↔ xs = List.replicate 512 0x5a := by
  rw [List.all_eq_true,List.eq_replicate_iff]
  simp only [beq_iff_eq,h,true_and]

end Bytes

/-! ## The places of the grammar -/

/-- Where an input has the segments of the headers that a gateway echo determines. -/
structure HeaderAt (ethernet : List UInt8) (gateway : Bytes 4) (ihl : ℕ) : Prop where
  ihl_mem : 5 ≤ ihl ∧ ihl ≤ 15
  length_ge : 14 + 4 * ihl + 520 ≤ ethernet.length
  etherType : slice ethernet 12 14 = [0x08,0x00]
  versionIhl : slice ethernet 14 15 = [UInt8.ofNat (0x40 + ihl)]
  total : slice ethernet 16 18 = be16 (4 * ihl + 520)
  fragment : ∃ reserved dontFragment,
    slice ethernet 20 22 = [fragmentFlags reserved dontFragment,0]
  protocol : slice ethernet 23 24 = [1]
  destination : slice ethernet 30 34 = List.ofFn gateway

/-- Those of the message, which begins at `start`. -/
structure EchoAt (ethernet : List UInt8) (start sequence : ℕ) : Prop where
  sequence_mem : 1 ≤ sequence ∧ sequence ≤ 20
  echo : slice ethernet start (start + 2) = [8,0]
  identifier : slice ethernet (start + 4) (start + 6) = [0x53,0x53]
  sequenceNumber : slice ethernet (start + 6) (start + 8) = be16 sequence
  payload : slice ethernet (start + 8) (start + 520) = List.replicate 512 0x5a

structure Placed (ethernet : List UInt8) (gateway : Bytes 4) (ihl sequence : ℕ) : Prop where
  header : HeaderAt ethernet gateway ihl
  message : EchoAt ethernet (14 + 4 * ihl) sequence

namespace Placed
variable {ethernet : List UInt8} {gateway : Bytes 4} {ihl sequence : ℕ}

theorem of_bytes (p : GatewayEcho) (gateway : Bytes 4) :
    Placed (p.bytes gateway) gateway p.ihl p.sequence := by
  have hlen : 19 = (p.segments gateway).length := rfl
  refine ⟨⟨p.ihl_mem,?_,?_,?_,?_,⟨p.reserved,p.dontFragment,?_⟩,?_,?_⟩,
    ⟨p.sequence_mem,?_,?_,?_,?_⟩⟩
  · rw [p.length_bytes]
    exact Nat.le_add_right _ _
  · exact GatewayEcho.slice_bytes 1 (by omega) rfl rfl
  · exact GatewayEcho.slice_bytes 2 (by omega) rfl rfl
  · exact GatewayEcho.slice_bytes 4 (by omega) rfl rfl
  · exact GatewayEcho.slice_bytes 6 (by omega) rfl rfl
  · exact GatewayEcho.slice_bytes 8 (by omega) rfl rfl
  · exact GatewayEcho.slice_bytes 11 (by omega) rfl rfl
  · exact GatewayEcho.slice_message 0 (by omega) rfl rfl
  · exact GatewayEcho.slice_message 2 (by omega) rfl rfl
  · exact GatewayEcho.slice_message 3 (by omega) rfl rfl
  · have hsegment : (p.segments gateway)[17] = List.replicate 512 0x5a := rfl
    refine GatewayEcho.slice_message 4 (by omega) rfl ?_
    rw [hsegment,List.length_replicate]

/-- What stands in the other places makes up an echo. -/
theorem exists_bytes (h : Placed ethernet gateway ihl sequence) :
    ∃ p : GatewayEcho, p.sequence = sequence ∧ p.bytes gateway = ethernet := by
  obtain ⟨hge,hle⟩ := h.header.ihl_mem
  have hlen := h.header.length_ge
  have hvector : ∀ a b n : ℕ, b ≤ ethernet.length → b - a = n →
      (slice ethernet a b).length = n := by
    intro a b n hb hn
    rw [length_slice hb,hn]
  obtain ⟨reserved,dontFragment,hfragment⟩ := h.header.fragment
  have h15 : 15 < ethernet.length := by omega
  have h22 : 22 < ethernet.length := by omega
  refine ⟨⟨⟨slice ethernet 0 12,hvector 0 12 12 (by omega) rfl⟩,ihl,h.header.ihl_mem,ethernet[15],
    ⟨slice ethernet 18 20,hvector 18 20 2 (by omega) rfl⟩,reserved,dontFragment,ethernet[22],
    ⟨slice ethernet 24 26,hvector 24 26 2 (by omega) rfl⟩,
    ⟨slice ethernet 26 30,hvector 26 30 4 (by omega) rfl⟩,
    ⟨slice ethernet 34 (14 + 4 * ihl),hvector 34 _ _ (by omega) (by omega)⟩,
    ⟨slice ethernet (14 + 4 * ihl + 2) (14 + 4 * ihl + 4),hvector _ _ 2 (by omega) (by omega)⟩,
    sequence,h.message.sequence_mem,ethernet.drop (14 + 4 * ihl + 520)⟩,rfl,?_⟩
  rw [GatewayEcho.bytes,GatewayEcho.segments]
  simp only [List.Vector.toList_mk,List.flatten_cons,List.flatten_nil,List.append_nil]
  -- the type of the frame and that of the message are the same two bytes
  nth_rewrite 2 [← h.message.echo]
  rw [← h.header.etherType,← h.header.versionIhl,← h.header.total,← hfragment,← h.header.protocol,← h.header.destination,
    ← h.message.identifier,← h.message.sequenceNumber,← h.message.payload,← slice_succ h15,← slice_succ h22]
  simp (disch := omega) only [slice_append_drop,List.drop_zero]

end Placed

/-! ## The classifier -/
section Classifier
variable {P : κ → Prop} {β : Type} {r : Option β} {part : Part} {xs : List UInt8} {a : ℕ}

theorem fetchBeU16_ends {f : ℕ → Run κ β} (hpart : part.In xs) (ha : a + 2 ≤ part.length)
    (hf : ∀ x y, slice xs (part.start + a) (part.start + (a + 2)) = [x,y] →
      (f (beU16 x y)).Ends P r) :
    (fetchBeU16 part xs a >>= f).Ends P r := by
  have hlen : (slice xs (part.start + a) (part.start + (a + 2))).length = 2 := by
    rw [length_slice (Part.get_in hpart (Nat.le_add_right a 2) ha).stop_le]
    dsimp only
    omega
  obtain ⟨x,y,hslice⟩ := List.length_eq_two.mp hlen
  have hfetch : (fetchBeU16 part xs a : Run κ ℕ).Ends P (some (beU16 x y)) := by
    refine Part.fetch_ends hpart (Nat.le_add_right a 2) ha ?_
    rw [hslice]
    exact .bind .ofOption (.pure _)
  exact .bind hfetch (hf x y hslice)

theorem fetchBeU16_none {f : ℕ → Run κ β} (hpart : part.In xs)
    (hf : a + 2 ≤ part.length → ∀ x y,
      slice xs (part.start + a) (part.start + (a + 2)) = [x,y] → (f (beU16 x y)).Ends P none) :
    (fetchBeU16 part xs a >>= f).Ends P none := by
  by_cases ha : a + 2 ≤ part.length
  · exact fetchBeU16_ends hpart ha (hf ha)
  · have hfetch : (fetchBeU16 part xs a : Run κ ℕ).Ends P none := by
      apply Part.fetch_none hpart (Nat.le_add_right a 2)
      intro h
      exact absurd h ha
    exact .bind_none hfetch

variable {ethernet : List UInt8} {gateway : Bytes 4} {ihl sequence : ℕ}

theorem low_nibble_le (v : UInt8) : (v &&& 15).toNat ≤ 15 := by
  have hlow : (v &&& 15).toNat = v.toNat % 16 := Nat.and_two_pow_sub_one_eq_mod v.toNat 4
  omega

theorem HeaderAt.ihl_eq {ihl' : ℕ} (h : HeaderAt ethernet gateway ihl)
    (h' : HeaderAt ethernet gateway ihl') : ihl = ihl' := by
  have hbyte := List.singleton_inj.mp (h.versionIhl.symm.trans h'.versionIhl)
  have hihl := ((versionIhl_iff h.ihl_mem.2).mpr rfl).2
  have hihl' := ((versionIhl_iff h'.ihl_mem.2).mpr hbyte).2
  exact hihl.symm.trans hihl'

theorem EchoAt.sequence_eq {start sequence' : ℕ} (h : EchoAt ethernet start sequence)
    (h' : EchoAt ethernet start sequence') : sequence = sequence' := by
  have hone := h.sequence_mem
  have hone' := h'.sequence_mem
  apply be16_injective (by omega) (by omega)
  exact h.sequenceNumber.symm.trans h'.sequenceNumber

/-- The part of the message behind a header. -/
def messagePart (ihl : ℕ) : Part := ⟨14 + 4 * ihl,14 + (4 * ihl + 520)⟩

theorem messagePart_length (ihl : ℕ) : (messagePart ihl).length = 520 := by
  rw [messagePart,Part.length,Nat.add_sub_add_left,Nat.add_sub_cancel_left]

theorem messagePart_in (h : 14 + 4 * ihl + 520 ≤ ethernet.length) :
    (messagePart ihl).In ethernet :=
  ⟨Nat.add_le_add_left (Nat.le_add_right _ _) 14,(Nat.add_assoc 14 _ _).symm.trans_le h⟩

theorem get_messagePart (h : 14 + 4 * ihl + 520 ≤ ethernet.length) :
    (⟨14,ethernet.length⟩ : Part).get (4 * ihl) (4 * ihl + 520) = some (messagePart ihl) := by
  apply Part.get_eq_some (Nat.le_add_right _ _)
  change 4 * ihl + 520 ≤ ethernet.length - 14
  omega

theorem getFrom_all (h : 14 ≤ ethernet.length) :
    (Part.all ethernet).getFrom 14 = some ⟨14,ethernet.length⟩ :=
  Part.getFrom_eq_some (Part.all_in ethernet) h

theorem HeaderAt.ends (h : HeaderAt ethernet gateway ihl) :
    (gatewayIcmp ethernet gateway).Ends (fun _ => False) (some (messagePart ihl)) := by
  obtain ⟨hge,hle⟩ := h.ihl_mem
  have hlen := h.length_ge
  have h14 : 14 ≤ ethernet.length := by omega
  have hframe := Part.all_in ethernet
  have hip : (⟨14,ethernet.length⟩ : Part).In ethernet := ⟨h14,le_rfl⟩
  have hipLength : (⟨14,ethernet.length⟩ : Part).length = ethernet.length - 14 := rfl
  unfold gatewayIcmp
  dsimp only
  refine Part.fetch_ends hframe (Nat.le_add_right 12 2) h14 ?_
  refine .rejectIf_neg (not_not.mpr h.etherType) ?_
  rw [getFrom_all h14]
  refine .bind .ofOption ?_
  refine Part.fetchAt_ends hip (by omega) ?_
  intro v hv
  obtain ⟨hversion,hihl⟩ : v >>> 4 = 4 ∧ (v &&& 15).toNat = ihl := by
    apply (versionIhl_iff hle).mpr
    exact List.singleton_inj.mp (hv.symm.trans h.versionIhl)
  rw [hihl,Nat.mul_comm ihl 4]
  refine .rejectIf_neg ?_ ?_
  · rintro (hother | hshort)
    · exact hother hversion
    · omega
  refine fetchBeU16_ends hip (by omega) ?_
  intro x y htotal
  have htotal_eq : beU16 x y = 4 * ihl + 520 := by
    apply (beU16_eq_iff (by omega)).mpr
    exact htotal.symm.trans h.total
  rw [htotal_eq]
  refine .rejectIf_neg ?_ ?_
  · rintro (hother | hshort)
    · exact hother rfl
    · omega
  refine Part.fetchAt_ends hip (by omega) ?_
  intro protocol hprotocol
  have hprotocol_eq : protocol = 1 := List.singleton_inj.mp (hprotocol.symm.trans h.protocol)
  refine .rejectIf_neg (not_not.mpr hprotocol_eq) ?_
  refine Part.fetch_ends hip (Nat.le_add_right 16 4) (by omega) ?_
  refine .rejectIf_neg (not_not.mpr h.destination) ?_
  refine fetchBeU16_ends hip (by omega) ?_
  intro flags offset hfragment
  have hunfragmented : beU16 flags offset &&& 0x3fff = 0 := by
    obtain ⟨reserved,dontFragment,hplaced⟩ := h.fragment
    obtain ⟨hflags,hrest⟩ := List.cons_eq_cons.mp (hfragment.symm.trans hplaced)
    exact fragment_iff.mpr ⟨List.singleton_inj.mp hrest,reserved,dontFragment,hflags⟩
  refine .rejectIf_neg (not_not.mpr hunfragmented) ?_
  rw [get_messagePart hlen]
  exact .ofOption

/-- A frame that passes each check has all segments. -/
theorem gatewayIcmp_ends_none (h : ∀ ihl, ¬ HeaderAt ethernet gateway ihl) :
    (gatewayIcmp ethernet gateway).Ends (fun _ => False) none := by
  have hframe := Part.all_in ethernet
  unfold gatewayIcmp
  dsimp only
  apply Part.fetch_none hframe (Nat.le_add_right 12 2)
  intro (h14 : 14 ≤ ethernet.length)
  apply Run.Ends.rejectIf_none
  intro hetherType
  have hip : (⟨14,ethernet.length⟩ : Part).In ethernet := ⟨h14,le_rfl⟩
  have hipLength : (⟨14,ethernet.length⟩ : Part).length = ethernet.length - 14 := rfl
  rw [getFrom_all h14]
  apply Run.Ends.bind .ofOption
  apply Part.fetchAt_none hip
  intro h15 v hv
  have hle := low_nibble_le v
  apply Run.Ends.rejectIf_none
  intro hversion
  obtain ⟨hfour,hlong⟩ := not_or.mp hversion
  have hversionIhl := (versionIhl_iff hle).mp ⟨not_not.mp hfour,rfl⟩
  rw [Nat.mul_comm] at hlong ⊢
  generalize (v &&& 15).toNat = ihl at hle hlong hversionIhl ⊢
  apply fetchBeU16_none hip
  intro h18 x y htotal
  apply Run.Ends.rejectIf_none
  intro hlength
  obtain ⟨hsame,hfits⟩ := not_or.mp hlength
  rw [not_not] at hsame
  rw [(beU16_eq_iff (by omega)).mp hsame] at htotal
  rw [hsame] at hfits
  apply Part.fetchAt_none hip
  intro h24 protocol hprotocol
  apply Run.Ends.rejectIf_none
  intro hicmp
  apply Part.fetch_none hip (Nat.le_add_right 16 4)
  intro h34
  apply Run.Ends.rejectIf_none
  intro hdestination
  apply fetchBeU16_none hip
  intro h22 flags offset hfragment
  apply Run.Ends.rejectIf_none
  intro hunfragmented
  obtain ⟨hoffset,reserved,dontFragment,hflags⟩ := fragment_iff.mp (not_not.mp hunfragmented)
  rw [hflags,hoffset] at hfragment
  rw [not_not.mp hicmp] at hprotocol
  rw [hversionIhl] at hv
  exact absurd ⟨⟨by omega,hle⟩,by omega,not_not.mp hetherType,hv,htotal,
    ⟨reserved,dontFragment,hfragment⟩,hprotocol,not_not.mp hdestination⟩ (h ihl)

theorem EchoAt.ends (h : EchoAt ethernet (14 + 4 * ihl) sequence)
    (hlen : 14 + 4 * ihl + 520 ≤ ethernet.length) :
    (echoSequence ethernet (messagePart ihl)).Ends (fun _ => False) (some sequence) := by
  obtain ⟨hone,htwenty⟩ := h.sequence_mem
  have hicmp := messagePart_in hlen
  have hicmpLength := messagePart_length ihl
  unfold echoSequence
  refine Part.fetch_ends hicmp (Nat.zero_le 2) (by omega) ?_
  refine .rejectIf_neg (not_not.mpr h.echo) ?_
  refine Part.fetch_ends hicmp (Nat.le_add_right 4 2) (by omega) ?_
  refine .rejectIf_neg (not_not.mpr h.identifier) ?_
  refine fetchBeU16_ends hicmp (by omega) ?_
  intro high low hsequence
  have hsequence_eq : beU16 high low = sequence := by
    apply (beU16_eq_iff (by omega)).mpr
    exact hsequence.symm.trans h.sequenceNumber
  rw [hsequence_eq]
  refine .rejectIf_neg (not_not.mpr ⟨hone,htwenty⟩) ?_
  rw [hicmpLength]
  refine Part.fetch_ends hicmp (Nat.le_add_right 8 512) (by omega) ?_
  refine .rejectIf_neg ?_ (.pure _)
  rw [Bool.not_eq_false,payload_iff]
  · exact h.payload
  · exact (congrArg List.length h.payload).trans List.length_replicate

theorem echoSequence_ends_none (hlen : 14 + 4 * ihl + 520 ≤ ethernet.length)
    (h : ∀ sequence, ¬ EchoAt ethernet (14 + 4 * ihl) sequence) :
    (echoSequence ethernet (messagePart ihl)).Ends (fun _ => False) none := by
  have hmessage := messagePart_in hlen
  unfold echoSequence
  apply Part.fetch_none hmessage (Nat.zero_le 2)
  intro _
  apply Run.Ends.rejectIf_none
  intro hecho
  apply Part.fetch_none hmessage (Nat.le_add_right 4 2)
  intro _
  apply Run.Ends.rejectIf_none
  intro hidentifier
  apply fetchBeU16_none hmessage
  intro _ high low hsequence
  apply Run.Ends.rejectIf_none
  intro hrange
  rw [not_not] at hrange
  rw [(beU16_eq_iff (n := beU16 high low) (by omega)).mp rfl] at hsequence
  rw [messagePart_length]
  apply Part.fetch_none hmessage (Nat.le_add_right 8 512)
  intro _
  apply Run.Ends.rejectIf_none
  intro hall
  have hpayloadLength :
      (slice ethernet (14 + 4 * ihl + 8) (14 + 4 * ihl + 520)).length = 512 := by
    rw [length_slice hlen]
    omega
  have hpayload := (payload_iff hpayloadLength).mp (Bool.not_eq_false _ ▸ hall)
  exact absurd ⟨hrange,not_not.mp hecho,not_not.mp hidentifier,hsequence,hpayload⟩ (h _)

/-- The classifier gives up or returns, always without a panic. -/
theorem gatewayEchoSequence_ends (ethernet : List UInt8) (gateway : Bytes 4) :
    ∃ r, (gatewayEchoSequence ethernet gateway).Ends (fun _ => False) r ∧
      ∀ sequence, r = some sequence ↔ ∃ ihl, Placed ethernet gateway ihl sequence := by
  unfold gatewayEchoSequence
  by_cases hheader : ∃ ihl, HeaderAt ethernet gateway ihl
  · obtain ⟨ihl,hheader⟩ := hheader
    have hunique : ∀ ihl', HeaderAt ethernet gateway ihl' → ihl' = ihl :=
      fun ihl' h => h.ihl_eq hheader
    by_cases hecho : ∃ sequence, EchoAt ethernet (14 + 4 * ihl) sequence
    · obtain ⟨sequence,hecho⟩ := hecho
      refine ⟨_,.bind hheader.ends (hecho.ends hheader.length_ge),?_⟩
      intro sequence'
      constructor
      · rintro ⟨⟩
        exact ⟨ihl,hheader,hecho⟩
      · rintro ⟨ihl',hheader',hecho'⟩
        rw [hunique ihl' hheader'] at hecho'
        rw [hecho.sequence_eq hecho']
    · refine ⟨_,.bind hheader.ends
        (echoSequence_ends_none hheader.length_ge (not_exists.mp hecho)),?_⟩
      intro sequence
      refine iff_of_false nofun ?_
      rintro ⟨ihl',hheader',hecho'⟩
      rw [hunique ihl' hheader'] at hecho'
      exact hecho ⟨sequence,hecho'⟩
  · refine ⟨_,.bind_none (gatewayIcmp_ends_none (not_exists.mp hheader)),?_⟩
    intro sequence
    refine iff_of_false nofun ?_
    rintro ⟨ihl,h⟩
    exact hheader ⟨ihl,h.header⟩

end Classifier

/-! ## What does not matter -/
section Ignored
variable {ethernet ethernet' : List UInt8} {gateway : Bytes 4} {ihl sequence : ℕ}

/-- The length of the header as the frame states it. -/
def statedHeader (ethernet : List UInt8) : ℕ := (ethernet.getD 14 0 &&& 15).toNat * 4

/-- And that of the packet. -/
def statedTotal (ethernet : List UInt8) : ℕ := beU16 (ethernet.getD 16 0) (ethernet.getD 17 0)

/-- The places of the MAC addresses, the type of service, the identification, the time to live,
the header checksum and the source, the options, the checksum of the message and the padding. -/
def Ignored (header i : ℕ) : Prop :=
  i < 12 ∨ i = 15 ∨ 18 ≤ i ∧ i < 20 ∨ i = 22 ∨ 24 ≤ i ∧ i < 30 ∨ 34 ≤ i ∧ i < 14 + header ∨
    14 + header + 2 ≤ i ∧ i < 14 + header + 4 ∨ 14 + header + 520 ≤ i

/-- A byte without the `DF` bit, if it is the one that has it. -/
def withoutDontFragment (i : ℕ) (b : UInt8) : UInt8 := if i = 20 then b &&& 0xbf else b

/-- Frames that differ only in what a gateway echo leaves open. They can also differ in the
length, where that is padding. -/
def Alike (ethernet ethernet' : List UInt8) : Prop :=
  ∀ i, ¬ Ignored (statedHeader ethernet) i →
    ethernet[i]?.map (withoutDontFragment i) = ethernet'[i]?.map (withoutDontFragment i)

theorem Alike.getElem?_eq (h : Alike ethernet ethernet') {i : ℕ}
    (hi : ¬ Ignored (statedHeader ethernet) i) (hne : i ≠ 20) : ethernet[i]? = ethernet'[i]? := by
  have hmap := h i hi
  have hid : withoutDontFragment i = id := by
    funext b
    exact if_neg hne
  rwa [hid,Option.map_id_fun,id,id] at hmap

/-- The first byte of the IP header is not ignored, so the lengths agree. -/
theorem Alike.statedHeader_eq (h : Alike ethernet ethernet') :
    statedHeader ethernet' = statedHeader ethernet := by
  have hbyte := h.getElem?_eq (i := 14) (by unfold Ignored; omega) (by decide)
  rw [statedHeader,statedHeader,List.getD_eq_getElem?_getD,List.getD_eq_getElem?_getD,hbyte]

theorem Alike.symm (h : Alike ethernet ethernet') : Alike ethernet' ethernet := by
  intro i hi
  rw [h.statedHeader_eq] at hi
  exact (h i hi).symm

theorem getElem?_of_slice {xs : List UInt8} {a : ℕ} {x y : UInt8}
    (h : slice xs a (a + 2) = [x,y]) : xs[a]? = some x ∧ xs[a + 1]? = some y := by
  have hfirst : (slice xs a (a + 2))[0]? = xs[a]? := by
    rw [getElem?_slice,if_pos (by omega),Nat.add_zero]
  have hsecond : (slice xs a (a + 2))[1]? = xs[a + 1]? := by
    rw [getElem?_slice,if_pos (by omega)]
  rw [h] at hfirst hsecond
  exact ⟨hfirst.symm,hsecond.symm⟩

theorem slice_of_getElem? {xs : List UInt8} {a : ℕ} {x y : UInt8} (hx : xs[a]? = some x)
    (hy : xs[a + 1]? = some y) : slice xs a (a + 2) = [x,y] := by
  apply List.ext_getElem?
  intro i
  rw [getElem?_slice]
  rcases i with _ | _ | i
  · rw [if_pos (by omega)]
    exact hx
  · rw [if_pos (by omega)]
    exact hy
  · rw [if_neg (by omega)]
    rfl

theorem exists_fragmentFlags {x : UInt8} {reserved dontFragment : Bool}
    (h : x &&& 0xbf = fragmentFlags reserved dontFragment &&& 0xbf) :
    ∃ dontFragment', x = fragmentFlags reserved dontFragment' := by
  have hbytes : ∀ x : UInt8, (x &&& 0xbf = 0 → x = 0 ∨ x = 0x40) ∧
      (x &&& 0xbf = 0x80 → x = 0x80 ∨ x = 0xc0) := by decide +kernel
  obtain ⟨hclear,hset⟩ := hbytes x
  cases reserved with
  | false =>
    have hmask : fragmentFlags false dontFragment &&& 0xbf = 0 := by
      cases dontFragment <;> rfl
    rcases hclear (h.trans hmask) with rfl | rfl
    · exact ⟨false,rfl⟩
    · exact ⟨true,rfl⟩
  | true =>
    have hmask : fragmentFlags true dontFragment &&& 0xbf = 0x80 := by
      cases dontFragment <;> rfl
    rcases hset (h.trans hmask) with rfl | rfl
    · exact ⟨false,rfl⟩
    · exact ⟨true,rfl⟩

theorem HeaderAt.statedHeader_eq (h : HeaderAt ethernet gateway ihl) :
    statedHeader ethernet = 4 * ihl := by
  have hlt : 14 < ethernet.length := by
    have hlen := h.length_ge
    omega
  have hbyte := List.singleton_inj.mp ((slice_succ hlt).symm.trans h.versionIhl)
  have hihl := ((versionIhl_iff h.ihl_mem.2).mpr hbyte).2
  rw [statedHeader,List.getD_eq_getElem _ _ hlt,hihl,Nat.mul_comm]

theorem statedTotal_of_slice {n : ℕ} (hn : n < 65536)
    (h : slice ethernet 16 18 = be16 n) : statedTotal ethernet = n := by
  obtain ⟨hhigh,hlow⟩ := getElem?_of_slice h
  have hbytes := (beU16_eq_iff hn).mpr rfl
  rw [statedTotal,List.getD_eq_getElem?_getD,List.getD_eq_getElem?_getD,hhigh,hlow]
  exact hbytes

/-- What a frame like a gateway echo ignores is not in one of the segments. -/
theorem Placed.alike (h : Placed ethernet gateway ihl sequence) (halike : Alike ethernet ethernet') :
    Placed ethernet' gateway ihl sequence := by
  obtain ⟨hge,hle⟩ := h.header.ihl_mem
  have hstated := h.header.statedHeader_eq
  have hslice : ∀ a b, (∀ i, a ≤ i → i < b → ¬ Ignored (4 * ihl) i ∧ i ≠ 20) →
      slice ethernet' a b = slice ethernet a b := by
    intro a b hplaces
    apply slice_congr
    intro i ha hb
    obtain ⟨hi,hne⟩ := hplaces i ha hb
    rw [← hstated] at hi
    exact (halike.getElem?_eq hi hne).symm
  refine ⟨⟨h.header.ihl_mem,?_,?_,?_,?_,?_,?_,?_⟩,⟨h.message.sequence_mem,?_,?_,?_,?_⟩⟩
  · have hlast := halike.getElem?_eq (i := 14 + 4 * ihl + 519)
      (by rw [hstated]; unfold Ignored; omega) (by omega)
    have hlen := h.header.length_ge
    rw [List.getElem?_eq_getElem (by omega)] at hlast
    obtain ⟨hlt,-⟩ := List.getElem?_eq_some_iff.mp hlast.symm
    omega
  · rw [hslice 12 14 (by unfold Ignored; omega)]
    exact h.header.etherType
  · rw [hslice 14 15 (by unfold Ignored; omega)]
    exact h.header.versionIhl
  · rw [hslice 16 18 (by unfold Ignored; omega)]
    exact h.header.total
  · obtain ⟨reserved,dontFragment,hfragment⟩ := h.header.fragment
    obtain ⟨hflags,hoffset⟩ := getElem?_of_slice hfragment
    have hoffset' := halike.getElem?_eq (i := 21) (by rw [hstated]; unfold Ignored; omega)
      (by decide)
    have hmasked := halike 20 (by rw [hstated]; unfold Ignored; omega)
    rw [hoffset] at hoffset'
    rw [hflags,Option.map_some,eq_comm,Option.map_eq_some_iff] at hmasked
    obtain ⟨flags,hflags',hmask⟩ := hmasked
    obtain ⟨dontFragment',rfl⟩ := exists_fragmentFlags hmask
    exact ⟨reserved,dontFragment',slice_of_getElem? hflags' hoffset'.symm⟩
  · rw [hslice 23 24 (by unfold Ignored; omega)]
    exact h.header.protocol
  · rw [hslice 30 34 (by unfold Ignored; omega)]
    exact h.header.destination
  · rw [hslice _ _ (by unfold Ignored; omega)]
    exact h.message.echo
  · rw [hslice _ _ (by unfold Ignored; omega)]
    exact h.message.identifier
  · rw [hslice _ _ (by unfold Ignored; omega)]
    exact h.message.sequenceNumber
  · rw [hslice _ _ (by unfold Ignored; omega)]
    exact h.message.payload

/-- No part of a frame that is accepted is shorter than the frame states. -/
theorem Placed.le_of_take {n : ℕ} (h : Placed (ethernet.take n) gateway ihl sequence) :
    14 + statedTotal ethernet ≤ n := by
  obtain ⟨hge,hle⟩ := h.header.ihl_mem
  have hlen := h.header.length_ge
  rw [List.length_take] at hlen
  have hn : 14 + 4 * ihl + 520 ≤ n := hlen.trans (min_le_left _ _)
  have hslice := h.header.total
  rw [slice_take (by omega)] at hslice
  have htotal := statedTotal_of_slice (by omega) hslice
  omega

end Ignored

/-- The classifier accepts the frames of the grammar and no others, none of them cut short, and
does not look at what they leave open. -/
theorem gatewayEchoSequence_correct (ethernet : List UInt8) (gateway : Bytes 4) :
    (∃ r, gatewayEchoSequence ethernet gateway = ⟨.ok r,[]⟩ ∧
      ∀ sequence, r = some sequence ↔
        ∃ p : GatewayEcho, p.sequence = sequence ∧ p.bytes gateway = ethernet) ∧
    (∀ n, n < 14 + statedTotal ethernet →
      gatewayEchoSequence (ethernet.take n) gateway = ⟨.ok none,[]⟩) ∧
    ∀ ethernet', Alike ethernet ethernet' →
      gatewayEchoSequence ethernet' gateway = gatewayEchoSequence ethernet gateway := by
  obtain ⟨r,hends,hiff⟩ := gatewayEchoSequence_ends ethernet gateway
  refine ⟨⟨r,hends.eq_mk,?_⟩,?_,?_⟩
  · intro sequence
    rw [hiff]
    constructor
    · rintro ⟨ihl,h⟩
      exact h.exists_bytes
    · rintro ⟨p,rfl,rfl⟩
      exact ⟨p.ihl,.of_bytes p gateway⟩
  · intro n hn
    obtain ⟨r',hends',hiff'⟩ := gatewayEchoSequence_ends (ethernet.take n) gateway
    rw [hends'.eq_mk]
    cases r' with
    | none => rfl
    | some sequence =>
      obtain ⟨ihl,h⟩ := (hiff' sequence).mp rfl
      exact absurd h.le_of_take (not_le.mpr hn)
  · intro ethernet' halike
    obtain ⟨r',hends',hiff'⟩ := gatewayEchoSequence_ends ethernet' gateway
    have hsame : r' = r := by
      apply Option.ext
      intro sequence
      rw [hiff,hiff']
      constructor
      · rintro ⟨ihl,h⟩
        exact ⟨ihl,h.alike halike.symm⟩
      · rintro ⟨ihl,h⟩
        exact ⟨ihl,h.alike halike⟩
    rw [hends.eq_mk,hends'.eq_mk,hsame]

/-- An echo with an option, `DF` and padding. -/
example : (gatewayEchoSequence (GatewayEcho.bytes
    { macAddresses := ⟨List.replicate 12 0xa5,rfl⟩, ihl := 6, ihl_mem := by decide
      typeOfService := 0, identification := ⟨[0,1],rfl⟩, reserved := false, dontFragment := true
      timeToLive := 64, headerChecksum := ⟨[0xff,0xff],rfl⟩, source := ⟨[10,0,0,2],rfl⟩
      options := ⟨[1,1,1,1],rfl⟩, icmpChecksum := ⟨[0xff,0xff],rfl⟩, sequence := 8
      sequence_mem := by decide, padding := [0,0] } ![10,0,0,1]) ![10,0,0,1]).result.toOption =
    some (some 8) := by decide +kernel

end FerrisOnAir.Tx.Probe

import Mathlib

/-! # AWDL time synchronisation

`SynchronizationState` of `foa_awdl/src/peer.rs`. A node writes the time since its TSF
epoch into an action frame as the number of the availability window, in 16 bits, and the
whole time units since its start; a receiver recovers the epoch from them and its own
clock. All times are in microseconds and `as` casts wrap.
-/
namespace FerrisOnAir.Awdl

abbrev Address := Fin 6 → UInt8

/-- `as i64`. -/
def asI64 (x : ℤ) : ℤ := x.bmod (2 ^ 64)

/-- `as u64`. -/
def asU64 (x : ℤ) : ℕ := (x % 2 ^ 64).toNat

/-- `TU`. -/
def tu : ℕ := 1024

def awPerSlot : ℕ := 4

def tuPerAw : ℕ := 16

def slotsPerChannelSequence : ℕ := 16

def awDurationInUs : ℕ := tu * tuPerAw

def slotDuration : ℕ := awPerSlot * tuPerAw * tu

def channelSequenceDuration : ℕ := slotDuration * slotsPerChannelSequence

/-- The three encodings of a channel sequence. -/
inductive ChannelSequence
  | simple (channels : Fin 16 → UInt8)
  | legacy (steps : Fin 16 → UInt8 × UInt8)
  | opClass (steps : Fin 16 → UInt8 × UInt8)

/-- The channels of a sequence: a legacy step has its flags first, the other its class
last. -/
def ChannelSequence.channels : ChannelSequence → Fin 16 → UInt8
  | .simple channels => channels
  | .legacy steps => fun i => (steps i).2
  | .opClass steps => fun i => (steps i).1

structure SynchronizationParametersTLV where
  nextChannel : UInt8
  txCounter : ℕ
  masterChannel : UInt8
  awPeriod : ℕ
  afPeriod : ℕ
  awdlFlags : ℕ
  awExtLength : ℕ
  awCommonLength : ℕ
  remainingAwLength : ℕ
  minExtCount : ℕ
  maxMulticastExtCount : ℕ
  maxUnicastExtCount : ℕ
  maxAfExtCount : ℕ
  masterAddress : Address
  apBeaconAlignmentDelta : ℕ
  presenceMode : ℕ
  awSeqNumber : ℕ
  channelSequence : ChannelSequence

structure SynchronizationState where
  channelSequence : Fin 16 → UInt8
  tsfEpochInUs : ℤ

namespace SynchronizationState
variable (s : SynchronizationState)

def new (channel : UInt8) (now : ℕ) : SynchronizationState := ⟨fun _ => channel,asI64 now⟩

def adoptMaster (master : SynchronizationState) : SynchronizationState :=
  { s with tsfEpochInUs := master.tsfEpochInUs }

def recoverTsfEpoch (tlv : SynchronizationParametersTLV) (txDelta rxTimestamp : ℕ) : ℤ :=
  let tuSinceFirstAw := (tlv.awPeriod * tlv.awSeqNumber + tlv.remainingAwLength) % 2 ^ 32
  let elapsedSinceTsfEpoch := asI64 ((tu * tuSinceFirstAw : ℕ) - asI64 txDelta)
  asI64 (asI64 rxTimestamp - elapsedSinceTsfEpoch)

def elapsedSinceTsfEpoch (now : ℕ) : ℕ := asU64 (asI64 now - s.tsfEpochInUs)

def awSeqNumber (durationSinceEpoch : ℕ) : ℕ := durationSinceEpoch / awDurationInUs % 2 ^ 16

def remainingAwLength (durationSinceEpoch : ℕ) : ℕ :=
  durationSinceEpoch % awDurationInUs / tu % 2 ^ 16

def remainingSlotLength (durationSinceEpoch : ℕ) : ℕ :=
  durationSinceEpoch % (awDurationInUs * awPerSlot) / tu % 2 ^ 16

def nextSlotIndex (durationSinceEpoch : ℕ) : Fin 16 :=
  Fin.ofNat 16 (awSeqNumber durationSinceEpoch / awPerSlot + 1)

def nextChannel (durationSinceEpoch : ℕ) : UInt8 :=
  s.channelSequence (nextSlotIndex durationSinceEpoch)

/-- `generate_tlv` at time `now`. The flags of all channels are those of a primary 2.4 GHz
channel with bandwidth 2, in the encoding of the parser. -/
def generateTlv (masterAddress : Address) (flags : UInt8) (now : ℕ) :
    SynchronizationParametersTLV :=
  let durationSinceEpoch := s.elapsedSinceTsfEpoch now
  { nextChannel := s.nextChannel durationSinceEpoch
    txCounter := remainingSlotLength durationSinceEpoch
    masterChannel := 6
    awPeriod := 16
    afPeriod := 110
    awdlFlags := 0x1800
    awExtLength := 16
    awCommonLength := 16
    remainingAwLength := remainingAwLength durationSinceEpoch
    minExtCount := 3
    maxMulticastExtCount := 3
    maxUnicastExtCount := 3
    maxAfExtCount := 3
    masterAddress := masterAddress
    apBeaconAlignmentDelta := 0
    presenceMode := 4
    awSeqNumber := awSeqNumber durationSinceEpoch
    channelSequence := .legacy (fun i => (flags,s.channelSequence i)) }

/-- The epoch a receiver recovers from a TLV written at `now` and sent `delta` later. -/
def recovered (masterAddress : Address) (flags : UInt8) (now delta : ℕ) : ℤ :=
  recoverTsfEpoch (s.generateTlv masterAddress flags now) delta (now + delta)

/-- Up to whole channel sequences the epoch of the receiver is less than a time unit after
the one of the sender. -/
def AgreesWithin (epoch recovered : ℤ) : Prop :=
  (recovered - epoch) % channelSequenceDuration < tu

end SynchronizationState

/-! A channel sequence lasts 2 ^ 20 µs, so casts and the wrap of the window number, which
is worth 2 ^ 30 µs, are invisible modulo its duration. -/

theorem channelSequenceDuration_eq : (channelSequenceDuration : ℤ) = 2 ^ 20 := by
  norm_num [channelSequenceDuration,slotDuration,slotsPerChannelSequence,awPerSlot,tuPerAw,tu]

theorem asI64_modEq (x : ℤ) : asI64 x ≡ x [ZMOD 2 ^ 20] := by
  have h : asI64 x ≡ x [ZMOD 2 ^ 64] := Int.bmod_emod
  exact h.of_dvd (by norm_num)

theorem asU64_modEq (x : ℤ) : (asU64 x : ℤ) ≡ x [ZMOD 2 ^ 20] := by
  have hx : (asU64 x : ℤ) = x % 2 ^ 64 := Int.toNat_of_nonneg (Int.emod_nonneg _ (by norm_num))
  have h : (asU64 x : ℤ) ≡ x [ZMOD 2 ^ 64] := by rw [hx]; exact Int.mod_modEq _ _
  exact h.of_dvd (by norm_num)

namespace SynchronizationState
variable (s : SynchronizationState)

/-- What the TLV says of the elapsed time: its whole time units, modulo the sequence. -/
theorem tlv_elapsed_modEq (d : ℕ) :
    ((tu * ((16 * awSeqNumber d + remainingAwLength d) % 2 ^ 32) : ℕ) : ℤ) ≡
      (d : ℤ) - (d % 1024 : ℕ) [ZMOD 2 ^ 20] := by
  have hnat : tu * ((16 * awSeqNumber d + remainingAwLength d) % 2 ^ 32) % 2 ^ 20 =
      (d - d % 1024) % 2 ^ 20 := by
    simp only [tu,awSeqNumber,remainingAwLength,awDurationInUs,tuPerAw]
    omega
  have hle : d % 1024 ≤ d := Nat.mod_le d 1024
  have h := (Int.natCast_modEq_iff (n := 2 ^ 20)).mpr hnat
  rw [Nat.cast_sub hle] at h
  exact_mod_cast h

theorem recoverTsfEpoch_modEq (tlv : SynchronizationParametersTLV) (txDelta rxTimestamp : ℕ) :
    recoverTsfEpoch tlv txDelta rxTimestamp ≡ rxTimestamp -
      (((tu * ((tlv.awPeriod * tlv.awSeqNumber + tlv.remainingAwLength) % 2 ^ 32) : ℕ) : ℤ) -
        txDelta) [ZMOD 2 ^ 20] := by
  unfold recoverTsfEpoch
  have helapsed := (asI64_modEq _).trans
    ((asI64_modEq (txDelta : ℤ)).sub_left
      ((tu * ((tlv.awPeriod * tlv.awSeqNumber + tlv.remainingAwLength) % 2 ^ 32) : ℕ) : ℤ))
  exact (asI64_modEq _).trans ((asI64_modEq rxTimestamp).sub helapsed)

/-- The delay enters twice: the receiver's clock runs on by it, and it is taken off the
elapsed time where it would have to be added. -/
theorem recovered_modEq (masterAddress : Address) (flags : UInt8) (now delta : ℕ) :
    s.recovered masterAddress flags now delta - s.tsfEpochInUs ≡
      2 * delta + (now - s.tsfEpochInUs) % tu [ZMOD 2 ^ 20] := by
  let d := s.elapsedSinceTsfEpoch now
  have hd : (d : ℤ) ≡ now - s.tsfEpochInUs [ZMOD 2 ^ 20] :=
    (asU64_modEq _).trans ((asI64_modEq now).sub_right _)
  have hrest : ((d % 1024 : ℕ) : ℤ) = (now - s.tsfEpochInUs) % tu := by
    have h : (d : ℤ) ≡ now - s.tsfEpochInUs [ZMOD 1024] := hd.of_dvd (by norm_num)
    exact_mod_cast h
  have htlv := recoverTsfEpoch_modEq (s.generateTlv masterAddress flags now) delta (now + delta)
  have hr : s.recovered masterAddress flags now delta ≡
      (now + delta : ℕ) - ((d : ℤ) - (d % 1024 : ℕ) - delta) [ZMOD 2 ^ 20] :=
    htlv.trans (((tlv_elapsed_modEq d).sub_right _).sub_left _)
  calc s.recovered masterAddress flags now delta - s.tsfEpochInUs
      ≡ (now + delta : ℕ) - ((d : ℤ) - (d % 1024 : ℕ) - delta) - s.tsfEpochInUs [ZMOD 2 ^ 20] :=
        hr.sub_right _
    _ ≡ (now + delta : ℕ) - (now - s.tsfEpochInUs - (d % 1024 : ℕ) - delta) - s.tsfEpochInUs
          [ZMOD 2 ^ 20] :=
        (((hd.sub_right _).sub_right _).sub_left _).sub_right _
    _ = 2 * delta + (now - s.tsfEpochInUs) % tu := by
        rw [← hrest]
        push_cast
        ring

/-- Sender and receiver agree exactly if twice the transmit delay, on top of what is left of
the current time unit, comes out below a time unit modulo the channel sequence. -/
theorem agreesWithin_recovered_iff (masterAddress : Address) (flags : UInt8) (now delta : ℕ) :
    AgreesWithin s.tsfEpochInUs (s.recovered masterAddress flags now delta) ↔
      (2 * delta + (now - s.tsfEpochInUs) % tu) % channelSequenceDuration < tu := by
  have h : (s.recovered masterAddress flags now delta - s.tsfEpochInUs) % 2 ^ 20 =
      (2 * delta + (now - s.tsfEpochInUs) % tu) % 2 ^ 20 :=
    s.recovered_modEq masterAddress flags now delta
  rw [AgreesWithin,channelSequenceDuration_eq,h]

/-- A frame that leaves a millisecond after its TLV was written moves the epoch by two. -/
theorem exists_not_agreesWithin : ∃ (s : SynchronizationState) (now delta : ℕ),
    s.tsfEpochInUs ≤ now ∧
      ¬ AgreesWithin s.tsfEpochInUs (s.recovered (fun _ => 0) 0 now delta) := by
  refine ⟨⟨fun _ => 6,0⟩,0,1000,le_refl _,?_⟩
  unfold AgreesWithin
  decide

end SynchronizationState

end FerrisOnAir.Awdl

import FerrisOnAir.Awdl.Synchronization
import FerrisOnAir.Foundation.Periodic

/-! # Slots of the channel sequence

The timestamps that `SynchronizationState` derives from its epoch: the start of a slot and
the next multicast information frame. The clock is a count of microseconds in 64 bits and
read once per call; adding to an instant beyond it panics.
-/
namespace FerrisOnAir.Awdl

/-- `Instant + Duration`. -/
def instantAdd (instant duration : ℕ) : Option ℕ :=
  if instant + duration < 2 ^ 64 then some (instant + duration) else none

/-- The slot a number of slots stands for: those of a channel sequence are counted from
zero again after sixteen. -/
def slotIndex (count : ℕ) : Fin 16 := ⟨count % 16,Nat.mod_lt count (by decide)⟩

@[simp] theorem slotIndex_val (count : ℕ) : (slotIndex count : ℕ) = count % 16 := rfl

namespace SynchronizationState
variable (s : SynchronizationState)

def currentSlotIndex (durationSinceEpoch : ℕ) : Fin 16 :=
  slotIndex (awSeqNumber durationSinceEpoch / awPerSlot)

/-- The subtraction from `now` falls back to `now` itself. -/
def slotStartTimestamp (slot offset now : ℕ) : Option ℕ :=
  let elapsedSinceChanSeqStart := s.elapsedSinceTsfEpoch now % channelSequenceDuration
  let channelSequenceStartTimestamp :=
    if elapsedSinceChanSeqStart ≤ now then now - elapsedSinceChanSeqStart else now
  let timeToSlotFromZero := slotDuration * (slot % 2 ^ 32) + offset
  instantAdd channelSequenceStartTimestamp
    (if elapsedSinceChanSeqStart > timeToSlotFromZero then
      timeToSlotFromZero + channelSequenceDuration
    else timeToSlotFromZero)

def multicastSlotStartTimestamp (now : ℕ) : Option ℕ := s.slotStartTimestamp 9 0 now

def mifTransmitionTime (now : ℕ) : Option ℕ :=
  let durationSinceEpoch := s.elapsedSinceTsfEpoch now
  let slot :=
    if remainingSlotLength durationSinceEpoch < 32 then nextSlotIndex durationSinceEpoch
    else currentSlotIndex durationSinceEpoch
  s.slotStartTimestamp slot (tu * 16) now

/-! ## Where an instant lies in the sequence -/

/-- The time since the start of the channel sequence in progress. -/
def phaseAt (t : ℕ) : ℤ := (t - s.tsfEpochInUs) % channelSequenceDuration

/-- `slot_start_timestamp` as it is meant: the earliest instant from now on that lies the
offset behind the start of the slot. -/
def StartsNext (slot offset now : ℕ) : Prop := ∃ t, s.slotStartTimestamp slot offset now = some t ∧
  IsLeast {t : ℕ | now ≤ t ∧ s.phaseAt t = slotDuration * slot + offset} t ∧
  t < now + channelSequenceDuration

/-- The next multicast information frame is due within two slots, 16 TU into one of them. -/
def MifSoon (now : ℕ) : Prop := ∃ t, s.mifTransmitionTime now = some t ∧
  now ≤ t ∧ t < now + 2 * slotDuration ∧
  ∃ slot : Fin 16, s.phaseAt t = slotDuration * (slot : ℕ) + 16 * tu

section Phases
variable {s} {slot offset now t : ℕ}

theorem channelSequenceDuration_val : channelSequenceDuration = 1048576 := rfl

theorem slotDuration_val : slotDuration = 65536 := rfl

theorem elapsed_mod_eq_phaseAt (now : ℕ) :
    ((s.elapsedSinceTsfEpoch now % channelSequenceDuration : ℕ) : ℤ) = s.phaseAt now := by
  have h : (s.elapsedSinceTsfEpoch now : ℤ) ≡ now - s.tsfEpochInUs [ZMOD 2 ^ 20] :=
    (asU64_modEq _).trans ((asI64_modEq now).sub_right _)
  rw [phaseAt,Int.natCast_mod,channelSequenceDuration_eq]
  exact h

theorem phaseAt_nonneg : 0 ≤ s.phaseAt t := Int.emod_nonneg _ (by decide)

theorem phaseAt_lt : s.phaseAt t < 1048576 := Int.emod_lt_of_pos _ (by decide)

/-- Once the sequence in progress began after boot, the result is the next instant in the
phase of the slot, as far as the clock reaches. -/
theorem slotStartTimestamp_of_le (hslot : slot < 16) (hoffset : offset < slotDuration)
    (hle : s.phaseAt now ≤ now) : ∃ t : ℕ,
      (t : ℤ) = nextInPhase channelSequenceDuration s.tsfEpochInUs (slotDuration * slot + offset)
        now ∧
      s.slotStartTimestamp slot offset now = if t < 2 ^ 64 then some t else none := by
  have hphase := s.elapsed_mod_eq_phaseAt now
  unfold slotStartTimestamp nextInPhase instantAdd
  generalize s.elapsedSinceTsfEpoch now % channelSequenceDuration = e at hphase ⊢
  rw [← hphase] at hle
  simp only [phaseAt,slotDuration_val,channelSequenceDuration_val] at hoffset hphase ⊢
  rw [Nat.mod_eq_of_lt (by omega : slot < 2 ^ 32),if_pos (by omega : e ≤ now)]
  refine ⟨now - e + (if e > 65536 * slot + offset then 65536 * slot + offset + 1048576
    else 65536 * slot + offset),?_,rfl⟩
  split <;> push_cast <;> omega

/-- Before that the phase of the clock is lost. -/
theorem slotStartTimestamp_of_lt (offset : ℕ) (hslot : slot < 16) (hlt : now < s.phaseAt now) : ∃ k ≤ 1,
    s.slotStartTimestamp slot offset now =
      instantAdd now (slotDuration * slot + offset + channelSequenceDuration * k) := by
  have hphase := s.elapsed_mod_eq_phaseAt now
  unfold slotStartTimestamp
  generalize s.elapsedSinceTsfEpoch now % channelSequenceDuration = e at hphase ⊢
  rw [← hphase] at hlt
  simp only []
  rw [Nat.mod_eq_of_lt (by omega : slot < 2 ^ 32),if_neg (by omega : ¬ e ≤ now)]
  split
  · exact ⟨1,le_refl 1,by rw [mul_one]⟩
  · exact ⟨0,zero_le_one,by rw [mul_zero,add_zero]⟩

theorem instantAdd_eq_some {instant duration : ℕ} (h : instantAdd instant duration = some t) :
    t = instant + duration ∧ instant + duration < 2 ^ 64 := by
  unfold instantAdd at h
  split_ifs at h with hlt
  exact ⟨(Option.some.inj h).symm,hlt⟩

theorem slotPhase_lt (hslot : slot < 16) (hoffset : offset < slotDuration) :
    (slotDuration * slot + offset : ℤ) < channelSequenceDuration := by
  rw [slotDuration_val] at hoffset ⊢
  rw [channelSequenceDuration_val]
  omega

/-- The instants of a slot from now on, in the terms of the schedule. -/
theorem isLeast_slot_iff (hslot : slot < 16) (hoffset : offset < slotDuration) :
    IsLeast {t : ℕ | now ≤ t ∧ s.phaseAt t = slotDuration * slot + offset} t ↔
      (t : ℤ) = nextInPhase channelSequenceDuration s.tsfEpochInUs (slotDuration * slot + offset)
        now := by
  have hleast : IsLeast {t : ℤ | now ≤ t ∧ (t - s.tsfEpochInUs) % channelSequenceDuration =
      slotDuration * slot + offset} (nextInPhase channelSequenceDuration s.tsfEpochInUs
        (slotDuration * slot + offset) now) :=
    isLeast_nextInPhase (by positivity) (slotPhase_lt hslot hoffset)
  have hnow : (0 : ℤ) ≤ nextInPhase channelSequenceDuration s.tsfEpochInUs
      (slotDuration * slot + offset) now := (Int.natCast_nonneg now).trans hleast.1.1
  obtain ⟨n,hn⟩ := Int.eq_ofNat_of_zero_le hnow
  have hnat : IsLeast {t : ℕ | now ≤ t ∧ s.phaseAt t = slotDuration * slot + offset} n := by
    rw [hn] at hleast
    refine ⟨⟨Int.ofNat_le.mp hleast.1.1,hleast.1.2⟩,?_⟩
    rintro u ⟨hu,hphase⟩
    exact Int.ofNat_le.mp (hleast.2 ⟨Int.ofNat_le.mpr hu,hphase⟩)
  rw [hn]
  constructor
  · intro h
    rw [h.unique hnat]
  · intro h
    rw [Int.ofNat.inj h]
    exact hnat

/-- The timestamp of a slot is right exactly if the sequence in progress began after boot
and the clock reaches the slot. -/
theorem startsNext_iff (s : SynchronizationState) (slot offset now : ℕ) (hslot : slot < 16)
    (hoffset : offset < slotDuration) :
    s.StartsNext slot offset now ↔ s.phaseAt now ≤ now ∧
      nextInPhase channelSequenceDuration s.tsfEpochInUs (slotDuration * slot + offset) now <
        2 ^ 64 := by
  by_cases hle : s.phaseAt now ≤ now
  · obtain ⟨t,ht,hcode⟩ := slotStartTimestamp_of_le hslot hoffset hle
    rw [← ht]
    constructor
    · rintro ⟨u,hu,-⟩
      refine ⟨hle,?_⟩
      rw [hcode] at hu
      split_ifs at hu with hlt
      exact_mod_cast hlt
    · rintro ⟨-,hlt⟩
      refine ⟨t,?_,(isLeast_slot_iff hslot hoffset).mpr ht,?_⟩
      · rw [hcode,if_pos (by exact_mod_cast hlt)]
      · have hnext : (t : ℤ) < now + channelSequenceDuration := by
          rw [ht]
          exact nextInPhase_lt (by decide)
        exact_mod_cast hnext
  · refine iff_of_false ?_ (fun h => hle h.1)
    rintro ⟨t,ht,hleast,-⟩
    -- the result is off by the phase of the clock
    obtain ⟨k,-,hk⟩ := slotStartTimestamp_of_lt offset hslot (not_le.mp hle)
    obtain ⟨rfl,-⟩ := instantAdd_eq_some (hk.symm.trans ht)
    have hphase := hleast.1.2
    have hlt := slotPhase_lt hslot hoffset
    unfold phaseAt at hle hphase
    simp only [channelSequenceDuration_val,slotDuration_val] at hle hphase hlt
    push_cast at hle hphase hlt
    omega

/-- A slot that starts while the clock counts. -/
theorem startsNext_multicast_slot :
    9 < 16 ∧ 0 < slotDuration ∧ StartsNext ⟨fun _ => 6,-500000⟩ 9 0 1048576 :=
  ⟨by decide,by decide,
    (startsNext_iff ⟨fun _ => 6,-500000⟩ 9 0 1048576 (by decide) (by decide)).mpr (by decide)⟩

/-- With the epoch of an older peer the timestamp is late by the 0.6 s that have passed of
the sequence, and more than a sequence away. -/
theorem not_startsNext_after_boot :
    9 < 16 ∧ 0 < slotDuration ∧ ¬ StartsNext ⟨fun _ => 6,-500000⟩ 9 0 100000 := by
  refine ⟨by decide,by decide,?_⟩
  rintro ⟨t,ht,-,hlt⟩
  have hcode : slotStartTimestamp ⟨fun _ => 6,-500000⟩ 9 0 100000 = some 1738400 := by decide
  obtain rfl := Option.some.inj (hcode.symm.trans ht)
  revert hlt
  decide

/-! ## The next multicast information frame -/

theorem currentSlotIndex_eq (now : ℕ) :
    ((currentSlotIndex (s.elapsedSinceTsfEpoch now) : ℕ) : ℤ) = s.phaseAt now / slotDuration := by
  rw [← elapsed_mod_eq_phaseAt]
  generalize s.elapsedSinceTsfEpoch now = d
  simp only [currentSlotIndex,awSeqNumber,awDurationInUs,tu,tuPerAw,awPerSlot,slotIndex_val,
    channelSequenceDuration_val,slotDuration_val]
  omega

theorem nextSlotIndex_eq (now : ℕ) :
    ((nextSlotIndex (s.elapsedSinceTsfEpoch now) : ℕ) : ℤ) =
      (s.phaseAt now / slotDuration + 1) % 16 := by
  rw [← elapsed_mod_eq_phaseAt]
  generalize s.elapsedSinceTsfEpoch now = d
  simp only [nextSlotIndex,awSeqNumber,awDurationInUs,tu,tuPerAw,awPerSlot,Fin.val_ofNat,
    channelSequenceDuration_val,slotDuration_val]
  omega

/-- The length that `remaining_slot_length` returns has passed of the slot. -/
theorem remainingSlotLength_eq (now : ℕ) :
    (remainingSlotLength (s.elapsedSinceTsfEpoch now) : ℤ) = s.phaseAt now % slotDuration / tu := by
  rw [← elapsed_mod_eq_phaseAt]
  generalize s.elapsedSinceTsfEpoch now = d
  simp only [remainingSlotLength,awDurationInUs,tu,tuPerAw,awPerSlot,
    channelSequenceDuration_val,slotDuration_val]
  omega

theorem phaseAt_mod_slotDuration (now : ℕ) :
    s.phaseAt now % slotDuration = (now - s.tsfEpochInUs) % slotDuration := by
  rw [phaseAt,channelSequenceDuration_val,slotDuration_val]
  omega

/-- In the first half of a slot the frame goes into the next one, in the second half it
misses the point 16 TU into the current one and waits for the next sequence. -/
theorem mifTransmitionTime_eq (hle : s.phaseAt now ≤ now) : ∃ t : ℕ,
    (t : ℤ) = now - (now - s.tsfEpochInUs) % slotDuration +
      (if (now - s.tsfEpochInUs) % slotDuration < 32 * tu then (slotDuration + 16 * tu : ℤ)
        else channelSequenceDuration + 16 * tu) ∧
    (∃ slot : Fin 16, s.phaseAt t = slotDuration * (slot : ℕ) + 16 * tu) ∧
    s.mifTransmitionTime now = if t < 2 ^ 64 then some t else none := by
  have hnext := s.nextSlotIndex_eq now
  have hcurrent := s.currentSlotIndex_eq now
  have hremaining := s.remainingSlotLength_eq now
  have hslot := s.phaseAt_mod_slotDuration now
  have hpos : 0 ≤ s.phaseAt now := phaseAt_nonneg
  have hlt : s.phaseAt now < 1048576 := phaseAt_lt
  unfold mifTransmitionTime
  dsimp only
  generalize hchosen : (if remainingSlotLength (s.elapsedSinceTsfEpoch now) < 32 then
    nextSlotIndex (s.elapsedSinceTsfEpoch now)
    else currentSlotIndex (s.elapsedSinceTsfEpoch now)) = slot
  have hoffset : tu * 16 < slotDuration := by decide
  obtain ⟨t,ht,hcode⟩ := slotStartTimestamp_of_le slot.isLt hoffset hle
  refine ⟨t,?_,⟨slot,?_⟩,hcode⟩
  · rw [ht]
    unfold nextInPhase
    unfold phaseAt at *
    simp only [tu,channelSequenceDuration_val,slotDuration_val] at *
    push_cast at *
    split_ifs at hchosen with h <;> subst hchosen <;> split_ifs <;> omega
  · have hphase := ((isLeast_slot_iff slot.isLt hoffset).mpr ht).1.2
    rw [hphase]
    push_cast
    ring

/-- The next frame is due soon exactly in the first half of a slot, unless the clock ends
before. -/
theorem mifSoon_iff (s : SynchronizationState) (now : ℕ) (h : channelSequenceDuration ≤ now) :
    s.MifSoon now ↔ (now - s.tsfEpochInUs) % slotDuration < 32 * tu ∧
      now + (80 * tu - (now - s.tsfEpochInUs) % slotDuration) < 2 ^ 64 := by
  have hle : s.phaseAt now ≤ now := by
    have hlt : s.phaseAt now < 1048576 := phaseAt_lt
    rw [channelSequenceDuration_val] at h
    omega
  have hpos : 0 ≤ (now - s.tsfEpochInUs) % (slotDuration : ℤ) := Int.emod_nonneg _ (by decide)
  have hslot : (now - s.tsfEpochInUs) % (slotDuration : ℤ) < 65536 :=
    Int.emod_lt_of_pos _ (by decide)
  obtain ⟨t,ht,hphase,hcode⟩ := mifTransmitionTime_eq hle
  unfold MifSoon
  rw [hcode]
  generalize (now - s.tsfEpochInUs) % (slotDuration : ℤ) = r at *
  simp only [tu,channelSequenceDuration_val,slotDuration_val] at ht hphase ⊢
  push_cast at ht hphase ⊢
  constructor
  · rintro ⟨u,hu,-,hsoon,-⟩
    split_ifs at hu with hfits
    obtain rfl := Option.some.inj hu
    split_ifs at ht with hhalf <;> omega
  · rintro ⟨hhalf,hfits⟩
    have hnext : (t : ℤ) = now - r + 81920 := by omega
    rw [if_pos (by omega)]
    exact ⟨t,rfl,by omega,by omega,hphase⟩

/-- At the start of a slot. -/
theorem mifSoon_at_slot_start :
    channelSequenceDuration ≤ 1048576 ∧ MifSoon ⟨fun _ => 6,0⟩ 1048576 :=
  ⟨by decide,(mifSoon_iff ⟨fun _ => 6,0⟩ 1048576 (by decide)).mpr (by decide)⟩

/-- 40 TU into a slot the next frame is due almost a sequence later. -/
theorem not_mifSoon_late_in_slot :
    channelSequenceDuration ≤ 1089536 ∧ ¬ MifSoon ⟨fun _ => 6,0⟩ 1089536 := by
  refine ⟨by decide,?_⟩
  rintro ⟨t,ht,-,hlt,-⟩
  have hcode : mifTransmitionTime ⟨fun _ => 6,0⟩ 1089536 = some 2113536 := by decide
  obtain rfl := Option.some.inj (hcode.symm.trans ht)
  revert hlt
  decide

/-! ## The slots of a duration -/

/-- The 2 ^ 16 availability windows that are counted make 2 ^ 10 sequences. -/
theorem currentSlotIndex_val (durationSinceEpoch : ℕ) :
    (currentSlotIndex durationSinceEpoch : ℕ) =
      durationSinceEpoch % channelSequenceDuration / slotDuration := by
  simp only [currentSlotIndex,awSeqNumber,awDurationInUs,tu,tuPerAw,awPerSlot,slotIndex_val,
    channelSequenceDuration_val,slotDuration_val]
  omega

theorem nextSlotIndex_val (durationSinceEpoch : ℕ) :
    (nextSlotIndex durationSinceEpoch : ℕ) =
      ((currentSlotIndex durationSinceEpoch : ℕ) + 1) % 16 := by
  rw [currentSlotIndex_val]
  simp only [nextSlotIndex,awSeqNumber,awDurationInUs,tu,tuPerAw,awPerSlot,Fin.val_ofNat,
    channelSequenceDuration_val,slotDuration_val]
  omega

/-- Going back by what has passed of the slot leads to its start. -/
theorem phase_slotStart (s : SynchronizationState) (now : ℕ) :
    (now - (s.elapsedSinceTsfEpoch now % slotDuration : ℕ) - s.tsfEpochInUs) %
        channelSequenceDuration =
      slotDuration * (currentSlotIndex (s.elapsedSinceTsfEpoch now) : ℕ) := by
  have hphase := s.elapsed_mod_eq_phaseAt now
  rw [currentSlotIndex_val]
  generalize s.elapsedSinceTsfEpoch now = d at hphase ⊢
  simp only [phaseAt,channelSequenceDuration_val,slotDuration_val] at hphase ⊢
  push_cast at hphase ⊢
  omega

/-- `slot_start_timestamp` returns this start or the one a sequence later exactly where it
is right. -/
theorem slotStartTimestamp_current_iff (s : SynchronizationState) (now : ℕ) :
    (∃ t, s.slotStartTimestamp (currentSlotIndex (s.elapsedSinceTsfEpoch now)) 0 now = some t ∧
      ((t : ℤ) = now - (s.elapsedSinceTsfEpoch now % slotDuration : ℕ) ∨
        (t : ℤ) = now - (s.elapsedSinceTsfEpoch now % slotDuration : ℕ) +
          channelSequenceDuration)) ↔
      s.StartsNext (currentSlotIndex (s.elapsedSinceTsfEpoch now)) 0 now := by
  have hslot := (currentSlotIndex (s.elapsedSinceTsfEpoch now)).isLt
  have hoffset : 0 < slotDuration := by decide
  constructor
  · rintro ⟨t,ht,hstart⟩
    rw [startsNext_iff s _ 0 now hslot hoffset]
    by_cases hle : s.phaseAt now ≤ now
    · obtain ⟨u,hu,hcode⟩ := slotStartTimestamp_of_le hslot hoffset hle
      rw [hcode] at ht
      split_ifs at ht with hlt
      rw [← hu]
      exact ⟨hle,by exact_mod_cast hlt⟩
    · -- the result is off by the phase of the clock
      exfalso
      obtain ⟨k,hk,hcode⟩ := slotStartTimestamp_of_lt 0 hslot (not_le.mp hle)
      obtain ⟨rfl,-⟩ := instantAdd_eq_some (hcode.symm.trans ht)
      have hphase := s.elapsed_mod_eq_phaseAt now
      have hval := currentSlotIndex_val (s.elapsedSinceTsfEpoch now)
      rw [← hphase] at hle
      generalize s.elapsedSinceTsfEpoch now = d at hle hval hstart
      simp only [channelSequenceDuration_val,slotDuration_val] at hle hval hstart
      push_cast at hle hstart
      omega
  · rintro ⟨t,ht,hleast,hlt⟩
    refine ⟨t,ht,?_⟩
    have hnow := hleast.1.1
    have hphase := hleast.1.2
    have hstart := s.phase_slotStart now
    generalize s.elapsedSinceTsfEpoch now = d at hphase hstart ⊢
    simp only [phaseAt,channelSequenceDuration_val,slotDuration_val] at hlt hphase hstart ⊢
    push_cast at hphase hstart ⊢
    omega

/-- The count of windows in 16 bits does not show in the slots, and `current_slot_index`
agrees with `slot_start_timestamp` on where they start. -/
theorem slotIndices_correct (s : SynchronizationState) (now durationSinceEpoch : ℕ) :
    ((currentSlotIndex durationSinceEpoch : ℕ) =
        durationSinceEpoch % channelSequenceDuration / slotDuration ∧
      (nextSlotIndex durationSinceEpoch : ℕ) =
        ((currentSlotIndex durationSinceEpoch : ℕ) + 1) % 16 ∧
      (currentSlotIndex durationSinceEpoch : ℕ) < 16 ∧
      (nextSlotIndex durationSinceEpoch : ℕ) < 16) ∧
    (now - (s.elapsedSinceTsfEpoch now % slotDuration : ℕ) - s.tsfEpochInUs) %
        channelSequenceDuration =
      slotDuration * (currentSlotIndex (s.elapsedSinceTsfEpoch now) : ℕ) ∧
    ((∃ t, s.slotStartTimestamp (currentSlotIndex (s.elapsedSinceTsfEpoch now)) 0 now = some t ∧
      ((t : ℤ) = now - (s.elapsedSinceTsfEpoch now % slotDuration : ℕ) ∨
        (t : ℤ) = now - (s.elapsedSinceTsfEpoch now % slotDuration : ℕ) +
          channelSequenceDuration)) ↔
      s.StartsNext (currentSlotIndex (s.elapsedSinceTsfEpoch now)) 0 now) :=
  ⟨⟨currentSlotIndex_val _,nextSlotIndex_val _,Fin.isLt _,Fin.isLt _⟩,s.phase_slotStart now,
    s.slotStartTimestamp_current_iff now⟩

/-- A day behind the epoch the windows have been counted from zero again eighty times. -/
example : currentSlotIndex 86400000000 = 7 ∧ nextSlotIndex 86400000000 = 8 := by decide

end Phases

end SynchronizationState

end FerrisOnAir.Awdl

import FerrisOnAir.Awdl.Election
import FerrisOnAir.Awdl.Slots

/-! # Slots shared with a peer

`next_overlap_timestamp` looks for a slot with one channel in the sequences of two nodes.
It compares the sequences index by index, while each node counts its slots from an epoch of
its own.
-/
namespace FerrisOnAir.Awdl

inductive OverlapSlotState
  | noOverlappingSlots
  | peerNotInCache
  | currentlyOverlapping
  | overlappingAt (timestamp : ℕ)
deriving DecidableEq

namespace SynchronizationState
variable (s other : SynchronizationState)

/-- `(current_slot..16).chain(0..current_slot)`. -/
def slotsFrom (currentSlot : Fin 16) : List (Fin 16) :=
  (List.finRange 16).drop currentSlot ++ (List.finRange 16).take currentSlot

def commonSlot (currentSlot : Fin 16) : Option (Fin 16) :=
  (slotsFrom currentSlot).find?
    (fun slot => s.channelSequence slot == other.channelSequence slot)

def nextOverlapTimestamp (now : ℕ) : Option OverlapSlotState :=
  let currentSlot := currentSlotIndex (s.elapsedSinceTsfEpoch now)
  if s.channelSequence currentSlot =
      other.channelSequence (currentSlotIndex (other.elapsedSinceTsfEpoch now)) then
    some .currentlyOverlapping
  else match s.commonSlot other currentSlot with
    | some slot => (s.slotStartTimestamp slot 0 now).map .overlappingAt
    | none => some .noOverlappingSlots

/-! ## What is asked of it -/

/-- The slot in which an instant lies. -/
def slotAt (t : ℕ) : Fin 16 := slotIndex (s.phaseAt t / slotDuration).toNat

def channelAt (t : ℕ) : UInt8 := s.channelSequence (s.slotAt t)

structure OverlapsCorrectly (now : ℕ) : Prop where
  returns : (s.nextOverlapTimestamp other now).isSome
  current : s.nextOverlapTimestamp other now = some .currentlyOverlapping ↔
    s.channelAt now = other.channelAt now
  next : ∀ t, s.nextOverlapTimestamp other now = some (.overlappingAt t) →
    now ≤ t ∧ s.channelAt t = other.channelAt t
  never : s.nextOverlapTimestamp other now = some .noOverlappingSlots →
    ∀ t, now ≤ t → s.channelAt t ≠ other.channelAt t

/-- The whole slots by which the sequence of the other is ahead. -/
def slotShift : ℕ :=
  ((s.tsfEpochInUs - other.tsfEpochInUs) % channelSequenceDuration / slotDuration).toNat

/-- The slot that comes first after the current one, itself included, among those with one
channel at equal indices. -/
def FirstCommon (current slot : Fin 16) : Prop :=
  s.channelSequence slot = other.channelSequence slot ∧
  ∀ k : Fin 16, s.channelSequence k = other.channelSequence k →
    (slot + 16 - current : ℕ) % 16 ≤ (k + 16 - current : ℕ) % 16

/-- The channel that both have at equal indices is also the one of the slot of the other in
which the slot begins. Shortly after boot the slot is counted from the current ones. -/
def StaysCommon (now : ℕ) (slot : Fin 16) : Prop :=
  if s.phaseAt now ≤ now then
    s.channelSequence slot = other.channelSequence (slotIndex (slot + s.slotShift other)) ∧
    nextInPhase channelSequenceDuration s.tsfEpochInUs (slotDuration * (slot : ℕ)) now < 2 ^ 64
  else s.channelSequence (slotIndex (s.slotAt now + slot)) =
    other.channelSequence (slotIndex (other.slotAt now + slot))

/-- No slot has the channel of a slot of the other that it overlaps, which are two unless
the slots of both begin together. -/
def NeverCommon : Prop := ∀ slot : Fin 16,
  s.channelSequence slot ≠ other.channelSequence (slotIndex (slot + s.slotShift other)) ∧
  ((s.tsfEpochInUs - other.tsfEpochInUs) % slotDuration ≠ 0 →
    s.channelSequence slot ≠ other.channelSequence (slotIndex (slot + s.slotShift other + 1)))

/-- Comparing equal indices gives the right answer. -/
def IndicesSuffice (now : ℕ) : Prop :=
  s.channelAt now = other.channelAt now ∨
  (∃ slot, s.FirstCommon other (s.slotAt now) slot ∧ s.StaysCommon other now slot) ∨
  (∀ slot, s.channelSequence slot ≠ other.channelSequence slot) ∧ s.NeverCommon other

section Slots
variable {s other} {now t : ℕ}

theorem slotAt_val (t : ℕ) : ((s.slotAt t : ℕ) : ℤ) = s.phaseAt t / slotDuration := by
  have hpos : 0 ≤ s.phaseAt t := phaseAt_nonneg
  have hlt : s.phaseAt t < 1048576 := phaseAt_lt
  simp only [slotAt,slotIndex_val,slotDuration_val]
  omega

theorem currentSlotIndex_eq_slotAt (now : ℕ) :
    currentSlotIndex (s.elapsedSinceTsfEpoch now) = s.slotAt now := by
  have h := (s.currentSlotIndex_eq now).trans (s.slotAt_val now).symm
  exact Fin.ext (Int.ofNat.inj h)

/-- The slot of the other, by the phase within the own slot. -/
theorem slotAt_other (s other : SynchronizationState) (t : ℕ) :
    other.slotAt t = slotIndex (s.slotAt t + s.slotShift other +
      if s.phaseAt t % slotDuration +
        (s.tsfEpochInUs - other.tsfEpochInUs) % slotDuration < slotDuration then 0 else 1) := by
  have hown := s.slotAt_val t
  have hother := other.slotAt_val t
  apply Fin.ext
  split_ifs with h <;>
  · simp only [slotIndex_val,slotShift,phaseAt,channelSequenceDuration_val,slotDuration_val]
      at h hown hother ⊢
    omega

theorem slotAt_of_phaseAt {slot : Fin 16} {offset : ℕ} (hoffset : offset < slotDuration)
    (h : s.phaseAt t = slotDuration * (slot : ℕ) + offset) : s.slotAt t = slot := by
  have hval := s.slotAt_val t
  apply Fin.ext
  rw [h] at hval
  simp only [slotDuration_val] at hoffset hval
  omega

theorem slotAt_of_start {slot : Fin 16} (h : s.phaseAt t = slotDuration * (slot : ℕ)) :
    s.slotAt t = slot := by
  have hoffset : 0 < slotDuration := by decide
  exact slotAt_of_phaseAt hoffset (by rw [h,Nat.cast_zero,add_zero])

/-- A number of whole slots later both are as many slots further. -/
theorem slotAt_add (slot k : ℕ) :
    s.slotAt (now + (slotDuration * slot + 0 + channelSequenceDuration * k)) =
      slotIndex (s.slotAt now + slot) := by
  have hnow := s.slotAt_val now
  have hlater := s.slotAt_val (now + (slotDuration * slot + 0 + channelSequenceDuration * k))
  apply Fin.ext
  simp only [slotIndex_val,phaseAt,channelSequenceDuration_val,slotDuration_val] at hnow hlater ⊢
  push_cast at hlater
  omega

/-! ## The search -/

theorem mem_slotsFrom : ∀ current slot : Fin 16, slot ∈ slotsFrom current := by decide

theorem slotsFrom_pairwise : ∀ current : Fin 16, (slotsFrom current).Pairwise
    (fun i j : Fin 16 => (i + 16 - current : ℕ) % 16 < (j + 16 - current : ℕ) % 16) := by decide

theorem commonSlot_some {current slot : Fin 16} (h : s.commonSlot other current = some slot) :
    s.FirstCommon other current slot := by
  obtain ⟨hslot,before,behind,hlist,hbefore⟩ := List.find?_eq_some_iff_append.mp h
  refine ⟨eq_of_beq hslot,?_⟩
  intro k hk
  have hsorted := slotsFrom_pairwise current
  have hmem := mem_slotsFrom current k
  rw [hlist] at hsorted hmem
  rcases List.mem_append.mp hmem with hmem | hmem
  · have hne := hbefore k hmem
    rw [hk,beq_self_eq_true] at hne
    cases hne
  · rcases List.mem_cons.mp hmem with rfl | hmem
    · exact le_refl _
    · have hbehind := (List.pairwise_append.mp hsorted).2.1
      have hlt := List.rel_of_pairwise_cons hbehind hmem
      exact le_of_lt hlt

theorem commonSlot_none {current : Fin 16} (h : s.commonSlot other current = none)
    (slot : Fin 16) : s.channelSequence slot ≠ other.channelSequence slot := by
  intro heq
  exact List.find?_eq_none.mp h slot (mem_slotsFrom current slot) (beq_iff_eq.mpr heq)

theorem FirstCommon.unique {current i j : Fin 16} (hi : s.FirstCommon other current i)
    (hj : s.FirstCommon other current j) : i = j := by
  have hij := hi.2 j hj.1
  have hji := hj.2 i hi.1
  apply Fin.ext
  omega

theorem nextOverlapTimestamp_eq (hne : s.channelAt now ≠ other.channelAt now) :
    s.nextOverlapTimestamp other now = match s.commonSlot other (s.slotAt now) with
      | some slot => (s.slotStartTimestamp slot 0 now).map .overlappingAt
      | none => some .noOverlappingSlots := by
  rw [nextOverlapTimestamp,currentSlotIndex_eq_slotAt,currentSlotIndex_eq_slotAt]
  exact if_neg hne

theorem nextOverlapTimestamp_eq_current_iff (s other : SynchronizationState) (now : ℕ) :
    s.nextOverlapTimestamp other now = some .currentlyOverlapping ↔
      s.channelAt now = other.channelAt now := by
  constructor
  · intro h
    by_contra hne
    rw [nextOverlapTimestamp_eq hne] at h
    cases hslot : s.commonSlot other (s.slotAt now) with
    | none => rw [hslot] at h; cases h
    | some slot =>
      simp only [hslot] at h
      cases ht : s.slotStartTimestamp slot 0 now with
      | none => rw [ht] at h; cases h
      | some t => rw [ht] at h; cases h
  · intro heq
    rw [nextOverlapTimestamp,currentSlotIndex_eq_slotAt,currentSlotIndex_eq_slotAt]
    exact if_pos heq

theorem overlapsCorrectly_of_eq (heq : s.channelAt now = other.channelAt now) :
    s.OverlapsCorrectly other now := by
  have hcode := (nextOverlapTimestamp_eq_current_iff s other now).mpr heq
  refine ⟨by rw [hcode]; rfl,nextOverlapTimestamp_eq_current_iff s other now,?_,?_⟩
  · intro t ht
    cases hcode.symm.trans ht
  · intro hnone
    cases hcode.symm.trans hnone

/-- With a common slot at equal indices everything depends on its start. -/
theorem overlapsCorrectly_of_some (hne : s.channelAt now ≠ other.channelAt now) {slot : Fin 16}
    (hslot : s.commonSlot other (s.slotAt now) = some slot) :
    s.OverlapsCorrectly other now ↔ ∃ t, s.slotStartTimestamp slot 0 now = some t ∧
      now ≤ t ∧ s.channelAt t = other.channelAt t := by
  have hcode := nextOverlapTimestamp_eq hne
  simp only [hslot] at hcode
  cases ht : s.slotStartTimestamp slot 0 now with
  | none =>
    rw [ht] at hcode
    refine iff_of_false ?_ (by rintro ⟨t,h,-⟩; cases h)
    intro h
    have hreturns := h.returns
    rw [hcode] at hreturns
    cases hreturns
  | some t =>
    rw [ht] at hcode
    constructor
    · intro h
      exact ⟨t,rfl,h.next t hcode⟩
    · rintro ⟨_,⟨⟩,hnow,hchannel⟩
      refine ⟨by rw [hcode]; rfl,nextOverlapTimestamp_eq_current_iff s other now,?_,?_⟩
      · intro u hu
        cases hcode.symm.trans hu
        exact ⟨hnow,hchannel⟩
      · intro hnone
        cases hcode.symm.trans hnone

theorem overlapsCorrectly_of_none (hne : s.channelAt now ≠ other.channelAt now)
    (hnone : s.commonSlot other (s.slotAt now) = none) :
    s.OverlapsCorrectly other now ↔ ∀ t, now ≤ t → s.channelAt t ≠ other.channelAt t := by
  have hcode := nextOverlapTimestamp_eq hne
  rw [hnone] at hcode
  constructor
  · intro h
    exact h.never hcode
  · intro h
    refine ⟨by rw [hcode]; rfl,nextOverlapTimestamp_eq_current_iff s other now,?_,fun _ => h⟩
    intro t ht
    cases hcode.symm.trans ht

/-! ## The channels at the start of a slot -/

theorem slotAt_other_of_start (other : SynchronizationState) {slot : Fin 16}
    (h : s.phaseAt t = slotDuration * (slot : ℕ)) :
    other.slotAt t = slotIndex (slot + s.slotShift other) := by
  have hslot : s.slotAt t = slot := slotAt_of_start h
  have hrest : (s.tsfEpochInUs - other.tsfEpochInUs) % (slotDuration : ℤ) < slotDuration :=
    Int.emod_lt_of_pos _ (by decide)
  rw [s.slotAt_other other,hslot,if_pos,add_zero]
  rw [h,Int.mul_emod_right,zero_add]
  exact hrest

/-- At the end of a slot the other is one slot further, unless the slots begin together. -/
theorem slotAt_other_of_end {slot : Fin 16}
    (h : s.phaseAt t = slotDuration * (slot : ℕ) + (slotDuration - 1 : ℕ))
    (hrest : (s.tsfEpochInUs - other.tsfEpochInUs) % slotDuration ≠ 0) :
    other.slotAt t = slotIndex (slot + s.slotShift other + 1) := by
  have hslot : s.slotAt t = slot := slotAt_of_phaseAt (by decide) h
  have hpos : 0 ≤ (s.tsfEpochInUs - other.tsfEpochInUs) % (slotDuration : ℤ) :=
    Int.emod_nonneg _ (by decide)
  rw [s.slotAt_other other,hslot,if_neg]
  rw [h]
  simp only [slotDuration_val] at hpos hrest ⊢
  omega

theorem exists_phaseAt (now : ℕ) {slot offset : ℕ} (hslot : slot < 16)
    (hoffset : offset < slotDuration) :
    ∃ t, now ≤ t ∧ s.phaseAt t = slotDuration * slot + offset := by
  have hnow : (now : ℤ) ≤ nextInPhase channelSequenceDuration s.tsfEpochInUs
      (slotDuration * slot + offset) now := le_nextInPhase (by decide)
  obtain ⟨t,ht⟩ := Int.eq_ofNat_of_zero_le ((Int.natCast_nonneg now).trans hnow)
  exact ⟨t,((isLeast_slot_iff hslot hoffset).mpr ht.symm).1⟩

theorem neverCommon_iff (now : ℕ) :
    (∀ t, now ≤ t → s.channelAt t ≠ other.channelAt t) ↔ s.NeverCommon other := by
  constructor
  · intro h slot
    constructor
    · have hoffset : 0 < slotDuration := by decide
      obtain ⟨t,hnow,ht⟩ := s.exists_phaseAt now slot.isLt hoffset
      rw [Nat.cast_zero,add_zero] at ht
      have hne := h t hnow
      rwa [channelAt,channelAt,slotAt_other_of_start other ht,slotAt_of_start ht] at hne
    · intro hrest
      have hoffset : slotDuration - 1 < slotDuration := by decide
      obtain ⟨t,hnow,ht⟩ := s.exists_phaseAt now slot.isLt hoffset
      have hne := h t hnow
      rwa [channelAt,channelAt,slotAt_other_of_end ht hrest,slotAt_of_phaseAt hoffset ht] at hne
  · intro h t _
    obtain ⟨hstart,hend⟩ := h (s.slotAt t)
    rw [channelAt,channelAt,s.slotAt_other other]
    split_ifs with hphase
    · exact hstart
    · apply hend
      intro hrest
      have hlt : s.phaseAt t % (slotDuration : ℤ) < slotDuration :=
        Int.emod_lt_of_pos _ (by decide)
      rw [hrest,add_zero] at hphase
      exact hphase hlt

theorem staysCommon_iff (slot : Fin 16) :
    (∃ t, s.slotStartTimestamp slot 0 now = some t ∧ now ≤ t ∧ s.channelAt t = other.channelAt t) ↔
      s.StaysCommon other now slot := by
  unfold StaysCommon
  have hoffset : 0 < slotDuration := by decide
  split_ifs with hle
  · obtain ⟨t,ht,hcode⟩ := slotStartTimestamp_of_le slot.isLt hoffset hle
    obtain ⟨hnow,hphase⟩ := ((isLeast_slot_iff slot.isLt hoffset).mpr ht).1
    rw [Nat.cast_zero,add_zero] at ht hphase
    have hchannel : s.channelAt t = other.channelAt t ↔ s.channelSequence slot =
        other.channelSequence (slotIndex (slot + s.slotShift other)) := by
      rw [channelAt,channelAt,slotAt_other_of_start other hphase,slotAt_of_start hphase]
    rw [← ht,← hchannel,hcode]
    constructor
    · rintro ⟨u,hu,-,heq⟩
      split_ifs at hu with hlt
      cases hu
      exact ⟨heq,by exact_mod_cast hlt⟩
    · rintro ⟨heq,hlt⟩
      exact ⟨t,if_pos (by exact_mod_cast hlt),hnow,heq⟩
  · obtain ⟨k,hk,hcode⟩ := slotStartTimestamp_of_lt 0 slot.isLt (not_le.mp hle)
    rw [hcode,← slotAt_add slot k,← slotAt_add slot k]
    have hfits : now + (slotDuration * slot + 0 + channelSequenceDuration * k) < 2 ^ 64 := by
      have hlt : s.phaseAt now < 1048576 := phaseAt_lt
      have hslot := slot.isLt
      simp only [slotDuration_val,channelSequenceDuration_val]
      omega
    rw [instantAdd,if_pos hfits]
    constructor
    · rintro ⟨t,⟨⟩,-,heq⟩
      exact heq
    · intro heq
      exact ⟨_,rfl,Nat.le_add_right _ _,heq⟩

/-- The next overlap is right exactly where the comparison of equal indices is. -/
theorem overlapsCorrectly_iff (s other : SynchronizationState) (now : ℕ) :
    s.OverlapsCorrectly other now ↔ s.IndicesSuffice other now := by
  by_cases heq : s.channelAt now = other.channelAt now
  · exact iff_of_true (overlapsCorrectly_of_eq heq) (.inl heq)
  unfold IndicesSuffice
  rw [or_iff_right heq]
  cases hslot : s.commonSlot other (s.slotAt now) with
  | some slot =>
    have hfirst := commonSlot_some hslot
    rw [overlapsCorrectly_of_some heq hslot,staysCommon_iff]
    constructor
    · intro h
      exact .inl ⟨slot,hfirst,h⟩
    · rintro (⟨k,hk,h⟩ | ⟨hnone,-⟩)
      · rwa [hfirst.unique hk]
      · exact absurd hfirst.1 (hnone slot)
  | none =>
    have hnone := commonSlot_none hslot
    rw [overlapsCorrectly_of_none heq hslot,neverCommon_iff]
    constructor
    · intro h
      exact .inr ⟨hnone,h⟩
    · rintro (⟨k,hk,-⟩ | ⟨-,h⟩)
      · exact absurd hk.1 (hnone k)
      · exact h

/-- Two nodes with one sequence, half a sequence apart, are never on one channel. -/
theorem not_overlapsCorrectly_shifted :
    ¬ OverlapsCorrectly ⟨fun i => if i.val < 8 then 6 else 44,0⟩
      ⟨fun i => if i.val < 8 then 6 else 44,524288⟩ 2097152 := by
  intro h
  have hnext := h.next 2097152 (by decide)
  revert hnext
  decide

end Slots

end SynchronizationState

/-! ## The slot of a destination -/

theorem address_length_pos : 0 < 6 := by decide

/-- `MACAddress::is_multicast`. -/
def isMulticast (address : Address) : Bool := address ⟨0,address_length_pos⟩ &&& 1 == 1

namespace PeerCache
variable (cache : PeerCache)

def getCommonSlotForPeer (peerAddress : Address) (ourSyncState : SynchronizationState) (now : ℕ) :
    Option OverlapSlotState :=
  if isMulticast peerAddress then
    (ourSyncState.multicastSlotStartTimestamp now).map .overlappingAt
  else match cache.get peerAddress with
    | some peer => peer.synchronizationState.nextOverlapTimestamp ourSyncState now
    | none => some .peerNotInCache

/-- A frame is sent at once exactly to a cached peer on our channel. -/
theorem getCommonSlotForPeer_current_iff (peerAddress : Address)
    (ourSyncState : SynchronizationState) (now : ℕ) :
    cache.getCommonSlotForPeer peerAddress ourSyncState now = some .currentlyOverlapping ↔
      isMulticast peerAddress = false ∧ ∃ peer, cache.get peerAddress = some peer ∧
        peer.synchronizationState.channelAt now = ourSyncState.channelAt now := by
  unfold getCommonSlotForPeer
  cases hmulticast : isMulticast peerAddress with
  | true =>
    rw [if_pos rfl]
    refine iff_of_false ?_ (by rintro ⟨⟨⟩,-⟩)
    cases ourSyncState.multicastSlotStartTimestamp now with
    | none => rintro ⟨⟩
    | some t => rintro ⟨⟩
  | false =>
    rw [if_neg Bool.false_ne_true]
    cases hpeer : cache.get peerAddress with
    | none => exact iff_of_false (by rintro ⟨⟩) (by rintro ⟨-,peer,⟨⟩,-⟩)
    | some peer =>
      refine (SynchronizationState.nextOverlapTimestamp_eq_current_iff _ _ now).trans ?_
      constructor
      · intro h
        exact ⟨rfl,peer,rfl,h⟩
      · rintro ⟨-,_,⟨⟩,h⟩
        exact h

end PeerCache

end FerrisOnAir.Awdl

import FerrisOnAir.Foundation.Runs

/-! # The recorder of probe submissions

`foa/src/tx_probe.rs`. A recorder keeps the first `N` submissions and the times at which each of
them passed the queue. Events come from anywhere: their tags, times and results are arbitrary.
-/
namespace FerrisOnAir.Tx.Probe
variable {N : ℕ} {E : Type*}

structure Tag where
  ordinal : ℕ
  slot : ℕ
deriving DecidableEq

inductive Phase
  | accepted
  | queued
  | picked
  | finished
deriving DecidableEq

/-- The place of a phase in a submission. -/
def Phase.rank : Phase → ℕ
  | .accepted => 0
  | .queued => 1
  | .picked => 2
  | .finished => 3

theorem Phase.rank_injective : Function.Injective Phase.rank := by
  intro φ ψ h
  cases φ <;> cases ψ <;> first | rfl | cases h

/-- A completion is the retry count or the error of the hardware. -/
structure Entry (E : Type*) where
  tag : Tag
  cycle : ℕ
  sequence : ℕ
  phase : Phase
  completion : Option (Except E UInt8)
  acceptedUs : ℕ
  queuedUs : Option ℕ
  pickedUs : Option ℕ
  finishedUs : Option ℕ

namespace Entry
variable (e : Entry E)

/-- `EMPTY`. -/
def empty : Entry E := ⟨⟨0,0⟩,0,0,.accepted,none,0,none,none,none⟩

/-- The time at which a phase was entered. -/
def us : Phase → Option ℕ
  | .accepted => some e.acceptedUs
  | .queued => e.queuedUs
  | .picked => e.pickedUs
  | .finished => e.finishedUs

/-- The time that the next one is compared with. -/
def latestUs : ℕ := (e.pickedUs.or e.queuedUs).getD e.acceptedUs

end Entry

structure Counters where
  capacityRejections : ℕ
  tagExhaustion : ℕ
  invalidEvents : ℕ
  scopeChanges : ℕ
deriving DecidableEq

/-- The range of `u32`. -/
def u32Size : ℕ := 2 ^ 32

/-- `checked_add(1)` in a range. -/
def checkedSucc (size x : ℕ) : Option ℕ := if x + 1 < size then some (x + 1) else none

/-- `saturating_add(1)`. -/
def saturatingSucc (x : ℕ) : ℕ := min (x + 1) (u32Size - 1)

structure Recorder (N : ℕ) (E : Type*) where
  entries : Fin N → Entry E
  used : ℕ
  used_le : used ≤ N
  lastTag : ℕ
  counters : Counters

namespace Recorder
variable (r : Recorder N E)

def new : Recorder N E := ⟨fun _ => Entry.empty,0,Nat.zero_le N,0,⟨0,0,0,0⟩⟩

def invalid : Recorder N E :=
  { r with counters :=
    { r.counters with invalidEvents := saturatingSucc r.counters.invalidEvents } }

def accept (cycle sequence time : ℕ) : Option Tag × Recorder N E :=
  if cycle = 0 ∨ ¬ (1 ≤ sequence ∧ sequence ≤ 20) then (none,r.invalid)
  else if h : r.used = N then
    (none,{ r with counters :=
      { r.counters with capacityRejections := saturatingSucc r.counters.capacityRejections } })
  else match checkedSucc u32Size r.lastTag with
    | none =>
      (none,{ r with counters :=
        { r.counters with tagExhaustion := saturatingSucc r.counters.tagExhaustion } })
    | some next =>
      let tag : Tag := ⟨next,r.used⟩
      have hlt : r.used < N := lt_of_le_of_ne r.used_le h
      (some tag,
        { entries := Function.update r.entries ⟨r.used,hlt⟩
            { (Entry.empty : Entry E) with tag, cycle, sequence, acceptedUs := time }
          used := r.used + 1
          used_le := hlt
          lastTag := next
          counters := r.counters })

/-- The entry with the tag, if it is in the phase and not later than the time. -/
def index (tag : Tag) (phase : Phase) (time : ℕ) : Option (Fin N) × Recorder N E :=
  let index : Option (Fin N) :=
    if h : tag.slot < r.used then
      let i : Fin N := ⟨tag.slot,h.trans_le r.used_le⟩
      let e := r.entries i
      if e.tag = tag ∧ e.phase = phase ∧ e.latestUs ≤ time then some i else none
    else none
  if index.isNone then (index,r.invalid) else (index,r)

/-- What `queued`, `picked` and `finished` have in common. -/
def advance (tag : Tag) (phase : Phase) (time : ℕ) (f : Entry E → Entry E) : Recorder N E :=
  match r.index tag phase time with
  | (some i,r) => { r with entries := Function.update r.entries i (f (r.entries i)) }
  | (none,r) => r

def queued (tag : Tag) (time : ℕ) : Recorder N E :=
  r.advance tag .accepted time fun e => { e with queuedUs := some time, phase := .queued }

def picked (tag : Tag) (time : ℕ) : Recorder N E :=
  r.advance tag .queued time fun e => { e with pickedUs := some time, phase := .picked }

def finished (tag : Tag) (time : ℕ) (result : Except E UInt8) : Recorder N E :=
  r.advance tag .picked time fun e =>
    { e with finishedUs := some time, completion := some result, phase := .finished }

end Recorder

inductive Event (E : Type*)
  | accept (cycle sequence time : ℕ)
  | queued (tag : Tag) (time : ℕ)
  | picked (tag : Tag) (time : ℕ)
  | finished (tag : Tag) (time : ℕ) (result : Except E UInt8)

namespace Event

def tag : Event E → Option Tag
  | accept _ _ _ => none
  | queued tag _ => some tag
  | picked tag _ => some tag
  | finished tag _ _ => some tag

/-- The phase that the event reports. -/
def phase : Event E → Phase
  | accept _ _ _ => .accepted
  | queued _ _ => .queued
  | picked _ _ => .picked
  | finished _ _ _ => .finished

def time : Event E → ℕ
  | accept _ _ time => time
  | queued _ time => time
  | picked _ time => time
  | finished _ time _ => time

def result : Event E → Option (Except E UInt8)
  | finished _ _ result => some result
  | _ => none

end Event

/-- Records an event. -/
def Recorder.record (r : Recorder N E) : Event E → Recorder N E
  | .accept cycle sequence time => (r.accept cycle sequence time).2
  | .queued tag time => r.queued tag time
  | .picked tag time => r.picked tag time
  | .finished tag time result => r.finished tag time result

/-- The recorder after a history of events. -/
def Recorder.after (events : List (Event E)) : Recorder N E := events.foldl record new

/-! ## The law of an entry -/
namespace Entry
variable {e e' : Entry E} {event : Event E}

/-- The times of an entry are those of the phases up to its own, in order. -/
structure Recorded (e : Entry E) : Prop where
  us_isSome_iff : ∀ φ, (e.us φ).isSome = true ↔ φ.rank ≤ e.phase.rank
  us_mono : ∀ φ ψ s t, φ.rank ≤ ψ.rank → e.us φ = some s → e.us ψ = some t → s ≤ t
  completion_iff : e.completion.isSome = true ↔ e.phase = .finished
  cycle_ne_zero : e.cycle ≠ 0
  sequence_mem : 1 ≤ e.sequence ∧ e.sequence ≤ 20

/-- An event takes an entry from one phase to the next, at a time that is not before any other
of the entry. -/
structure Follows (e : Entry E) (event : Event E) (e' : Entry E) : Prop where
  rank_succ : e.phase.rank + 1 = event.phase.rank
  us_le : ∀ φ t, e.us φ = some t → t ≤ event.time
  phase_eq : e'.phase = event.phase
  us_eq : ∀ φ, e'.us φ = if φ = event.phase then some event.time else e.us φ
  completion_eq : e'.completion = event.result
  tag_eq : e'.tag = e.tag
  cycle_eq : e'.cycle = e.cycle
  sequence_eq : e'.sequence = e.sequence

/-- An entry that is at least as far, with the same submission and times. -/
structure Extends (e e' : Entry E) : Prop where
  tag_eq : e'.tag = e.tag
  cycle_eq : e'.cycle = e.cycle
  sequence_eq : e'.sequence = e.sequence
  rank_le : e.phase.rank ≤ e'.phase.rank
  us_eq : ∀ φ t, e.us φ = some t → e'.us φ = some t
  finished_eq : e.phase = .finished → e' = e

theorem Extends.refl (e : Entry E) : e.Extends e :=
  ⟨rfl,rfl,rfl,le_rfl,fun _ _ h => h,fun _ => rfl⟩

theorem Extends.trans {e'' : Entry E} (h : e.Extends e') (h' : e'.Extends e'') :
    e.Extends e'' := by
  refine ⟨h'.tag_eq.trans h.tag_eq,h'.cycle_eq.trans h.cycle_eq,
    h'.sequence_eq.trans h.sequence_eq,h.rank_le.trans h'.rank_le,?_,?_⟩
  · intro φ t ht
    exact h'.us_eq φ t (h.us_eq φ t ht)
  · intro hfinished
    have heq := h.finished_eq hfinished
    rw [heq] at h'
    exact h'.finished_eq hfinished

theorem Recorded.us_eq_none (he : e.Recorded) (φ : Phase) (h : e.phase.rank < φ.rank) :
    e.us φ = none := by
  have hnot : ¬ (e.us φ).isSome = true := by
    rw [he.us_isSome_iff]
    omega
  exact Option.not_isSome_iff_eq_none.mp hnot

/-- Before the end, the time that the next one is compared with is that of the phase. -/
theorem Recorded.us_phase (he : e.Recorded) (hphase : e.phase ≠ .finished) :
    e.us e.phase = some e.latestUs := by
  cases h : e.phase with
  | accepted =>
    have hqueued : e.queuedUs = none := he.us_eq_none .queued (by rw [h]; decide)
    have hpicked : e.pickedUs = none := he.us_eq_none .picked (by rw [h]; decide)
    simp [us,latestUs,hqueued,hpicked]
  | queued =>
    have hpicked : e.pickedUs = none := he.us_eq_none .picked (by rw [h]; decide)
    obtain ⟨t,ht⟩ := Option.isSome_iff_exists.mp ((he.us_isSome_iff .queued).mpr (by rw [h]))
    change e.queuedUs = some t at ht
    simp [us,latestUs,ht,hpicked]
  | picked =>
    obtain ⟨t,ht⟩ := Option.isSome_iff_exists.mp ((he.us_isSome_iff .picked).mpr (by rw [h]))
    change e.pickedUs = some t at ht
    simp [us,latestUs,ht]
  | finished => exact absurd h hphase

theorem Recorded.us_le_iff (he : e.Recorded) (hphase : e.phase ≠ .finished) (time : ℕ) :
    (∀ φ t, e.us φ = some t → t ≤ time) ↔ e.latestUs ≤ time := by
  have hlatest := he.us_phase hphase
  constructor
  · intro h
    exact h e.phase e.latestUs hlatest
  · intro hle φ t ht
    have hrank := (he.us_isSome_iff φ).mp (Option.isSome_iff_exists.mpr ⟨t,ht⟩)
    have hmono := he.us_mono φ e.phase t e.latestUs hrank ht hlatest
    exact hmono.trans hle

theorem Recorded.completion_eq_none (he : e.Recorded) (hphase : e.phase ≠ .finished) :
    e.completion = none := by
  have hnot := mt he.completion_iff.mp hphase
  exact Option.not_isSome_iff_eq_none.mp hnot

/-- The law is kept from one phase to the next. -/
theorem Recorded.follows (he : e.Recorded) (h : e.Follows event e') : e'.Recorded := by
  have hrank := h.rank_succ
  refine ⟨?_,?_,?_,?_,?_⟩
  · intro φ
    rw [h.us_eq,h.phase_eq]
    by_cases hφ : φ = event.phase
    · rw [if_pos hφ,hφ]
      exact iff_of_true rfl le_rfl
    · have hne : φ.rank ≠ event.phase.rank := fun heq => hφ (Phase.rank_injective heq)
      rw [if_neg hφ,he.us_isSome_iff]
      omega
  · intro φ ψ s t hle hs ht
    rw [h.us_eq] at hs ht
    split at ht
    · obtain rfl := Option.some.inj ht
      split at hs
      · exact (Option.some.inj hs).ge
      · exact h.us_le φ s hs
    · split at hs
      · rename_i hψ hφ
        have hnone : e.us ψ = none := by
          apply he.us_eq_none ψ
          rw [hφ] at hle
          omega
        rw [hnone] at ht
        cases ht
      · exact he.us_mono φ ψ s t hle hs ht
  · rw [h.completion_eq,h.phase_eq]
    cases event <;> simp [Event.result,Event.phase]
  · rw [h.cycle_eq]
    exact he.cycle_ne_zero
  · rw [h.sequence_eq]
    exact he.sequence_mem

/-- A finished entry is not followed by another. -/
theorem Follows.phase_ne_finished (h : e.Follows event e') : e.phase ≠ .finished := by
  intro hphase
  have hrank := h.rank_succ
  rw [hphase] at hrank
  cases event <;> cases hrank

theorem Follows.extends (he : e.Recorded) (h : e.Follows event e') : e.Extends e' := by
  have hrank := h.rank_succ
  refine ⟨h.tag_eq,h.cycle_eq,h.sequence_eq,?_,?_,?_⟩
  · rw [h.phase_eq]
    omega
  · intro φ t ht
    have hle := (he.us_isSome_iff φ).mp (Option.isSome_iff_exists.mpr ⟨t,ht⟩)
    have hφ : φ ≠ event.phase := by
      rintro rfl
      omega
    rw [h.us_eq,if_neg hφ,ht]
  · intro hphase
    exact absurd hphase h.phase_ne_finished

end Entry

/-! ## The law of a recorder -/

/-- What a recorder counts instead of recording it. -/
inductive Limitation
  | capacity
  | tags
  | events
  | scope

def Counters.count (c : Counters) : Limitation → Counters
  | .capacity => { c with capacityRejections := saturatingSucc c.capacityRejections }
  | .tags => { c with tagExhaustion := saturatingSucc c.tagExhaustion }
  | .events => { c with invalidEvents := saturatingSucc c.invalidEvents }
  | .scope => { c with scopeChanges := saturatingSucc c.scopeChanges }

namespace Recorder
variable {r r' : Recorder N E} {event : Event E}

structure Consistent (r : Recorder N E) : Prop where
  slot_eq : ∀ i : Fin N, i.val < r.used → (r.entries i).tag.slot = i.val
  ordinal_lt : ∀ i j : Fin N, i < j → j.val < r.used →
    (r.entries i).tag.ordinal < (r.entries j).tag.ordinal
  ordinal_le : ∀ i : Fin N, i.val < r.used → (r.entries i).tag.ordinal ≤ r.lastTag
  lastTag_lt : r.lastTag < u32Size
  recorded : ∀ i : Fin N, i.val < r.used → (r.entries i).Recorded

/-- The event can be recorded: a submission for which there is a place and a tag, or the next
phase of an entry that carries the tag. -/
def Due (r : Recorder N E) : Event E → Prop
  | .accept cycle sequence _ =>
    (cycle ≠ 0 ∧ 1 ≤ sequence ∧ sequence ≤ 20) ∧ r.used < N ∧ r.lastTag + 1 < u32Size
  | event => ∃ i : Fin N, i.val < r.used ∧ event.tag = some (r.entries i).tag ∧
      (r.entries i).phase.rank + 1 = event.phase.rank ∧
      ∀ φ t, (r.entries i).us φ = some t → t ≤ event.time

/-- What an event does. -/
inductive Change (r : Recorder N E) (event : Event E) (r' : Recorder N E) : Prop
  | appended (cycle sequence time : ℕ) (hlt : r.used < N)
      (hevent : event = .accept cycle sequence time) (hdue : r.Due event)
      (hr' : r' =
        { entries := Function.update r.entries ⟨r.used,hlt⟩
            ⟨⟨r.lastTag + 1,r.used⟩,cycle,sequence,.accepted,none,time,none,none,none⟩
          used := r.used + 1
          used_le := hlt
          lastTag := r.lastTag + 1
          counters := r.counters })
  | advanced (i : Fin N) (e : Entry E) (hi : i.val < r.used)
      (htag : event.tag = some (r.entries i).tag) (hfollows : (r.entries i).Follows event e)
      (hdue : r.Due event) (hr' : r' = { r with entries := Function.update r.entries i e })
  | counted (limitation : Limitation) (hdue : ¬ r.Due event)
      (hr' : r' = { r with counters := r.counters.count limitation })

/-- A later recorder has the same submissions, each of them as far or farther. -/
structure Kept (r r' : Recorder N E) : Prop where
  used_le_used : r.used ≤ r'.used
  extends_entry : ∀ i : Fin N, i.val < r.used → (r.entries i).Extends (r'.entries i)

/-- The law of the history. -/
structure Lawful (r : Recorder N E) : Prop where
  used_le : r.used ≤ N
  tag_injective : ∀ i j : Fin N, i.val < r.used → j.val < r.used →
    (r.entries i).tag = (r.entries j).tag → i = j
  consistent : r.Consistent
  change : ∀ event, r.Change event (r.record event)
  kept : ∀ events : List (Event E), r.Kept (events.foldl record r)

theorem consistent_new : (new : Recorder N E).Consistent :=
  ⟨nofun,nofun,nofun,Nat.two_pow_pos 32,nofun⟩

theorem Consistent.tag_injective (hr : r.Consistent) (i j : Fin N) (hi : i.val < r.used)
    (hj : j.val < r.used) (h : (r.entries i).tag = (r.entries j).tag) : i = j := by
  have hslot := congrArg Tag.slot h
  rw [hr.slot_eq i hi,hr.slot_eq j hj] at hslot
  exact Fin.ext hslot

/-- The entry that a tag is looked up in is the only one that can carry it. -/
theorem index_cases (hr : r.Consistent) (tag : Tag) (phase : Phase) (time : ℕ) :
    (∃ i : Fin N, i.val < r.used ∧ (r.entries i).tag = tag ∧ (r.entries i).phase = phase ∧
      (r.entries i).latestUs ≤ time ∧ r.index tag phase time = (some i,r)) ∨
    ((∀ i : Fin N, i.val < r.used → (r.entries i).tag = tag → (r.entries i).phase = phase →
      ¬ (r.entries i).latestUs ≤ time) ∧ r.index tag phase time = (none,r.invalid)) := by
  unfold index
  by_cases hslot : tag.slot < r.used
  · rw [dif_pos hslot]
    dsimp only
    by_cases hmatch : (r.entries ⟨tag.slot,hslot.trans_le r.used_le⟩).tag = tag ∧
        (r.entries ⟨tag.slot,hslot.trans_le r.used_le⟩).phase = phase ∧
        (r.entries ⟨tag.slot,hslot.trans_le r.used_le⟩).latestUs ≤ time
    · rw [if_pos hmatch]
      exact .inl ⟨_,hslot,hmatch.1,hmatch.2.1,hmatch.2.2,rfl⟩
    · rw [if_neg hmatch]
      refine .inr ⟨?_,rfl⟩
      intro i hi htag hphase hle
      have hslot_eq := hr.slot_eq i hi
      rw [htag] at hslot_eq
      obtain rfl : (⟨tag.slot,hslot.trans_le r.used_le⟩ : Fin N) = i := Fin.ext hslot_eq
      exact hmatch ⟨htag,hphase,hle⟩
  · rw [dif_neg hslot]
    refine .inr ⟨?_,rfl⟩
    intro i hi htag _ _
    have hslot_eq := hr.slot_eq i hi
    rw [htag] at hslot_eq
    rw [hslot_eq] at hslot
    exact hslot hi

/-- A lifecycle event either takes the entry with its tag to the next phase or is counted. -/
theorem advance_change (hr : r.Consistent) (event : Event E) (tag : Tag) (phase : Phase)
    {f : Entry E → Entry E} (htag : event.tag = some tag) (hphase : phase.rank + 1 = event.phase.rank)
    (hdue : r.Due event ↔ ∃ i : Fin N, i.val < r.used ∧ event.tag = some (r.entries i).tag ∧
      (r.entries i).phase.rank + 1 = event.phase.rank ∧
      ∀ φ t, (r.entries i).us φ = some t → t ≤ event.time)
    (hf : ∀ e : Entry E, e.phase = phase → (∀ φ t, e.us φ = some t → t ≤ event.time) →
      e.completion = none → e.Follows event (f e)) :
    r.Change event (r.advance tag phase event.time f) := by
  have hunfinished : ∀ e : Entry E, e.phase = phase → e.phase ≠ .finished := by
    intro e he hfinished
    rw [← he,hfinished] at hphase
    cases event <;> cases hphase
  unfold advance
  rcases index_cases hr tag phase event.time with ⟨i,hi,hitag,hiphase,hle,heq⟩ | ⟨hnone,heq⟩
  · have hus := ((hr.recorded i hi).us_le_iff (hunfinished _ hiphase) event.time).mpr hle
    have hcarries : event.tag = some (r.entries i).tag := by rw [htag,hitag]
    have hnone := (hr.recorded i hi).completion_eq_none (hunfinished _ hiphase)
    rw [heq]
    refine .advanced i _ hi hcarries (hf _ hiphase hus hnone) ?_ rfl
    apply hdue.mpr
    exact ⟨i,hi,hcarries,by rw [hiphase,hphase],hus⟩
  · rw [heq]
    refine .counted .events ?_ rfl
    intro h
    obtain ⟨i,hi,hcarries,hrank,hus⟩ := hdue.mp h
    have hitag : (r.entries i).tag = tag := Option.some.inj (hcarries.symm.trans htag)
    have hiphase : (r.entries i).phase = phase := by
      apply Phase.rank_injective
      omega
    apply hnone i hi hitag hiphase
    exact ((hr.recorded i hi).us_le_iff (hunfinished _ hiphase) event.time).mp hus

theorem accept_change (cycle sequence time : ℕ) :
    r.Change (.accept cycle sequence time) (r.accept cycle sequence time).2 := by
  unfold accept
  by_cases hvalid : cycle = 0 ∨ ¬ (1 ≤ sequence ∧ sequence ≤ 20)
  · rw [if_pos hvalid]
    refine .counted .events ?_ rfl
    rintro ⟨⟨hcycle,hsequence⟩,-⟩
    rcases hvalid with hzero | hout
    · exact hcycle hzero
    · exact hout hsequence
  · rw [if_neg hvalid]
    obtain ⟨hcycle,hsequence⟩ := not_or.mp hvalid
    by_cases hfull : r.used = N
    · rw [dif_pos hfull]
      refine .counted .capacity ?_ rfl
      rintro ⟨-,hlt,-⟩
      exact hlt.ne hfull
    · rw [dif_neg hfull]
      have hlt : r.used < N := lt_of_le_of_ne r.used_le hfull
      unfold checkedSucc
      by_cases hnext : r.lastTag + 1 < u32Size
      · rw [if_pos hnext]
        exact .appended cycle sequence time hlt rfl
          ⟨⟨hcycle,not_not.mp hsequence⟩,hlt,hnext⟩ rfl
      · rw [if_neg hnext]
        refine .counted .tags ?_ rfl
        rintro ⟨-,-,h⟩
        exact hnext h

/-- The tag that is returned is that of the new entry. -/
theorem accept_some {cycle sequence time : ℕ} {tag : Tag}
    (h : (r.accept cycle sequence time).1 = some tag) :
    ∃ i : Fin N, i.val = tag.slot ∧ i.val < (r.accept cycle sequence time).2.used ∧
      (r.accept cycle sequence time).2.entries i =
        ⟨tag,cycle,sequence,.accepted,none,time,none,none,none⟩ := by
  unfold accept at h ⊢
  by_cases hvalid : cycle = 0 ∨ ¬ (1 ≤ sequence ∧ sequence ≤ 20)
  · rw [if_pos hvalid] at h
    cases h
  · rw [if_neg hvalid] at h ⊢
    by_cases hfull : r.used = N
    · rw [dif_pos hfull] at h
      cases h
    · rw [dif_neg hfull] at h ⊢
      have hlt : r.used < N := lt_of_le_of_ne r.used_le hfull
      cases hnext : checkedSucc u32Size r.lastTag with
      | none =>
        rw [hnext] at h
        cases h
      | some next =>
        rw [hnext] at h
        cases h
        exact ⟨⟨r.used,hlt⟩,rfl,Nat.lt_succ_self _,Function.update_self _ _ _⟩

/-- What each event does to a recorder. -/
theorem record_change (hr : r.Consistent) (event : Event E) : r.Change event (r.record event) := by
  cases event with
  | accept cycle sequence time => exact accept_change cycle sequence time
  | queued tag time =>
    rw [record,queued]
    apply advance_change hr (.queued tag time) tag .accepted rfl rfl Iff.rfl
    intro e hphase hus hnone
    refine ⟨by rw [hphase]; rfl,hus,rfl,?_,hnone,rfl,rfl,rfl⟩
    intro φ
    cases φ <;> rfl
  | picked tag time =>
    rw [record,picked]
    apply advance_change hr (.picked tag time) tag .queued rfl rfl Iff.rfl
    intro e hphase hus hnone
    refine ⟨by rw [hphase]; rfl,hus,rfl,?_,hnone,rfl,rfl,rfl⟩
    intro φ
    cases φ <;> rfl
  | finished tag time result =>
    rw [record,finished]
    apply advance_change hr (.finished tag time result) tag .picked rfl rfl Iff.rfl
    intro e hphase hus _
    refine ⟨by rw [hphase]; rfl,hus,rfl,?_,rfl,rfl,rfl,rfl⟩
    intro φ
    cases φ <;> rfl

/-- The entries of a submission begin with nothing but their acceptance. -/
theorem recorded_submitted (tag : Tag) {cycle sequence : ℕ} (time : ℕ)
    (h : cycle ≠ 0 ∧ 1 ≤ sequence ∧ sequence ≤ 20) :
    (⟨tag,cycle,sequence,.accepted,none,time,none,none,none⟩ : Entry E).Recorded := by
  refine ⟨?_,?_,?_,h.1,h.2⟩
  · intro φ
    cases φ <;> simp [Entry.us,Phase.rank]
  · intro φ ψ s t _ hs ht
    cases φ <;> cases hs
    cases ψ <;> cases ht
    exact le_rfl
  · simp

/-- What a recorder counts is not part of its law. -/
theorem Consistent.of_counters (hr : r.Consistent) (counters : Counters) :
    ({ r with counters } : Recorder N E).Consistent :=
  ⟨hr.slot_eq,hr.ordinal_lt,hr.ordinal_le,hr.lastTag_lt,hr.recorded⟩

/-- A new entry behind the others, with the next tag. -/
theorem Consistent.append (hr : r.Consistent) (hlt : r.used < N)
    (hnext : r.lastTag + 1 < u32Size) {e : Entry E} (htag : e.tag = ⟨r.lastTag + 1,r.used⟩)
    (he : e.Recorded) :
    ({ entries := Function.update r.entries ⟨r.used,hlt⟩ e
       used := r.used + 1
       used_le := hlt
       lastTag := r.lastTag + 1
       counters := r.counters } : Recorder N E).Consistent := by
  have hnew : ∀ i : Fin N, i.val < r.used + 1 →
      i = ⟨r.used,hlt⟩ ∨ (i ≠ ⟨r.used,hlt⟩ ∧ i.val < r.used) := by
    intro i hi
    rcases Nat.lt_succ_iff_lt_or_eq.mp hi with h | h
    · refine .inr ⟨?_,h⟩
      rintro rfl
      exact h.ne rfl
    · exact .inl (Fin.ext h)
  refine ⟨?_,?_,?_,hnext,?_⟩
  · intro i hi
    rcases hnew i hi with rfl | ⟨hne,hold⟩
    · simp only [Function.update_self,htag]
    · simp only [Function.update_of_ne hne]
      exact hr.slot_eq i hold
  · intro i j hij hj
    have hval : i.val < j.val := hij
    have hiold : i.val < r.used := hval.trans_le (Nat.le_of_lt_succ hj)
    have hine : i ≠ ⟨r.used,hlt⟩ := by
      rintro rfl
      exact hiold.ne rfl
    rcases hnew j hj with rfl | ⟨hne,hold⟩
    · simp only [Function.update_self,Function.update_of_ne hine,htag]
      exact Nat.lt_succ_of_le (hr.ordinal_le i hiold)
    · simp only [Function.update_of_ne hne,Function.update_of_ne hine]
      exact hr.ordinal_lt i j hij hold
  · intro i hi
    rcases hnew i hi with rfl | ⟨hne,hold⟩
    · simp only [Function.update_self,htag]
      exact le_rfl
    · simp only [Function.update_of_ne hne]
      exact Nat.le_succ_of_le (hr.ordinal_le i hold)
  · intro i hi
    rcases hnew i hi with rfl | ⟨hne,hold⟩
    · simp only [Function.update_self]
      exact he
    · simp only [Function.update_of_ne hne]
      exact hr.recorded i hold

/-- Another state of an entry, with the same tag. -/
theorem Consistent.advance (hr : r.Consistent) {i : Fin N} {e : Entry E}
    (htag : e.tag = (r.entries i).tag) (he : e.Recorded) :
    ({ r with entries := Function.update r.entries i e } : Recorder N E).Consistent := by
  have htags : ∀ j, (Function.update r.entries i e j).tag = (r.entries j).tag := by
    intro j
    by_cases hj : j = i
    · rw [hj,Function.update_self,htag]
    · rw [Function.update_of_ne hj]
  refine ⟨?_,?_,?_,hr.lastTag_lt,?_⟩
  · intro j hj
    exact (congrArg Tag.slot (htags j)).trans (hr.slot_eq j hj)
  · intro j k hjk hk
    dsimp only
    rw [htags,htags]
    exact hr.ordinal_lt j k hjk hk
  · intro j hj
    dsimp only
    rw [htags]
    exact hr.ordinal_le j hj
  · intro j hj
    dsimp only
    by_cases hji : j = i
    · rw [hji,Function.update_self]
      exact he
    · rw [Function.update_of_ne hji]
      exact hr.recorded j hj

theorem consistent_change (hr : r.Consistent) (hc : r.Change event r') : r'.Consistent := by
  cases hc with
  | appended cycle sequence time hlt hevent hdue hr' =>
    subst hevent hr'
    obtain ⟨hvalid,-,hnext⟩ := hdue
    exact hr.append hlt hnext rfl (recorded_submitted _ time hvalid)
  | advanced i e hi htag hfollows hdue hr' =>
    have he := (hr.recorded i hi).follows hfollows
    rw [hr']
    exact hr.advance hfollows.tag_eq he
  | counted limitation hdue hr' =>
    rw [hr']
    exact hr.of_counters _

theorem Kept.refl (r : Recorder N E) : r.Kept r := ⟨le_rfl,fun _ _ => .refl _⟩

theorem Kept.trans {r'' : Recorder N E} (h : r.Kept r') (h' : r'.Kept r'') : r.Kept r'' := by
  refine ⟨h.used_le_used.trans h'.used_le_used,?_⟩
  intro i hi
  have hi' : i.val < r'.used := hi.trans_le h.used_le_used
  exact (h.extends_entry i hi).trans (h'.extends_entry i hi')

theorem kept_change (hr : r.Consistent) (hc : r.Change event r') : r.Kept r' := by
  cases hc with
  | appended cycle sequence time hlt hevent hdue hr' =>
    subst hr'
    refine ⟨Nat.le_succ _,?_⟩
    intro i hi
    have hne : i ≠ ⟨r.used,hlt⟩ := by
      rintro rfl
      exact hi.ne rfl
    simp only [Function.update_of_ne hne]
    exact .refl _
  | advanced i e hi htag hfollows hdue hr' =>
    subst hr'
    refine ⟨le_rfl,?_⟩
    intro j hj
    by_cases hji : j = i
    · subst hji
      simp only [Function.update_self]
      exact hfollows.extends (hr.recorded j hj)
    · simp only [Function.update_of_ne hji]
      exact .refl _
  | counted limitation hdue hr' =>
    subst hr'
    exact ⟨le_rfl,fun _ _ => .refl _⟩

theorem consistent_after (events : List (Event E)) :
    (after events : Recorder N E).Consistent := by
  apply (Runs.of_foldl record new events).invariant (I := Consistent) ?_ consistent_new
  rintro r event _ hr rfl
  exact consistent_change hr (record_change hr event)

theorem kept_foldl (hr : r.Consistent) (events : List (Event E)) :
    r.Kept (events.foldl record r) := by
  induction events generalizing r with
  | nil => exact .refl r
  | cons event events ih =>
    have hchange := record_change hr event
    have hkept := kept_change hr hchange
    exact hkept.trans (ih (consistent_change hr hchange))

theorem Consistent.lawful (hr : r.Consistent) : r.Lawful := by
  refine ⟨used_le _,hr.tag_injective,hr,?_,?_⟩
  · intro event
    exact record_change hr event
  · intro later
    exact kept_foldl hr later

/-- After every history the entries in use are in order, and no event takes them back. -/
theorem recorder_lawful (events : List (Event E)) : (after events : Recorder N E).Lawful := by
  have hr := consistent_after (N := N) events
  exact hr.lawful

/-- One phase goes back in time and another is reported twice. -/
example : (after [.accept 1 8 10,.queued ⟨1,0⟩ 11,.picked ⟨1,0⟩ 10,.picked ⟨1,0⟩ 12,
    .picked ⟨1,0⟩ 13] : Recorder 3 Unit).counters.invalidEvents = 2 := by decide

end Recorder
end FerrisOnAir.Tx.Probe

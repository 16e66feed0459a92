import Mathlib

/-! # Hardware key slots

`foa/src/lmac/crypto.rs`. Bit `i` of the state says that slot `i` is free. A `KeySlot`
releases its slot when it is dropped.
-/
namespace FerrisOnAir.Lmac

structure KeySlotManager where
  keySlotState : ℕ → Bool

namespace KeySlotManager
variable (m : KeySlotManager)

def new : KeySlotManager := ⟨fun _ => true⟩

/-- `acquire_key_slot` takes the lowest free slot. -/
def acquireKeySlot (keySlotCount : ℕ) : Option (ℕ × KeySlotManager) :=
  match (List.range keySlotCount).find? m.keySlotState with
  | none => none
  | some i => some (i,⟨Function.update m.keySlotState i false⟩)

def releaseKeySlot (i : ℕ) : KeySlotManager := ⟨Function.update m.keySlotState i true⟩

/-- Drops several `KeySlot`s. -/
def releaseAll (slots : List ℕ) : KeySlotManager := slots.foldl releaseKeySlot m

/-- The live `KeySlot`s of several acquisitions in a row. -/
structure Acquired (k : ℕ) where
  slots : List ℕ
  manager : KeySlotManager
  nodup : slots.Nodup
  length_eq : slots.length = k
  busy : ∀ i ∈ slots, manager.keySlotState i = false

variable {m}

theorem acquireKeySlot_some {count i : ℕ} {m' : KeySlotManager}
    (h : m.acquireKeySlot count = some (i,m')) :
    m.keySlotState i = true ∧ m' = ⟨Function.update m.keySlotState i false⟩ := by
  unfold acquireKeySlot at h
  split at h
  · cases h
  · rename_i hfind
    cases h
    exact ⟨List.find?_some hfind,rfl⟩

theorem acquireKeySlot_eq_some_iff {count i : ℕ} {m' : KeySlotManager} :
    m.acquireKeySlot count = some (i,m') ↔ i < count ∧ m.keySlotState i = true ∧
      (∀ j < i, m.keySlotState j = false) ∧ m' = ⟨Function.update m.keySlotState i false⟩ := by
  unfold acquireKeySlot
  constructor
  · intro h
    split at h
    · cases h
    · rename_i hfind
      cases h
      obtain ⟨hfree,hmem,hlow⟩ := List.find?_range_eq_some.mp hfind
      refine ⟨List.mem_range.mp hmem,hfree,?_,rfl⟩
      intro j hj
      exact Bool.not_eq_true' _ ▸ hlow j hj
  · rintro ⟨hlt,hfree,hlow,rfl⟩
    have hfind : (List.range count).find? m.keySlotState = some i := by
      refine List.find?_range_eq_some.mpr ⟨hfree,List.mem_range.mpr hlt,?_⟩
      intro j hj
      rw [hlow j hj]
      rfl
    rw [hfind]

theorem acquireKeySlot_eq_none_iff {count : ℕ} :
    m.acquireKeySlot count = none ↔ ∀ i < count, m.keySlotState i = false := by
  unfold acquireKeySlot
  split
  · rename_i hfind
    simpa [List.find?_range_eq_none] using hfind
  · rename_i i hfind
    obtain ⟨hfree,hmem,_⟩ := List.find?_range_eq_some.mp hfind
    refine iff_of_false nofun ?_
    intro hbusy
    rw [hbusy i (List.mem_range.mp hmem)] at hfree
    cases hfree

namespace Acquired
variable {k : ℕ} (a : Acquired k)

def push (i : ℕ) (hi : a.manager.keySlotState i = true) : Acquired (k + 1) where
  slots := a.slots ++ [i]
  manager := ⟨Function.update a.manager.keySlotState i false⟩
  nodup := by
    rw [List.nodup_append]
    refine ⟨a.nodup,List.nodup_singleton i,?_⟩
    rintro j hj i' hi' rfl
    rw [List.mem_singleton] at hi'
    subst hi'
    rw [a.busy j hj] at hi
    cases hi
  length_eq := by rw [List.length_append,a.length_eq,List.length_singleton]
  busy := by
    intro j hj
    by_cases hji : j = i
    · simp [hji]
    · have hmem : j ∈ a.slots := by simpa [hji] using hj
      simp [hji,a.busy j hmem]

def acquire (count : ℕ) : Option (Acquired (k + 1)) :=
  match h : a.manager.acquireKeySlot count with
  | none => none
  | some (i,_) => some (a.push i (acquireKeySlot_some h).1)

end Acquired

/-- `k` acquisitions in a row. If one fails, those before it are dropped again. -/
def acquireKeySlots (m : KeySlotManager) (count : ℕ) : (k : ℕ) → Option (Acquired k)
  | 0 => some ⟨[],m,List.nodup_nil,rfl,nofun⟩
  | k + 1 => (acquireKeySlots m count k).bind (fun a => a.acquire count)

/-- The `KeySlot`s of `k` acquisitions in a row, whichever of them succeed. -/
def acquireEach (m : KeySlotManager) (count : ℕ) : ℕ → List ℕ × KeySlotManager
  | 0 => ([],m)
  | k + 1 =>
    let r := m.acquireEach count k
    match r.2.acquireKeySlot count with
    | none => r
    | some (i,m') => (r.1 ++ [i],m')

theorem acquireEach_of_acquired {count k : ℕ} {a : Acquired k}
    (h : m.acquireKeySlots count k = some a) : m.acquireEach count k = (a.slots,a.manager) := by
  induction k with
  | zero =>
    cases h
    rfl
  | succ k ih =>
    obtain ⟨b,hb,hacq⟩ := Option.bind_eq_some_iff.mp h
    unfold Acquired.acquire at hacq
    split at hacq
    · cases hacq
    · rename_i j m' hj
      cases hacq
      have hm := (acquireKeySlot_some hj).2
      simp only [acquireEach,ih hb,hj,hm]
      rfl

theorem acquireKeySlots_busy {count k : ℕ} {a : Acquired k}
    (h : m.acquireKeySlots count k = some a) {i : ℕ} (hi : a.manager.keySlotState i = false) :
    i ∈ a.slots ∨ m.keySlotState i = false := by
  induction k with
  | zero =>
    cases h
    exact Or.inr hi
  | succ k ih =>
    obtain ⟨b,hb,hacq⟩ := Option.bind_eq_some_iff.mp h
    unfold Acquired.acquire at hacq
    split at hacq
    · cases hacq
    · rename_i j _ _
      cases hacq
      by_cases hij : i = j
      · exact Or.inl (by simp [Acquired.push,hij])
      · change Function.update b.manager.keySlotState j false i = false at hi
        rw [Function.update_of_ne hij] at hi
        exact (ih hb hi).imp (List.mem_append_left _) id

theorem releaseAll_busy {slots : List ℕ} {i : ℕ} :
    (m.releaseAll slots).keySlotState i = false ↔ m.keySlotState i = false ∧ i ∉ slots := by
  induction slots generalizing m with
  | nil => simp [releaseAll]
  | cons j slots ih =>
    have h := ih (m := m.releaseKeySlot j)
    unfold releaseAll at h ⊢
    rw [List.foldl_cons,h]
    by_cases hij : i = j
    · simp [releaseKeySlot,hij]
    · simp [releaseKeySlot,hij,Function.update_of_ne]

/-- Managers with the same busy slots are equal. -/
theorem eq_of_busy {m' : KeySlotManager}
    (h : ∀ i, m.keySlotState i = false ↔ m'.keySlotState i = false) : m = m' := by
  obtain ⟨f⟩ := m
  obtain ⟨f'⟩ := m'
  congr
  funext i
  exact Bool.eq_iff_iff.mpr (not_iff_not.mp (by simpa using h i))

theorem releaseKeySlot_busy {i j : ℕ} :
    (m.releaseKeySlot j).keySlotState i = false ↔ m.keySlotState i = false ∧ i ≠ j := by
  by_cases hij : i = j
  · simp [releaseKeySlot,hij]
  · simp [releaseKeySlot,hij,Function.update_of_ne]

/-- The order in which slots are released does not matter. -/
theorem releaseKeySlot_releaseAll (j : ℕ) (slots : List ℕ) :
    (m.releaseAll slots).releaseKeySlot j = m.releaseAll (j :: slots) := by
  apply eq_of_busy
  intro i
  rw [releaseKeySlot_busy,releaseAll_busy,releaseAll_busy,List.mem_cons,not_or,and_assoc]
  exact and_congr_right (fun _ => and_comm)

theorem acquireEach_busy {count k i : ℕ} :
    (m.acquireEach count k).2.keySlotState i = false ↔
      m.keySlotState i = false ∨ i ∈ (m.acquireEach count k).1 := by
  induction k with
  | zero => simp [acquireEach]
  | succ k ih =>
    unfold acquireEach
    dsimp only
    split
    · exact ih
    · rename_i j m' hj
      obtain ⟨_,rfl⟩ := acquireKeySlot_some hj
      by_cases hij : i = j
      · simp [hij]
      · simp [hij,Function.update_of_ne,ih]

theorem acquireEach_free {count k i : ℕ} (hi : i ∈ (m.acquireEach count k).1) :
    m.keySlotState i = true := by
  induction k with
  | zero => cases hi
  | succ k ih =>
    unfold acquireEach at hi
    dsimp only at hi
    split at hi
    · exact ih hi
    · rename_i j m' hj
      rcases List.mem_append.mp hi with hi | hi
      · exact ih hi
      · obtain rfl := List.mem_singleton.mp hi
        have hfree := (acquireKeySlot_some hj).1
        by_contra hbusy
        rw [acquireEach_busy.mpr (Or.inl (Bool.eq_false_iff.mpr hbusy))] at hfree
        cases hfree

/-- Dropping what was acquired restores the manager. -/
theorem acquireEach_released (count k : ℕ) :
    (m.acquireEach count k).2.releaseAll (m.acquireEach count k).1 = m := by
  apply eq_of_busy
  intro i
  rw [releaseAll_busy,acquireEach_busy]
  constructor
  · rintro ⟨hbusy | hin,hout⟩
    · exact hbusy
    · exact absurd hin hout
  · intro hbusy
    refine ⟨Or.inl hbusy,?_⟩
    intro hin
    rw [acquireEach_free hin] at hbusy
    cases hbusy

end KeySlotManager
end FerrisOnAir.Lmac

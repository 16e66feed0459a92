import FerrisOnAir.Foundation.Runs

/-! # The first value for each key

An index map takes items one after the other and keeps for each key the first value that it was
given. Not every item has a value, and an item whose key is there already is passed over. What
is collected so can be told from the items: the map before them, and then the first value among
them.
-/
namespace FerrisOnAir
variable {K V B : Type*} {capacity : ℕ∞}

/-- A map in the order of insertion. A map without a limit has capacity `⊤`. -/
structure IndexMap (K V : Type*) (capacity : ℕ∞) where
  entries : List (K × V)
  nodup : (entries.map Prod.fst).Nodup
  bounded : entries.length ≤ capacity

namespace IndexMap

def isFull (m : IndexMap K V capacity) : Bool := (m.entries.length : ℕ∞) == capacity

theorem isFull_eq_false_iff {m : IndexMap K V capacity} :
    m.isFull = false ↔ (m.entries.length : ℕ∞) < capacity := by
  rw [isFull,beq_eq_false_iff_ne,m.bounded.lt_iff_ne]

/-- A map without a limit always has room. -/
theorem isFull_top (m : IndexMap K V ⊤) : m.isFull = false :=
  isFull_eq_false_iff.mpr (ENat.natCast_lt_top _)

variable [DecidableEq K] (m : IndexMap K V capacity) (k : K) (v : V)

def get : Option V := m.entries.lookup k

def containsKey : Bool := (m.get k).isSome

variable {m k v} {m₀ : IndexMap K V capacity} {key : B → K} {value : B → Option V} {items : List B}
  {b : B}

theorem containsKey_iff : m.containsKey k = true ↔ k ∈ m.entries.map Prod.fst := by
  rw [containsKey,get,List.lookup_isSome_iff]
  simp

/-- A new key at the end. -/
def push (hnew : m.containsKey k = false) (hroom : m.isFull = false) (v : V) :
    IndexMap K V capacity where
  entries := m.entries ++ [(k,v)]
  nodup := by
    rw [List.map_append,List.map_cons,List.map_nil]
    refine List.nodup_append.mpr ⟨m.nodup,List.nodup_singleton k,?_⟩
    intro a ha b hb heq
    rw [heq,List.mem_singleton.mp hb,← containsKey_iff,hnew] at ha
    cases ha
  bounded := by
    rw [List.length_append,List.length_singleton,Nat.cast_add,Nat.cast_one]
    exact Order.add_one_le_of_lt (isFull_eq_false_iff.mp hroom)

/-- `insert` of a key that is new. A full map takes none. -/
def insertNew (m : IndexMap K V capacity) (k : K) (v : V) : IndexMap K V capacity :=
  if h : m.containsKey k = false ∧ m.isFull = false then m.push h.1 h.2 v else m

theorem insertNew_entries (hnew : m.containsKey k = false) (hroom : m.isFull = false) :
    (m.insertNew k v).entries = m.entries ++ [(k,v)] := by
  rw [insertNew,dif_pos ⟨hnew,hroom⟩]
  rfl

theorem get_insertNew (hnew : m.containsKey k = false) (hroom : m.isFull = false) (a : K) :
    (m.insertNew k v).get a = (m.get a).or (if k = a then some v else none) := by
  rw [get,insertNew_entries hnew hroom,List.lookup_append,List.lookup_cons,List.lookup_nil]
  by_cases hk : k = a
  · simp [get,hk]
  · simp [get,hk,beq_false_of_ne (Ne.symm hk)]

/-- What a map has become that started as `m₀` and took the items. -/
structure Collected (key : B → K) (value : B → Option V) (m₀ m : IndexMap K V capacity)
    (items : List B) : Prop where
  kept : m₀.entries <+: m.entries
  get : ∀ k, m.get k =
    (m₀.get k).or (items.findSome? (fun b => if key b = k then value b else none))

namespace Collected

theorem refl (m : IndexMap K V capacity) : Collected key value m m [] where
  kept := List.prefix_refl _
  get _ := Option.or_none.symm

/-- An item whose key is there, or that has no value, is passed over. -/
theorem skip (h : Collected key value m₀ m items)
    (hb : m.containsKey (key b) = true ∨ value b = none) :
    Collected key value m₀ m (items ++ [b]) where
  kept := h.kept
  get k := by
    rw [List.findSome?_append,← Option.or_assoc,← h.get k]
    rcases hb with hb | hb
    · by_cases hk : key b = k
      · rw [hk] at hb
        exact (Option.or_of_isSome hb).symm
      · simp [hk]
    · simp [hb]

theorem insertNew (h : Collected key value m₀ m items) (hnew : m.containsKey (key b) = false)
    (hroom : m.isFull = false) (hv : value b = some v) :
    Collected key value m₀ (m.insertNew (key b) v) (items ++ [b]) where
  kept := by
    rw [insertNew_entries hnew hroom]
    exact h.kept.trans (List.prefix_append _ _)
  get k := by
    rw [get_insertNew hnew hroom,List.findSome?_append,← Option.or_assoc,← h.get k,
      List.findSome?_singleton,hv]

/-- A key is found if it was there or some item has a value for it. -/
theorem containsKey_iff (h : Collected key value m₀ m items) : m.containsKey k = true ↔
    m₀.containsKey k = true ∨ ∃ b ∈ items, key b = k ∧ (value b).isSome := by
  rw [IndexMap.containsKey,h.get k,Option.isSome_or,Bool.or_eq_true,List.findSome?_isSome_iff]
  refine or_congr_right (exists_congr fun b => and_congr_right fun _ => ?_)
  by_cases hk : key b = k
  · simp [hk]
  · simp [hk]

end Collected
end IndexMap

end FerrisOnAir

import FerrisOnAir.Foundation.Slices

/-! # Parts of an input

A slice of a slice is a part of the same input. `get` compares a range with the length of
the part it is called on only, while an access is to the input itself and panics outside of it.
-/
namespace FerrisOnAir.Slices
variable {κ α β : Type}

/-- The elements from one place of a list to another. -/
def slice (xs : List α) (start stop : ℕ) : List α := (xs.drop start).take (stop - start)

section Slice
variable {xs ys : List α} {a b : ℕ}

theorem length_slice (h : b ≤ xs.length) : (slice xs a b).length = b - a := by
  rw [slice,List.length_take,List.length_drop]
  omega

theorem slice_append_drop (h : a ≤ b) : slice xs a b ++ xs.drop b = xs.drop a := by
  have hdrop : xs.drop b = (xs.drop a).drop (b - a) := by rw [List.drop_drop,Nat.add_sub_of_le h]
  rw [slice,hdrop,List.take_append_drop]

theorem getElem?_slice (i : ℕ) :
    (slice xs a b)[i]? = if i < b - a then xs[a + i]? else none := by
  rw [slice,List.getElem?_take,List.getElem?_drop]

theorem slice_succ (h : a < xs.length) : slice xs a (a + 1) = [xs[a]] := by
  rw [slice,List.drop_eq_getElem_cons h,Nat.add_sub_cancel_left]
  rfl

/-- Lists that agree on the places have the same elements there. -/
theorem slice_congr (h : ∀ i, a ≤ i → i < b → xs[i]? = ys[i]?) : slice xs a b = slice ys a b := by
  apply List.ext_getElem?
  intro i
  rw [getElem?_slice,getElem?_slice]
  by_cases hi : i < b - a
  · rw [if_pos hi,if_pos hi]
    exact h _ (Nat.le_add_right a i) (by omega)
  · rw [if_neg hi,if_neg hi]

theorem slice_take {n : ℕ} (h : b ≤ n) : slice (xs.take n) a b = slice xs a b := by
  apply slice_congr
  intro i _ hi
  exact List.getElem?_take_of_lt (hi.trans_le h)

/-- What stands in a list between the segments before it and the segments behind. -/
theorem slice_flatten {segments : List (List α)} {i : ℕ} (h : i < segments.length)
    (ha : a = ((segments.map List.length).take i).sum) (hb : b = a + segments[i].length) :
    slice segments.flatten a b = segments[i] := by
  have hsplit : segments = segments.take i ++ segments[i] :: segments.drop (i + 1) := by
    rw [← List.drop_eq_getElem_cons h,List.take_append_drop]
  have hlen : (segments.take i).flatten.length = a := by
    rw [List.length_flatten,List.map_take,ha]
  have hflatten : segments.flatten =
      (segments.take i).flatten ++ (segments[i] ++ (segments.drop (i + 1)).flatten) := by
    conv_lhs => rw [hsplit]
    rw [List.flatten_append,List.flatten_cons]
  rw [slice,hflatten,List.drop_left' hlen,hb,Nat.add_sub_cancel_left,List.take_left' rfl]

end Slice

/-- The places that a slice covers in the input. -/
structure Part where
  start : ℕ
  stop : ℕ

namespace Part
variable (part : Part) (xs : List α)

def all : Part := ⟨0,xs.length⟩

def length : ℕ := part.stop - part.start

/-- `get(a..b)`. -/
def get (a b : ℕ) : Option Part :=
  if a ≤ b ∧ b ≤ part.length then some ⟨part.start + a,part.start + b⟩ else none

/-- `get(a..)`. -/
def getFrom (a : ℕ) : Option Part := part.get a part.length

/-- The elements of `get(a..b)?`. -/
def fetch (a b : ℕ) : Run κ (List α) := do
  let p ← Run.ofOption (part.get a b)
  Run.range xs p.start p.stop

/-- `*get(i)?`. -/
def fetchAt (i : ℕ) : Run κ α := do
  let p ← Run.ofOption (part.get i (i + 1))
  Run.index xs p.start

/-- The part lies in the input. -/
structure In (part : Part) (xs : List α) : Prop where
  start_le : part.start ≤ part.stop
  stop_le : part.stop ≤ xs.length

variable {part xs} {P : κ → Prop} {r : Option β} {a b i : ℕ}

theorem all_in (xs : List α) : (all xs).In xs := ⟨Nat.zero_le _,le_rfl⟩

theorem get_eq_some (hab : a ≤ b) (hb : b ≤ part.length) :
    part.get a b = some ⟨part.start + a,part.start + b⟩ := if_pos ⟨hab,hb⟩

theorem get_eq_none (h : part.length < b) : part.get a b = none :=
  if_neg fun hle => (h.trans_le hle.2).false

theorem getFrom_eq_some (hpart : part.In xs) (ha : a ≤ part.length) :
    part.getFrom a = some ⟨part.start + a,part.stop⟩ := by
  have hle := hpart.start_le
  unfold getFrom
  rw [get_eq_some ha le_rfl,length,Nat.add_sub_of_le hle]

theorem get_in (hpart : part.In xs) (hab : a ≤ b) (hb : b ≤ part.length) :
    (⟨part.start + a,part.start + b⟩ : Part).In xs := by
  have hle := hpart.start_le
  have hstop := hpart.stop_le
  unfold length at hb
  constructor <;> dsimp only <;> omega

theorem fetch_ends {f : List α → Run κ β} (hpart : part.In xs) (hab : a ≤ b)
    (hb : b ≤ part.length) (hf : (f (slice xs (part.start + a) (part.start + b))).Ends P r) :
    (part.fetch xs a b >>= f).Ends P r := by
  have hin := get_in hpart hab hb
  have hfetch : (part.fetch xs a b : Run κ (List α)).Ends P
      (some (slice xs (part.start + a) (part.start + b))) := by
    unfold fetch
    rw [get_eq_some hab hb]
    refine .bind .ofOption ?_
    rw [Run.range,if_pos ⟨hin.start_le,hin.stop_le⟩]
    exact .pure _
  exact .bind hfetch hf

/-- Where the rest gives up, it does not matter whether there is such a part. -/
theorem fetch_none {f : List α → Run κ β} (hpart : part.In xs) (hab : a ≤ b)
    (hf : b ≤ part.length →
      (f (slice xs (part.start + a) (part.start + b))).Ends P none) :
    (part.fetch xs a b >>= f).Ends P none := by
  by_cases hb : b ≤ part.length
  · exact fetch_ends hpart hab hb (hf hb)
  · have hfetch : (part.fetch xs a b : Run κ (List α)).Ends P none := by
      unfold fetch
      rw [get_eq_none (not_le.mp hb)]
      exact .bind_none .ofOption
    exact .bind_none hfetch

theorem fetchAt_ends {f : α → Run κ β} (hpart : part.In xs) (hi : i < part.length)
    (hf : ∀ x, slice xs (part.start + i) (part.start + i + 1) = [x] → (f x).Ends P r) :
    (part.fetchAt xs i >>= f).Ends P r := by
  have hlt : part.start + i < xs.length :=
    Nat.lt_of_succ_le (get_in hpart (Nat.le_succ i) hi).stop_le
  have hfetch : (part.fetchAt xs i : Run κ α).Ends P (some xs[part.start + i]) := by
    unfold fetchAt
    rw [get_eq_some (Nat.le_succ i) hi]
    refine .bind .ofOption ?_
    rw [Run.index,dif_pos hlt]
    exact .pure _
  exact .bind hfetch (hf _ (slice_succ hlt))

theorem fetchAt_none {f : α → Run κ β} (hpart : part.In xs)
    (hf : i < part.length →
      ∀ x, slice xs (part.start + i) (part.start + i + 1) = [x] → (f x).Ends P none) :
    (part.fetchAt xs i >>= f).Ends P none := by
  by_cases hi : i < part.length
  · exact fetchAt_ends hpart hi (hf hi)
  · have hfetch : (part.fetchAt xs i : Run κ α).Ends P none := by
      unfold fetchAt
      rw [get_eq_none (Nat.lt_succ_of_le (not_lt.mp hi))]
      exact .bind_none .ofOption
    exact .bind_none hfetch

end Part
end FerrisOnAir.Slices

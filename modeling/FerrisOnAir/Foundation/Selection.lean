import Mathlib

/-! # Selection in one pass

A loop walks a list and keeps the best element so far, where `r a b` says that `b` beats
`a`. The comparison need not be an order, so nothing about the result is clear beyond its
membership; what the order of the list cannot spoil is an element that nobody beats and
that beats everybody else but its equals.
-/
namespace FerrisOnAir.Selection
variable {α β : Type*} {r : α → α → Bool} {a x y : α} {xs T : List α}

def select (r : α → α → Bool) (a : α) (xs : List α) : α :=
  xs.foldl (fun best x => if r best x then x else best) a

/-- No element of a list beats this one. -/
def Unbeaten (r : α → α → Bool) (T : List α) (a : α) : Prop := ∀ x ∈ T, r a x = false

/-- A strict weak order on the elements of a list. -/
structure StrictWeakOrderOn (r : α → α → Bool) (T : List α) : Prop where
  irrefl : ∀ a ∈ T, r a a = false
  asymm : ∀ a ∈ T, ∀ b ∈ T, r a b = true → r b a = false
  trans : ∀ a ∈ T, ∀ b ∈ T, ∀ c ∈ T, r a b = true → r b c = true → r a c = true
  incomparable_trans : ∀ a ∈ T, ∀ b ∈ T, ∀ c ∈ T, r a b = false → r b a = false →
    r b c = false → r c b = false → r a c = false ∧ r c a = false

theorem select_concat : select r a (xs ++ [x]) =
    if r (select r a xs) x then x else select r a xs := by
  rw [select,List.foldl_append]
  rfl

theorem select_mem : select r a xs ∈ a :: xs := by
  induction xs generalizing a with
  | nil => exact List.mem_singleton.mpr rfl
  | cons x xs ih =>
    have h := ih (a := if r a x then x else a)
    rcases List.mem_cons.mp h with h | h
    · change select r (if r a x then x else a) xs ∈ a :: x :: xs
      rw [h]
      split
      · exact List.mem_cons_of_mem _ List.mem_cons_self
      · exact List.mem_cons_self
    · exact List.mem_cons_of_mem _ (List.mem_cons_of_mem _ h)

/-- A property of the first element that passes from the best element to one that beats it. -/
theorem select_induction {p : α → Prop} (ha : p a)
    (h : ∀ b, ∀ x ∈ xs, p b → r b x = true → p x) : p (select r a xs) := by
  induction xs generalizing a with
  | nil => exact ha
  | cons x xs ih =>
    change p (select r (if r a x then x else a) xs)
    refine ih ?_ (fun b z hz => h b z (List.mem_cons_of_mem _ hz))
    split
    · rename_i hax
      exact h a x List.mem_cons_self ha hax
    · exact ha

/-- The comparison sees an element only through a map. -/
theorem map_select {f : α → β} {r' : β → β → Bool} (h : ∀ a b, r a b = r' (f a) (f b)) (a : α)
    (xs : List α) : f (select r a xs) = select r' (f a) (xs.map f) := by
  induction xs generalizing a with
  | nil => rfl
  | cons x xs ih =>
    change f (select r (if r a x then x else a) xs) =
      select r' (if r' (f a) (f x) then f x else f a) (xs.map f)
    rw [ih,h a x,apply_ite f]

/-- A pass that starts with an unbeaten element ends with it. -/
theorem select_eq_of_unbeaten (ha : Unbeaten r T a) (hxs : ∀ x ∈ xs, x ∈ T) :
    select r a xs = a := by
  induction xs with
  | nil => rfl
  | cons x xs ih =>
    change select r (if r a x then x else a) xs = a
    rw [ha x (hxs x List.mem_cons_self),if_neg Bool.false_ne_true]
    exact ih (fun z hz => hxs z (List.mem_cons_of_mem _ hz))

/-- Once the pass has met `y` its best element is unbeaten, if `y` is and beats every
element that is not. -/
theorem unbeaten_select (hy : Unbeaten r T y)
    (hbeats : ∀ b ∈ T, r b y = true ∨ Unbeaten r T b) (ha : a ∈ T) (hxs : ∀ x ∈ xs, x ∈ T)
    (h : Unbeaten r T a ∨ y ∈ xs) : Unbeaten r T (select r a xs) := by
  induction xs generalizing a with
  | nil =>
    rcases h with h | h
    · exact h
    · cases h
  | cons x xs ih =>
    have hx : x ∈ T := hxs x List.mem_cons_self
    have hrest : ∀ z ∈ xs, z ∈ T := fun z hz => hxs z (List.mem_cons_of_mem _ hz)
    change Unbeaten r T (select r (if r a x then x else a) xs)
    cases hax : r a x with
    | true =>
      rw [if_pos rfl]
      rcases h with h | h
      · rw [h x hx] at hax
        cases hax
      · rcases List.mem_cons.mp h with rfl | h
        · exact ih hx hrest (Or.inl hy)
        · exact ih hx hrest (Or.inr h)
    | false =>
      rw [if_neg Bool.false_ne_true]
      rcases h with h | h
      · exact ih ha hrest (Or.inl h)
      · rcases List.mem_cons.mp h with rfl | h
        · rcases hbeats a ha with hay | hu
          · rw [hay] at hax
            cases hax
          · exact ih ha hrest (Or.inl hu)
        · exact ih ha hrest (Or.inr h)

/-- The pass over a whole list of candidates ends with an unbeaten one, if there is an
unbeaten candidate that beats every candidate that is not. -/
theorem unbeaten_select_of_mem (hmem : y ∈ a :: xs) (hy : Unbeaten r (a :: xs) y)
    (hbeats : ∀ b ∈ a :: xs, r b y = true ∨ Unbeaten r (a :: xs) b) :
    Unbeaten r (a :: xs) (select r a xs) := by
  refine unbeaten_select hy hbeats List.mem_cons_self (fun x hx => List.mem_cons_of_mem _ hx) ?_
  rcases List.mem_cons.mp hmem with rfl | h
  · exact Or.inl hy
  · exact Or.inr h

/-- A candidate that beats all others and is not beaten is selected, wherever it stands. -/
theorem select_eq_of_beats (hmem : y ∈ a :: xs) (hy : Unbeaten r (a :: xs) y)
    (hbeats : ∀ b ∈ a :: xs, b ≠ y → r b y = true) : select r a xs = y := by
  have hu := unbeaten_select_of_mem hmem hy (fun b hb => by
    by_cases hby : b = y
    · exact Or.inr (hby ▸ hy)
    · exact Or.inl (hbeats b hb hby))
  by_contra hne
  have hbeat := hbeats _ select_mem hne
  rw [hu y hmem] at hbeat
  cases hbeat

section Key
variable [LinearOrder β] {key : α → β} (hkey : ∀ a ∈ T, ∀ b ∈ T, (r a b = true ↔ key a < key b))
include hkey

theorem beats_eq_false_iff (ha : a ∈ T) (hx : x ∈ T) : r a x = false ↔ key x ≤ key a := by
  rw [← not_lt,← hkey a ha x hx,Bool.not_eq_true]

/-- A comparison of keys is a strict weak order. -/
theorem strictWeakOrderOn_of_key : StrictWeakOrderOn r T where
  irrefl a ha := (beats_eq_false_iff hkey ha ha).mpr le_rfl
  asymm a ha b hb h := (beats_eq_false_iff hkey hb ha).mpr ((hkey a ha b hb).mp h).le
  trans a ha b hb c hc hab hbc :=
    (hkey a ha c hc).mpr (((hkey a ha b hb).mp hab).trans ((hkey b hb c hc).mp hbc))
  incomparable_trans a ha b hb c hc hab hba hbc hcb := by
    have hba' := (beats_eq_false_iff hkey ha hb).mp hab
    have hab' := (beats_eq_false_iff hkey hb ha).mp hba
    have hcb' := (beats_eq_false_iff hkey hb hc).mp hbc
    have hbc' := (beats_eq_false_iff hkey hc hb).mp hcb
    exact ⟨(beats_eq_false_iff hkey ha hc).mpr (hcb'.trans hba'),
      (beats_eq_false_iff hkey hc ha).mpr (hab'.trans hbc')⟩

end Key

/-- Under a comparison of keys the pass ends with an unbeaten candidate. -/
theorem unbeaten_select_of_key [LinearOrder β] {key : α → β}
    (hkey : ∀ b ∈ a :: xs, ∀ c ∈ a :: xs, (r b c = true ↔ key b < key c)) :
    Unbeaten r (a :: xs) (select r a xs) := by
  obtain ⟨y,hy,hmax⟩ := Set.exists_max_image {x | x ∈ a :: xs} key (List.finite_toSet _)
    ⟨a,List.mem_cons_self⟩
  have hunbeaten : Unbeaten r (a :: xs) y := fun x hx =>
    (beats_eq_false_iff hkey hy hx).mpr (hmax x hx)
  refine unbeaten_select_of_mem hy hunbeaten (fun b hb => ?_)
  cases hby : r b y with
  | true => exact Or.inl rfl
  | false =>
    have hle := (beats_eq_false_iff hkey hb hy).mp hby
    exact Or.inr (fun x hx => (beats_eq_false_iff hkey hb hx).mpr ((hmax x hx).trans hle))

end FerrisOnAir.Selection

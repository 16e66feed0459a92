import Mathlib

/-! # Scopes that are left

A scope owns guards in the order of their declaration. Leaving it drops them from the
last to the first, and each drop changes the shared state. What a guard stands for holds
after the scope is left, provided its drop establishes it and no other drop undoes it.
-/
namespace FerrisOnAir
variable {S G : Type*}

/-- The state after the guards of a scope are dropped. -/
def unwind (drop : S → G → S) (s : S) (guards : List G) : S :=
  guards.foldr (fun g s => drop s g) s

variable {drop : S → G → S} {s : S} {guards : List G}

@[simp] theorem unwind_nil : unwind drop s [] = s := rfl
@[simp] theorem unwind_cons (g : G) : unwind drop s (g :: guards) = drop (unwind drop s guards) g :=
  rfl

/-- Inner scopes are left first. -/
theorem unwind_append (inner : List G) :
    unwind drop s (guards ++ inner) = unwind drop (unwind drop s inner) guards :=
  List.foldr_append

/-- An invariant of the guards that are still alive holds of none in the end. -/
theorem unwind_invariant {I : List G → S → Prop}
    (hdrop : ∀ gs g s, I (gs ++ [g]) s → I gs (drop s g)) (h : I guards s) :
    I [] (unwind drop s guards) := by
  induction guards using List.reverseRecOn generalizing s with
  | nil => exact h
  | append_singleton gs g ih =>
    rw [unwind_append]
    exact ih (hdrop gs g s h)

/-- What no drop undoes still holds. -/
theorem unwind_keeps {P : S → Prop} (hkeep : ∀ s g, P s → P (drop s g)) (h : P s) :
    P (unwind drop s guards) :=
  unwind_invariant (I := fun _ => P) (fun _ g s => hkeep s g) h

/-- What the drop of a guard establishes. -/
theorem unwind_establishes {Q : G → S → Prop} (hdrop : ∀ s g, Q g (drop s g))
    (hkeep : ∀ s g h, Q g s → Q g (drop s h)) {g : G} (hg : g ∈ guards) :
    Q g (unwind drop s guards) := by
  induction guards with
  | nil => cases hg
  | cons h guards ih =>
    rw [unwind_cons]
    rcases List.mem_cons.mp hg with rfl | hg
    · exact hdrop _ g
    · exact hkeep _ g h (ih hg)

end FerrisOnAir

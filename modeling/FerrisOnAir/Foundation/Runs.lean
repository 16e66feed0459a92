import Mathlib

/-! # Finite runs of labelled transition relations

A component is a relation saying to which state an operation may lead. A run
fixes the sequence of operations, so an interleaving of several parties is just
a label list. Guards on single steps and predicates on every visited state are
again transition relations, which keeps one induction principle for all runs.
-/
namespace FerrisOnAir
variable {S L : Type*}

/-- A finite execution, one label per step. -/
inductive Runs (step : S → L → S → Prop) : S → List L → S → Prop
  | refl (s : S) : Runs step s [] s
  | step {s t u : S} {l : L} {ls : List L} :
      step s l t → Runs step t ls u → Runs step s (l :: ls) u

/-- Steps whose source state and label satisfy a guard. -/
def Guarded (ok : S → L → Prop) (step : S → L → S → Prop) : S → L → S → Prop :=
  fun s l t => ok s l ∧ step s l t

/-- Steps that neither start nor end outside a set of states. -/
def Within (P : S → Prop) (step : S → L → S → Prop) : S → L → S → Prop :=
  fun s l t => P s ∧ step s l t ∧ P t

theorem ok_of_toOption {ε α : Type*} {x : Except ε α} {a : α} (h : x.toOption = some a) :
    x = .ok a := by
  cases x with
  | error e => cases h
  | ok b => exact congrArg Except.ok (Option.some.inj h)

namespace Runs
variable {step : S → L → S → Prop} {s t : S} {ls : List L}

/-- What holds initially and is preserved by one step holds after every run. -/
theorem invariant {I : S → Prop} (hstep : ∀ s l t, I s → step s l t → I t)
    (hr : Runs step s ls t) (hs : I s) : I t := by
  induction hr with
  | refl => exact hs
  | step he _ ih => exact ih (hstep _ _ _ hs he)

/-- A relation between the ends of a step that is reflexive and transitive holds
between the ends of a run. -/
theorem related {R : S → S → Prop} (hrefl : ∀ s, R s s) (htrans : ∀ s t u, R s t → R t u → R s u)
    (hstep : ∀ s l t, step s l t → R s t) (hr : Runs step s ls t) : R s t := by
  induction hr with
  | refl => exact hrefl _
  | step he _ ih => exact htrans _ _ _ (hstep _ _ _ he) ih

/-- Labels that a function records one after the other. -/
theorem of_foldl (f : S → L → S) (s : S) (ls : List L) :
    Runs (fun s l t => t = f s l) s ls (ls.foldl f s) := by
  induction ls generalizing s with
  | nil => exact .refl s
  | cons l ls ih => exact .step rfl (ih (f s l))

/-- A run of two sequences stops between them. -/
theorem of_append {ls' : List L} (hr : Runs step s (ls ++ ls') t) :
    ∃ u, Runs step s ls u ∧ Runs step u ls' t := by
  induction ls generalizing s with
  | nil => exact ⟨s,.refl s,hr⟩
  | cons l ls ih =>
    cases hr with
    | step he hr =>
      obtain ⟨u,hfirst,hsecond⟩ := ih hr
      exact ⟨u,.step he hfirst,hsecond⟩

theorem append {ls' : List L} {u : S} (hr : Runs step s ls t) (hr' : Runs step t ls' u) :
    Runs step s (ls ++ ls') u := by
  induction hr with
  | refl => exact hr'
  | step he _ ih => exact .step he (ih hr')

/-- A run of guarded steps is a run. -/
theorem of_guarded {ok : S → L → Prop} (hr : Runs (Guarded ok step) s ls t) : Runs step s ls t := by
  induction hr with
  | refl => exact .refl _
  | step he _ ih => exact .step he.2 ih

/-- If, under an invariant, a step keeps a property exactly when it meets a guard, the
runs inside the property are the runs of guarded steps. -/
theorem within_iff_guarded {I P : S → Prop} {ok : S → L → Prop}
    (hstep : ∀ s l t, I s → step s l t → I t)
    (h : ∀ s l t, I s → P s → step s l t → (P t ↔ ok s l)) (hi : I s) (hs : P s) :
    Runs (Within P step) s ls t ↔ Runs (Guarded ok step) s ls t := by
  constructor
  · intro hr
    induction hr with
    | refl => exact .refl _
    | step he _ ih =>
      have hok := (h _ _ _ hi hs he.2.1).mp he.2.2
      exact .step ⟨hok,he.2.1⟩ (ih (hstep _ _ _ hi he.2.1) he.2.2)
  · intro hr
    induction hr with
    | refl => exact .refl _
    | step he _ ih =>
      have ht := (h _ _ _ hi hs he.2).mpr he.1
      exact .step ⟨hs,he.2,ht⟩ (ih (hstep _ _ _ hi he.2) ht)

/-- A simulation that may stutter maps runs to runs. -/
theorem refined {S' L' : Type*} {step' : S' → L' → S' → Prop} {f : S → S'} {I : S → Prop}
    (hinv : ∀ s l t, I s → step s l t → I t)
    (hstep : ∀ s l t, I s → step s l t → f t = f s ∨ ∃ l', step' (f s) l' (f t))
    (hr : Runs step s ls t) (hs : I s) : ∃ ls', Runs step' (f s) ls' (f t) := by
  induction hr with
  | refl => exact ⟨[],.refl _⟩
  | step he _ ih =>
    obtain ⟨ls',hr'⟩ := ih (hinv _ _ _ hs he)
    rcases hstep _ _ _ hs he with hsame | ⟨l',he'⟩
    · exact ⟨ls',hsame ▸ hr'⟩
    · exact ⟨l' :: ls',.step he' hr'⟩

/-- Executes a list of labels with a function that picks one successor. -/
def execute (next : S → L → Option S) (s : S) : List L → Option S
  | [] => some s
  | l :: ls => (next s l).bind (fun t => execute next t ls)

theorem of_execute {next : S → L → Option S} (hnext : ∀ s l t, next s l = some t → step s l t)
    (h : execute next s ls = some t) : Runs step s ls t := by
  induction ls generalizing s with
  | nil =>
    cases h
    exact .refl _
  | cons l ls ih =>
    obtain ⟨u,hu,h⟩ := Option.bind_eq_some_iff.mp h
    exact .step (hnext s l u hu) (ih h)

/-- Restricts execution to a decidable set of states. -/
def nextWithin (P : S → Prop) [DecidablePred P] (next : S → L → Option S) (s : S) (l : L) :
    Option S :=
  if P s then (next s l).filter (fun t => decide (P t)) else none

theorem within_of_nextWithin {P : S → Prop} [DecidablePred P] {next : S → L → Option S}
    (hnext : ∀ s l t, next s l = some t → step s l t) (s : S) (l : L) (t : S)
    (h : nextWithin P next s l = some t) : Within P step s l t := by
  unfold nextWithin at h
  split at h
  · rename_i hs
    obtain ⟨ht,hp⟩ := Option.filter_eq_some_iff.mp h
    exact ⟨hs,hnext s l t ht,of_decide_eq_true hp⟩
  · cases h

/-- Restricts execution to the steps that meet a decidable guard. -/
def nextGuarded (ok : S → L → Prop) [∀ s l, Decidable (ok s l)] (next : S → L → Option S) (s : S)
    (l : L) : Option S :=
  if ok s l then next s l else none

theorem guarded_of_nextGuarded {ok : S → L → Prop} [∀ s l, Decidable (ok s l)]
    {next : S → L → Option S} (hnext : ∀ s l t, next s l = some t → step s l t) (s : S) (l : L)
    (t : S) (h : nextGuarded ok next s l = some t) : Guarded ok step s l t := by
  unfold nextGuarded at h
  split at h
  · rename_i hok
    exact ⟨hok,hnext s l t h⟩
  · cases h

/-- A run whose final state has a decidable property, found by execution. -/
theorem exists_of_execute {next : S → L → Option S}
    (hnext : ∀ s l t, next s l = some t → step s l t) (p : S → Prop) [DecidablePred p]
    {Q : S → Prop} (h : (execute next s ls).any (fun t => decide (p t)) = true)
    (hq : ∀ t, Runs step s ls t → p t → Q t) : ∃ t, Runs step s ls t ∧ Q t := by
  obtain ⟨t,ht,hp⟩ := (Option.any_eq_true _ _).mp h
  have hr := of_execute hnext ht
  exact ⟨t,hr,hq t hr (of_decide_eq_true hp)⟩

end Runs

end FerrisOnAir

import FerrisOnAir.Foundation.Buffer

/-! # Functions over slices

An index or a range outside a slice panics, and so does a subtraction that goes below
zero. A function that may also give up early ends with a value, without one, or in a
panic; the calls it made to code outside are kept in order. A run that is shown to end
has no panic in it.
-/
namespace FerrisOnAir.Slices

inductive Panic
  | index (position length : ℕ)
  | range (start stop length : ℕ)
  | copy (source destination : ℕ)
  | subtraction (a b : ℕ)
deriving DecidableEq

/-- How a function over slices ends, and the calls it made. -/
structure Run (κ α : Type) where
  result : Except Panic (Option α)
  calls : List κ

namespace Run
variable {κ α β : Type}

def bind (x : Run κ α) (f : α → Run κ β) : Run κ β :=
  match x.result with
  | .error e => ⟨.error e,x.calls⟩
  | .ok none => ⟨.ok none,x.calls⟩
  | .ok (some a) => ⟨(f a).result,x.calls ++ (f a).calls⟩

instance : Monad (Run κ) where
  pure a := ⟨.ok (some a),[]⟩
  bind := bind

/-- The `?` of an option. -/
def ofOption (o : Option α) : Run κ α := ⟨.ok o,[]⟩

/-- `if p { return None; }`. -/
def rejectIf (p : Prop) [Decidable p] : Run κ Unit := if p then ofOption none else pure ()

/-- A call to code outside. -/
def call (c : κ) : Run κ Unit := ⟨.ok (some ()),[c]⟩

def panic (p : Panic) : Run κ α := ⟨.error p,[]⟩

/-- `xs[i]`. -/
def index (xs : List α) (i : ℕ) : Run κ α :=
  if h : i < xs.length then pure xs[i] else panic (.index i xs.length)

/-- `xs[start..stop]`. -/
def range (xs : List α) (start stop : ℕ) : Run κ (List α) :=
  if start ≤ stop ∧ stop ≤ xs.length then pure ((xs.drop start).take (stop - start))
  else panic (.range start stop xs.length)

/-- `xs[start..stop].copy_from_slice(source)`. -/
def copyFromSlice (xs : List α) (start stop : ℕ) (source : List α) : Run κ (List α) := do
  let destination ← range xs start stop
  if destination.length = source.length then return Buffer.overwrite xs start source
  else panic (.copy source.length destination.length)

/-- `a - b`. -/
def sub (a b : ℕ) : Run κ ℕ := if b ≤ a then pure (a - b) else panic (.subtraction a b)

/-- `is_some_and`. -/
def isSomeAnd (x : Run κ α) (f : α → Run κ Bool) : Run κ Bool :=
  match x.result with
  | .ok none => ⟨.ok (some false),x.calls⟩
  | _ => x.bind f

def Panics (x : Run κ α) : Prop := ∃ p, x.result = .error p

/-- The run ends as `r` says, without a panic, and every call it makes satisfies `P`. -/
structure Ends (x : Run κ α) (P : κ → Prop) (r : Option α) : Prop where
  result : x.result = .ok r
  calls : ∀ c ∈ x.calls, P c

namespace Ends
variable {x : Run κ α} {f : α → Run κ β} {P : κ → Prop} {r : Option β} {xs : List α} {i : ℕ}

theorem not_panics {r : Option α} (h : x.Ends P r) : ¬ x.Panics := by
  rintro ⟨p,hp⟩
  rw [h.result] at hp
  cases hp

/-- A run whose calls satisfy nothing makes none. -/
theorem eq_mk {r : Option α} (h : x.Ends (fun _ => False) r) : x = ⟨.ok r,[]⟩ := by
  obtain ⟨result,calls⟩ := x
  obtain rfl := h.result
  have hcalls : calls = [] := List.eq_nil_iff_forall_not_mem.mpr h.calls
  rw [hcalls]

theorem pure (a : α) : (Pure.pure a : Run κ α).Ends P (some a) := ⟨rfl,nofun⟩

theorem ofOption {o : Option α} : (Run.ofOption o : Run κ α).Ends P o := ⟨rfl,nofun⟩

theorem bind {a : α} (hx : x.Ends P (some a)) (hf : (f a).Ends P r) : (x >>= f).Ends P r := by
  change (x.bind f).Ends P r
  unfold Run.bind
  rw [hx.result]
  refine ⟨hf.result,?_⟩
  intro c hc
  rcases List.mem_append.mp hc with hc | hc
  · exact hx.calls c hc
  · exact hf.calls c hc

/-- A run that gives up is not continued. -/
theorem bind_none (hx : x.Ends P none) : (x >>= f).Ends P none := by
  change (x.bind f).Ends P none
  unfold Run.bind
  rw [hx.result]
  exact ⟨rfl,hx.calls⟩

theorem rejectIf {p : Prop} [Decidable p] :
    (rejectIf p : Run κ Unit).Ends P (if p then none else some ()) := by
  unfold Run.rejectIf
  split
  · exact ofOption
  · exact pure ()

theorem rejectIf_pos {p : Prop} [Decidable p] {f : Unit → Run κ β} (h : p) :
    (Run.rejectIf p >>= f).Ends P none := by
  have hx : (Run.rejectIf p : Run κ Unit).Ends P (if p then none else some ()) := rejectIf
  rw [if_pos h] at hx
  exact bind_none hx

theorem rejectIf_neg {p : Prop} [Decidable p] {f : Unit → Run κ β} (h : ¬ p)
    (hf : (f ()).Ends P r) : (Run.rejectIf p >>= f).Ends P r := by
  have hx : (Run.rejectIf p : Run κ Unit).Ends P (if p then none else some ()) := rejectIf
  rw [if_neg h] at hx
  exact bind hx hf

/-- A run that gives up behind a check gives up in any case. -/
theorem rejectIf_none {p : Prop} [Decidable p] {f : Unit → Run κ β}
    (hf : ¬ p → (f ()).Ends P none) : (Run.rejectIf p >>= f).Ends P none := by
  by_cases h : p
  · exact rejectIf_pos h
  · exact rejectIf_neg h (hf h)

theorem call {c : κ} {f : Unit → Run κ β} (h : P c) (hf : (f ()).Ends P r) :
    (Run.call c >>= f).Ends P r := by
  refine bind ⟨rfl,?_⟩ hf
  intro c' hc
  rw [List.mem_singleton.mp hc]
  exact h

theorem index (h : i < xs.length) (hf : (f xs[i]).Ends P r) : (index xs i >>= f).Ends P r := by
  rw [Run.index,dif_pos h]
  exact bind (pure _) hf

theorem range {f : List α → Run κ β} {start stop : ℕ} (hle : start ≤ stop)
    (h : stop ≤ xs.length) (hf : (f ((xs.drop start).take (stop - start))).Ends P r) :
    (range xs start stop >>= f).Ends P r := by
  rw [Run.range,if_pos ⟨hle,h⟩]
  exact bind (pure _) hf

theorem copyFromSlice {f : List α → Run κ β} {start stop : ℕ} {source : List α}
    (h : stop ≤ xs.length) (hlen : start + source.length = stop)
    (hf : (f (Buffer.overwrite xs start source)).Ends P r) :
    (copyFromSlice xs start stop source >>= f).Ends P r := by
  refine bind (range (by omega) h ?_) hf
  rw [if_pos]
  · exact pure _
  · simp only [List.length_take,List.length_drop]
    omega

theorem sub {f : ℕ → Run κ β} {a b : ℕ} (h : b ≤ a) (hf : (f (a - b)).Ends P r) :
    (sub a b >>= f).Ends P r := by
  rw [Run.sub,if_pos h]
  exact bind (pure _) hf

theorem isSomeAnd_none {f : α → Run κ Bool} (hx : x.Ends P none) :
    (x.isSomeAnd f).Ends P (some false) := by
  unfold isSomeAnd
  rw [hx.result]
  exact ⟨rfl,hx.calls⟩

theorem isSomeAnd_some {f : α → Run κ Bool} {a : α} {r : Option Bool} (hx : x.Ends P (some a))
    (hf : (f a).Ends P r) : (x.isSomeAnd f).Ends P r := by
  unfold isSomeAnd
  rw [hx.result]
  exact bind hx hf

end Ends
end Run

end FerrisOnAir.Slices

import FerrisOnAir.Foundation.RingWindow

/-! # The end of a log in a ring

A log that only grows is kept in a ring of `n` cells, entry `g` in cell `g % n`. The ring
holds the entries of the generation window; who knows the number of entries, or a smaller
number that agrees with it modulo `n`, reads the end of the log from it in order.
-/
namespace FerrisOnAir.RingLog
open RingWindow
variable {α : Type*} {n : ℕ} {ring : Fin n → α} {log : List α}

/-- The last entries of the log are where they belong. -/
def HoldsEnd (ring : Fin n → α) (log : List α) : Prop :=
  ∀ g x, log[g]? = some x → InWindow n log.length g → ∀ i : Fin n, i.val = g % n → ring i = x

theorem holdsEnd_nil (ring : Fin n → α) : HoldsEnd ring [] := by
  intro g x hx
  cases hx

/-- A new entry displaces the one that leaves the window. -/
theorem HoldsEnd.push (h : HoldsEnd ring log) (x : α) {i : Fin n} (hi : i.val = log.length % n) :
    HoldsEnd (Function.update ring i x) (log ++ [x]) := by
  intro g y hy hwindow j hj
  rw [List.length_append,List.length_singleton] at hwindow
  by_cases hg : g = log.length
  · subst hg
    rw [List.getElem?_concat_length] at hy
    obtain rfl := Option.some.inj hy
    obtain rfl : j = i := Fin.ext (hj.trans hi.symm)
    exact Function.update_self ..
  · have hwindow' := inWindow_succ hwindow hg
    have hne : j ≠ i := by
      intro hji
      refine hg (hwindow.eq_of_mod_eq (inWindow_self i.pos) ?_)
      rw [← hj,hji,hi]
    rw [List.getElem?_append_left hwindow'.1] at hy
    rw [Function.update_of_ne hne]
    exact h g y hy hwindow' j hj

/-- Reads the ring from its oldest entry, of as many as a total of entries can have left. -/
def readEnd (hn : 0 < n) (ring : Fin n → α) (total : ℕ) : List α :=
  (List.range (min total n)).map (fun k =>
    ring ⟨(total - min total n + k) % n,Nat.mod_lt _ hn⟩)

/-- What is read is the end of the log, even when the total has wrapped. -/
theorem HoldsEnd.readEnd_eq (h : HoldsEnd ring log) (hn : 0 < n) {total : ℕ}
    (hle : total ≤ log.length) (hmod : total % n = log.length % n) :
    readEnd hn ring total = log.drop (log.length - min total n) := by
  refine List.ext_getElem ?_ ?_
  · rw [readEnd,List.length_map,List.length_range,List.length_drop]
    omega
  · intro k hk hk'
    rw [readEnd,List.length_map,List.length_range] at hk
    have hcell : (total - min total n + k) % n = (log.length - min total n + k) % n := by
      obtain ⟨m,hm⟩ := (Nat.modEq_iff_dvd' hle).mp hmod
      have hsplit : log.length - min total n + k = total - min total n + k + n * m := by omega
      rw [hsplit,Nat.add_mul_mod_self_left]
    have hlt : log.length - min total n + k < log.length := by omega
    rw [List.getElem_drop]
    simp only [readEnd,List.getElem_map,List.getElem_range]
    refine h _ _ (List.getElem?_eq_getElem hlt) ⟨hlt,by omega⟩ _ hcell

end FerrisOnAir.RingLog

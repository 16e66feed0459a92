import Mathlib

/-! # Generation windows of a ring

A ring of `n` slots stores generation `g` in slot `g % n`. The generations that
have not yet been overwritten when the next one is `c` form the window
`c - n ≤ g < c`; inside it a slot determines its generation.
-/
namespace FerrisOnAir.RingWindow
variable {n c g h : ℕ}

/-- Generation `g` has been issued and its slot has not been issued again. -/
def InWindow (n c g : ℕ) : Prop := g < c ∧ c ≤ g + n

instance : Decidable (InWindow n c g) := inferInstanceAs (Decidable (_ ∧ _))

private theorem le_of_mod_eq (hg : InWindow n c g) (hh : InWindow n c h) (he : g % n = h % n) :
    h ≤ g := by
  obtain ⟨hg₁,hg₂⟩ := hg
  obtain ⟨hh₁,hh₂⟩ := hh
  have hz : (h - g) % n = 0 := Nat.sub_mod_eq_zero_of_mod_eq he.symm
  rw [Nat.mod_eq_of_lt (by omega)] at hz
  omega

theorem InWindow.eq_of_mod_eq (hg : InWindow n c g) (hh : InWindow n c h) (he : g % n = h % n) :
    g = h :=
  le_antisymm (le_of_mod_eq hh hg he.symm) (le_of_mod_eq hg hh he)

/-- Issuing one more generation retires exactly the one that shared its slot. -/
theorem inWindow_succ (hg : InWindow n (c + 1) g) (hne : g ≠ c) : InWindow n c g := by
  obtain ⟨h₁,h₂⟩ := hg
  exact ⟨by omega,by omega⟩

theorem inWindow_self (hn : 0 < n) : InWindow n (c + 1) c := ⟨by omega,by omega⟩

/-- Every slot that has been used belongs to some generation of the window. -/
theorem exists_inWindow {i : ℕ} (hi : i < n) (hc : i < c) : ∃ g, InWindow n c g ∧ g % n = i := by
  refine ⟨i + n * ((c - 1 - i) / n),⟨?_,?_⟩,?_⟩
  · have := Nat.mul_div_le (c - 1 - i) n
    omega
  · have h := Nat.div_add_mod (c - 1 - i) n
    have := Nat.mod_lt (c - 1 - i) (by omega : 0 < n)
    omega
  · rw [Nat.add_mul_mod_self_left]
    exact Nat.mod_eq_of_lt hi

/-- The oldest of the last `len` generations, computed from the next slot index
by one comparison instead of a second remainder. -/
theorem sub_mod_eq {len : ℕ} (hn : 0 < n) (hlen : len ≤ n) (hc : len ≤ c) :
    (c - len) % n = if len ≤ c % n then c % n - len else n - (len - c % n) := by
  have hlt := Nat.mod_lt c hn
  have hdiv := Nat.div_add_mod c n
  split
  · have he : c - len = c % n - len + n * (c / n) := by omega
    rw [he,Nat.add_mul_mod_self_left]
    exact Nat.mod_eq_of_lt (by omega)
  · have hq : 0 < c / n := by
      rcases Nat.eq_zero_or_pos (c / n) with hz | hp
      · rw [hz] at hdiv
        omega
      · exact hp
    obtain ⟨k,hk⟩ := Nat.exists_eq_succ_of_ne_zero hq.ne'
    have he : c - len = n - (len - c % n) + n * k := by
      rw [hk,Nat.mul_succ] at hdiv
      omega
    rw [he,Nat.add_mul_mod_self_left]
    exact Nat.mod_eq_of_lt (by omega)

end FerrisOnAir.RingWindow

import Mathlib.Algebra.Order.Ring.Int
import Mathlib.Order.Bounds.Defs

/-! # Instants of a periodic schedule

A schedule repeats with a period that is counted from an epoch; an instant has a phase in
it. From any instant on, a phase comes up exactly once within a period.
-/
namespace FerrisOnAir
variable {period epoch phase now : ℤ}

/-- The first instant from `now` on in a phase. -/
def nextInPhase (period epoch phase now : ℤ) : ℤ := now + (phase - (now - epoch)) % period

theorem le_nextInPhase (hp : 0 < period) : now ≤ nextInPhase period epoch phase now :=
  le_add_of_nonneg_right (Int.emod_nonneg _ hp.ne')

theorem nextInPhase_lt (hp : 0 < period) : nextInPhase period epoch phase now < now + period := by
  have h := Int.emod_lt_of_pos (phase - (now - epoch)) hp
  unfold nextInPhase
  omega

theorem nextInPhase_phase (h₀ : 0 ≤ phase) (h : phase < period) :
    (nextInPhase period epoch phase now - epoch) % period = phase := by
  have hsum : nextInPhase period epoch phase now - epoch =
      (now - epoch) + (phase - (now - epoch)) % period := by
    unfold nextInPhase
    omega
  rw [hsum,Int.add_emod_emod,add_sub_cancel,Int.emod_eq_of_lt h₀ h]

/-- An instant in the phase before that would be a period too close to it. -/
theorem isLeast_nextInPhase (h₀ : 0 ≤ phase) (h : phase < period) :
    IsLeast {t | now ≤ t ∧ (t - epoch) % period = phase} (nextInPhase period epoch phase now) := by
  have hp : 0 < period := h₀.trans_lt h
  refine ⟨⟨le_nextInPhase hp,nextInPhase_phase h₀ h⟩,?_⟩
  rintro t ⟨hnow,ht⟩
  by_contra hlt
  have hdvd : period ∣ nextInPhase period epoch phase now - t := by
    have hmod : (nextInPhase period epoch phase now - epoch) % period = (t - epoch) % period :=
      (nextInPhase_phase h₀ h).trans ht.symm
    have hzero := Int.emod_eq_emod_iff_emod_sub_eq_zero.mp hmod
    rw [sub_sub_sub_cancel_right] at hzero
    exact Int.dvd_of_emod_eq_zero hzero
  have hle := Int.le_of_dvd (by omega) hdvd
  have hnext : nextInPhase period epoch phase now < now + period := nextInPhase_lt hp
  omega

end FerrisOnAir

import Mathlib

/-! # Resources held by an array of owners

What all owners hold together is the sum of what each holds. Replacing one owner
changes the total exactly by the difference between the new and the old one.
-/
namespace FerrisOnAir.Ownership
variable {ι β M : Type*} [Fintype ι] [DecidableEq ι] [AddCommMonoid M]

/-- The total held by all owners. -/
def total (held : β → M) (owner : ι → β) : M := ∑ i, held (owner i)

theorem total_update (held : β → M) (owner : ι → β) (i : ι) (b : β) :
    total held (Function.update owner i b) + held (owner i) = total held owner + held b := by
  have hnew := Finset.sum_erase_add Finset.univ (fun j => held (Function.update owner i b j))
    (Finset.mem_univ i)
  have hold := Finset.sum_erase_add Finset.univ (fun j => held (owner j)) (Finset.mem_univ i)
  have hrest : ∑ j ∈ Finset.univ.erase i, held (Function.update owner i b j) =
      ∑ j ∈ Finset.univ.erase i, held (owner j) := by
    apply Finset.sum_congr rfl
    intro j hj
    rw [Function.update_of_ne (Finset.ne_of_mem_erase hj)]
  unfold total
  rw [← hnew,← hold,hrest,Function.update_self]
  abel

omit [DecidableEq ι] in
theorem held_le_total [PartialOrder M] [CanonicallyOrderedAdd M] [IsOrderedAddMonoid M]
    (held : β → M) (owner : ι → β) (i : ι) : held (owner i) ≤ total held owner :=
  Finset.single_le_sum (f := fun j => held (owner j)) (fun _ _ => zero_le) (Finset.mem_univ i)

end FerrisOnAir.Ownership

import Mathlib

/-! # In-place edits of a buffer

A buffer is a list of fixed length. Moving a range within it reads the range before it
writes, as a memory move does. Moving everything behind a position further back and
writing into the gap inserts; moving it forward again deletes.
-/
namespace FerrisOnAir.Buffer
variable {α : Type*}

/-- `copy_within(start..stop, dest)`, for a destination with room. -/
def copyWithin (buffer : List α) (start stop dest : ℕ) : List α :=
  buffer.take dest ++ (buffer.drop start).take (stop - start) ++ buffer.drop (dest + (stop - start))

/-- Writes a slice at a position with room for it. -/
def overwrite (buffer : List α) (position : ℕ) (bytes : List α) : List α :=
  buffer.take position ++ bytes ++ buffer.drop (position + bytes.length)

variable {p m g r iv : List α}

/-- What was behind the first part stands behind the bytes written into the gap; the bytes
that were there are lost. -/
theorem overwrite_copyWithin (hg : g.length = iv.length) :
    overwrite (copyWithin (p ++ (m ++ (g ++ r))) p.length (p.length + m.length)
      (p.length + iv.length)) p.length iv = p ++ (iv ++ (m ++ r)) := by
  have hmove : copyWithin (p ++ (m ++ (g ++ r))) p.length (p.length + m.length)
      (p.length + iv.length) = p ++ ((m ++ (g ++ r)).take iv.length ++ (m ++ r)) := by
    have hdrop : (p ++ (m ++ (g ++ r))).drop (p.length + iv.length + m.length) = r := by
      have hlen : p.length + iv.length + m.length = (p ++ (m ++ g)).length := by
        simp only [List.length_append]
        omega
      rw [hlen,show p ++ (m ++ (g ++ r)) = (p ++ (m ++ g)) ++ r by simp]
      exact List.drop_left
    simp only [copyWithin,Nat.add_sub_cancel_left,hdrop,List.take_length_add_append,
      List.drop_left,List.take_left,List.append_assoc]
  have htake : ((m ++ (g ++ r)).take iv.length).length = iv.length := by
    simp only [List.length_take,List.length_append]
    omega
  rw [hmove,overwrite,List.take_left,List.append_assoc]
  congr 2
  rw [← List.drop_drop,List.drop_left]
  nth_rewrite 1 [← htake]
  exact List.drop_left

theorem take_copyWithin :
    (copyWithin (p ++ (iv ++ m)) (p.length + iv.length) (p ++ (iv ++ m)).length p.length).take
      (p.length + m.length) = p ++ m := by
  have hlen : (p ++ (iv ++ m)).length - (p.length + iv.length) = m.length := by
    simp only [List.length_append]
    omega
  have hdrop : (p ++ (iv ++ m)).drop (p.length + iv.length) = m := by
    rw [← List.append_assoc,← List.length_append]
    exact List.drop_left
  rw [copyWithin,hlen,hdrop,List.take_left,List.take_length,← List.length_append]
  exact List.take_left

end FerrisOnAir.Buffer

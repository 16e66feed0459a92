import FerrisOnAir.Foundation.Runs

/-! # Steps that emit events

A component tells an observer about itself by events. The events of a run are replayed with a
partial function that refuses an event which does not fit what the observer knows, so a
replay that succeeds says two things: every event was in place, and the observer ends with the
present state. Between the component and the observer there may be a queue of limited depth,
which refuses what it has no place for.
-/
namespace FerrisOnAir
variable {S L E K : Type*}

/-- If the events of every step are the difference between what is known before and after it,
those of a run are the difference between its ends. -/
theorem Runs.replay {step : S → L → S → Prop} {learn : K → E → Option K} (events : S → List E)
    (known : S → K) {k : K} {s t : S} {ls : List L}
    (hstep : ∀ s l t, step s l t → ∃ emitted, events t = events s ++ emitted ∧
      emitted.foldlM learn (known s) = some (known t))
    (hr : Runs step s ls t) (hs : (events s).foldlM learn k = some (known s)) :
    (events t).foldlM learn k = some (known t) := by
  refine hr.invariant (I := fun s => (events s).foldlM learn k = some (known s)) ?_ hs
  intro s l t h he
  obtain ⟨emitted,hevents,hlearn⟩ := hstep s l t he
  rw [hevents,List.foldlM_append,h]
  exact hlearn

/-- Sends events one after the other; those that find the queue full are lost. -/
def offer (depth : ℕ) (queue events : List E) : List E :=
  events.foldl (fun queue event => if queue.length < depth then queue ++ [event] else queue) queue

section Offer
variable {depth : ℕ} {queue events : List E}

/-- What is taken is as much of the events as there is room for, from their front. -/
theorem offer_eq_take (depth : ℕ) (queue events : List E) :
    offer depth queue events = queue ++ events.take (depth - queue.length) := by
  induction events generalizing queue with
  | nil => simp [offer]
  | cons event events ih =>
    rw [offer,List.foldl_cons]
    by_cases hroom : queue.length < depth
    · rw [if_pos hroom]
      have hlength : (queue ++ [event]).length = queue.length + 1 := by simp
      have hsucc : depth - queue.length = depth - (queue.length + 1) + 1 := by omega
      have htake := ih (queue ++ [event])
      rw [offer,hlength] at htake
      rw [htake,hsucc,List.take_succ_cons,List.append_assoc]
      rfl
    · rw [if_neg hroom]
      have hzero : depth - queue.length = 0 := by omega
      have htake := ih queue
      rw [offer,hzero,List.take_zero] at htake
      rw [htake,hzero,List.take_zero]

theorem length_offer_le (events : List E) (h : queue.length ≤ depth) :
    (offer depth queue events).length ≤ depth := by
  rw [offer_eq_take,List.length_append,List.length_take]
  omega

theorem offer_sublist : (offer depth queue events).Sublist (queue ++ events) := by
  rw [offer_eq_take]
  exact (List.Sublist.refl _).append (List.take_sublist _ _)

/-- With room for all of them nothing is lost. -/
theorem offer_eq_append (h : queue.length + events.length ≤ depth) :
    offer depth queue events = queue ++ events := by
  rw [offer_eq_take,List.take_of_length_le (by omega)]

end Offer

end FerrisOnAir

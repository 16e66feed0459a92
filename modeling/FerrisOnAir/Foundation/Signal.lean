import Mathlib

/-! # Waiting for a value by a signal

A task waits until a shared value is as it wants it, and whoever changes the value signals. A
signal holds the waker of the one task that waits, and a signal that nobody waits for is
remembered. A loop that looks at the value before it waits, and again after every signal, is
scheduled whenever the value is as it wants it.
-/
namespace FerrisOnAir

/-- A signal without a payload. -/
inductive Signal
  | none
  | waiting
  | signaled
deriving DecidableEq

namespace Signal
variable (s : Signal) (done scheduled : Bool)

/-- `signal`, and whether it wakes the task. -/
def signal : Signal → Signal × Bool
  | waiting => (signaled,true)
  | _ => (signaled,false)

/-- A poll of the loop where it waits, and whether the loop returns. A signal that was in vain
is followed by the next wait. -/
def waitUntil : Signal → Bool × Signal
  | signaled => if done then (true,none) else (false,waiting)
  | _ => (false,waiting)

/-- The first poll, which looks at the value before anything else. -/
def enterWait : Bool × Signal := if done then (true,s) else s.waitUntil done

/-- What a suspended loop relies on. -/
def Awaits : Prop := s = waiting ∧ done = false ∨ s = signaled ∧ scheduled = true

variable {s done scheduled}

theorem Awaits.isScheduled (h : s.Awaits done scheduled) (hdone : done = true) :
    scheduled = true := by
  rcases h with ⟨-,hnot⟩ | ⟨-,hscheduled⟩
  · rw [hdone] at hnot
    cases hnot
  · exact hscheduled

/-- Whatever the value has become. -/
theorem Awaits.signal (h : s.Awaits done scheduled) (done' : Bool) :
    s.signal.1.Awaits done' (scheduled || s.signal.2) := by
  rcases h with ⟨rfl,-⟩ | ⟨rfl,hscheduled⟩
  · exact Or.inr ⟨rfl,Bool.or_true _⟩
  · exact Or.inr ⟨rfl,by rw [hscheduled]; rfl⟩

theorem Awaits.wake (h : s.Awaits done scheduled) : s.Awaits done true :=
  h.imp_right (And.imp_right fun _ => rfl)

/-- A poll suspends the loop exactly if the value is not as it wants it. -/
theorem waitUntil_cases (h : s.Awaits done scheduled) :
    done = true ∧ s.waitUntil done = (true,none) ∨
      done = false ∧ s.waitUntil done = (false,waiting) := by
  rcases h with ⟨rfl,rfl⟩ | ⟨rfl,-⟩
  · exact Or.inr ⟨rfl,rfl⟩
  · cases done with
    | true => exact Or.inl ⟨rfl,rfl⟩
    | false => exact Or.inr ⟨rfl,rfl⟩

theorem enterWait_true : s.enterWait true = (true,s) := rfl

theorem enterWait_false : s.enterWait false = (false,waiting) := by
  cases s <;> rfl

theorem awaits_waiting (scheduled : Bool) : waiting.Awaits false scheduled := Or.inl ⟨rfl,rfl⟩

end Signal

end FerrisOnAir

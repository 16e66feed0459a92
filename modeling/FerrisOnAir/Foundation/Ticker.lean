import Mathlib

/-! # Periodic timers

A ticker is ready from the time on at which it expires, and then expires one duration later,
however late it is looked at. So it ticks as often as its duration has passed, and is never ahead.
-/
namespace FerrisOnAir

structure Ticker where
  duration : ℕ
  expiresAt : ℕ

namespace Ticker

def every (duration now : ℕ) : Ticker := ⟨duration,now + duration⟩

def reset (ticker : Ticker) (now : ℕ) : Ticker := { ticker with expiresAt := now + ticker.duration }

/-- `next`, if it is ready. -/
def next (ticker : Ticker) (now : ℕ) : Option Ticker :=
  if ticker.expiresAt ≤ now then
    some { ticker with expiresAt := ticker.expiresAt + ticker.duration }
  else none

/-- It has ticked so often since a start. -/
def Ticked (start duration ticks : ℕ) (ticker : Ticker) : Prop :=
  ticker = ⟨duration,start + duration * (ticks + 1)⟩

variable {ticker ticker' : Ticker} {start duration ticks now : ℕ}

theorem next_eq_some (h : ticker.next now = some ticker') : ticker.expiresAt ≤ now ∧
    ticker' = { ticker with expiresAt := ticker.expiresAt + ticker.duration } := by
  obtain ⟨hexpired,h⟩ := Option.ite_none_right_eq_some.mp h
  exact ⟨hexpired,(Option.some.inj h).symm⟩

theorem ticked_every : (every duration start).Ticked start duration 0 := by
  rw [Ticked,Nat.zero_add,Nat.mul_one]
  rfl

/-- A tick is never early, and the next one is due a duration after it was. -/
theorem Ticked.next (h : ticker.Ticked start duration ticks) (hnext : ticker.next now = some ticker') :
    start + duration * (ticks + 1) ≤ now ∧ ticker'.Ticked start duration (ticks + 1) := by
  obtain ⟨hexpired,rfl⟩ := next_eq_some hnext
  rw [Ticked] at h
  subst h
  exact ⟨hexpired,congrArg (Ticker.mk duration) (by ring)⟩

end Ticker

end FerrisOnAir

import Mathlib.Data.Nat.Notation

/-! # Periodic timers

A timer that puts the time into a buffer of one place, once in every period. A tick that
finds the buffer full is dropped, and the schedule does not move when a tick is late. -/

namespace Timers

/-- `due` is the time of the next tick. A timer without a period never ticks. -/
structure Ticker where
  period : ℕ
  due : ℕ
  buffer : Option ℕ
  deriving DecidableEq, Repr

namespace Ticker

def new (period now : ℕ) : Ticker := ⟨period, now + period, none⟩

def fire (t : Ticker) (now : ℕ) : Option Ticker :=
  if 0 < t.period ∧ t.due ≤ now then
    some { t with
      due := t.due + t.period * (1 + (now - t.due) / t.period)
      buffer := t.buffer.or (some now) }
  else none

/-- The buffered tick is taken out. -/
def receive (t : Ticker) : Ticker := { t with buffer := none }

variable {t t' : Ticker} {now : ℕ}

/-- A tick that is late by less than a period does not cost the next one. -/
theorem fire_of_lt (h : t.fire now = some t') (hlate : now < t.due + t.period) :
    t.due ≤ now ∧
      t' = { t with due := t.due + t.period, buffer := t.buffer.or (some now) } := by
  rw [fire] at h
  split at h
  · rename_i hdue
    have hrounds : (now - t.due) / t.period = 0 := Nat.div_eq_of_lt (by omega)
    cases h
    rw [hrounds, Nat.mul_one]
    exact ⟨hdue.2, rfl⟩
  · cases h

end Ticker

end Timers

import Mathlib.Data.List.Basic

/-! # Channels that can be closed

What a channel has been through: the values sent to it, and the two uses of it that are
errors, closing it twice and sending to it once it is closed. -/

namespace Channels

/-- `closes` counts how often the channel was closed, `faults` the sends that found it
closed. -/
structure Chan (α : Type) where
  sent : List α := []
  closes : ℕ := 0
  faults : ℕ := 0
  deriving DecidableEq, Repr

variable {α : Type}

namespace Chan

def isClosed (c : Chan α) : Bool := c.closes != 0

def send (c : Chan α) (x : α) : Chan α :=
  if c.isClosed then { c with faults := c.faults + 1 } else { c with sent := c.sent ++ [x] }

def close (c : Chan α) : Chan α := { c with closes := c.closes + 1 }

/-- Closed at most once, and never sent to afterwards. -/
structure Safe (c : Chan α) : Prop where
  closes : c.closes ≤ 1
  faults : c.faults = 0

variable {c : Chan α} {x : α}

@[simp] theorem close_sent (c : Chan α) : c.close.sent = c.sent := rfl

@[simp] theorem close_closes (c : Chan α) : c.close.closes = c.closes + 1 := rfl

@[simp] theorem isClosed_close (c : Chan α) : c.close.isClosed = true := rfl

theorem isClosed_eq_false : c.isClosed = false ↔ c.closes = 0 := by
  simp [isClosed]

theorem send_of_open (h : c.isClosed = false) : c.send x = { c with sent := c.sent ++ [x] } := by
  simp [send, h]

@[simp] theorem isClosed_send (c : Chan α) (x : α) : (c.send x).isClosed = c.isClosed := by
  rw [send]
  split <;> rfl

theorem safe_empty : (({} : Chan α)).Safe := ⟨Nat.zero_le 1, rfl⟩

theorem Safe.close (h : c.Safe) (hopen : c.isClosed = false) : c.close.Safe :=
  ⟨by simp [isClosed_eq_false.mp hopen], h.faults⟩

theorem Safe.send (h : c.Safe) (hopen : c.isClosed = false) : (c.send x).Safe := by
  rw [send_of_open hopen]
  exact ⟨h.closes, h.faults⟩

end Chan

end Channels

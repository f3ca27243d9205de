import Mathlib.Data.Set.Basic

/-! # Handing out numbers in turn

The numbers of a range are handed out in cyclic order, starting behind the last one,
and a number that is still in use is passed over. -/

namespace RoundRobin

/-- In the cyclic order that starts at `start`, `m` comes before `n`. -/
def Before {α : Type} [LE α] [LT α] (start m n : α) : Prop :=
  start ≤ m ∧ (m < n ∨ n < start) ∨ m < n ∧ n < start

structure State where
  low : ℤ
  high : ℤ
  follow : ℤ
  taken : Set ℤ

namespace State

variable {s s' : State} {n x m : ℤ}

/-- The numbers that are handed out. -/
def range (s : State) : Set ℤ := {n | s.low ≤ n ∧ n ≤ s.high}

@[simp] theorem mem_range : n ∈ s.range ↔ s.low ≤ n ∧ n ≤ s.high := Iff.rfl

/-- The cyclic successor. -/
def succ (s : State) (n : ℤ) : ℤ := if n = s.high then s.low else n + 1

/-- `n` is the first number in turn that is not taken, and `s'` is `s` with it taken. -/
structure Hands (s : State) (n : ℤ) (s' : State) : Prop where
  mem : n ∈ s.range
  free : n ∉ s.taken
  first : ∀ m ∈ s.range, Before s.follow m n → m ∈ s.taken
  low_eq : s'.low = s.low
  high_eq : s'.high = s.high
  follow_eq : s'.follow = s.succ n
  taken_iff : ∀ m ∈ s.range, m ∈ s'.taken ↔ m = n ∨ m ∈ s.taken

/-- Every number in turn between the successor of `n` and `follow` is taken. -/
def CaughtUp (s : State) (n : ℤ) : Prop :=
  ∀ m ∈ s.range, m ≠ n → Before (s.succ n) m s.follow → m ∈ s.taken

theorem caughtUp_of_follow (h : s.follow = s.succ n) : s.CaughtUp n := by
  intro m _ _ hbefore
  unfold Before at hbefore
  omega

/-- While `n` is free, the turn does not pass it. -/
theorem Hands.caughtUp (h : s.Hands x s') (hfollow : s.follow ∈ s.range)
    (hmem : n ∈ s.range) (hfree : n ∉ s.taken)
    (hcaught : s.CaughtUp n) : s'.CaughtUp n := by
  intro m hm hmn hbefore
  have hsucc : s'.succ n = s.succ n := by
    simp only [succ, h.low_eq, h.high_eq]
  rw [mem_range, h.low_eq, h.high_eq, ← mem_range] at hm
  rw [hsucc, h.follow_eq] at hbefore
  rw [h.taken_iff m hm]
  have hn : ¬ Before s.follow n x := fun hn => hfree (h.first n hmem hn)
  have hx := h.mem
  by_cases hmx : m = x
  · exact .inl hmx
  -- `m` was passed on the way to `follow`, or just now on the way to `x`
  · by_cases hearlier : Before (s.succ n) m s.follow
    · exact .inr (hcaught m hm hmn hearlier)
    · refine .inr (h.first m hm ?_)
      simp only [Before, succ, mem_range] at *
      split at hbefore <;> split at hearlier <;> omega

/-- When the turn comes to `n` again, every other number is taken. -/
theorem Hands.taken_of_caughtUp (h : s.Hands n s') (hfollow : s.follow ∈ s.range)
    (hcaught : s.CaughtUp n) (hm : m ∈ s.range) (hmn : m ≠ n) : m ∈ s.taken := by
  have hn := h.mem
  by_cases hbefore : Before s.follow m n
  · exact h.first m hm hbefore
  · refine hcaught m hm hmn ?_
    simp only [Before, succ, mem_range] at *
    split <;> omega

end State

end RoundRobin

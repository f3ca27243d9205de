import Amqp091.Algorithm.Allocator
import Amqp091.Shared.RoundRobin
import Mathlib.Tactic.Tauto

/-! # What the allocator reserves -/

namespace Amqp091

theorem testBit_setBit (x i j : ℕ) (b : Bool) :
    (setBit x i b).testBit j = if j = i then b else x.testBit j := by
  unfold setBit
  by_cases hij : j = i
  · subst hij
    cases b
    · simp [Nat.testBit_xor, Nat.testBit_and, Nat.testBit_two_pow_self]
    · simp [Nat.testBit_or, Nat.testBit_two_pow_self]
  · cases b
    · simp [Nat.testBit_xor, Nat.testBit_and, Nat.testBit_two_pow_of_ne (Ne.symm hij), hij]
    · simp [Nat.testBit_or, Nat.testBit_two_pow_of_ne (Ne.symm hij), hij]

namespace Allocator

variable {a : Allocator}

theorem reserved_setBit {n m : ℕ} (hn : a.low ≤ n) (hm : a.low ≤ m) (b : Bool) :
    reserved { a with pool := setBit a.pool (n - a.low) b } m =
      if m = n then b else a.reserved m := by
  have hiff : m - a.low = n - a.low ↔ m = n := by omega
  simp only [reserved, testBit_setBit, hiff]

theorem search_of_reserved (h : a.reserved a.follow = true) (rounds : ℕ) :
    search (rounds + 1) a = search rounds { a with follow := a.follow + 1 } := by
  simp [search, reserve, h]

theorem search_of_free (h : a.reserved a.follow = false) (rounds : ℕ) :
    search (rounds + 1) a =
      ({ a with pool := setBit a.pool (a.follow - a.low) true }, true) := by
  simp [search, reserve, h]

/-- A search ends at the first free number among those it tries, which it reserves, or
passes all of them. -/
theorem search_spec (rounds : ℕ) (a : Allocator) :
    (∃ n, a.follow ≤ n ∧ n < a.follow + rounds ∧ a.reserved n = false ∧
      (∀ m, a.follow ≤ m → m < n → a.reserved m = true) ∧
      search rounds a =
        ({ a with pool := setBit a.pool (n - a.low) true, follow := n }, true)) ∨
    ((∀ m, a.follow ≤ m → m < a.follow + rounds → a.reserved m = true) ∧
      search rounds a = ({ a with follow := a.follow + rounds }, false)) := by
  induction rounds generalizing a with
  | zero => exact .inr ⟨fun m hm hlt => absurd hlt (by omega), rfl⟩
  | succ rounds ih =>
      by_cases hfree : a.reserved a.follow
      · rw [search_of_reserved hfree]
        rcases ih { a with follow := a.follow + 1 } with
          ⟨n, hle, hlt, hn, hbelow, heq⟩ | ⟨hall, heq⟩
        · have hle : a.follow + 1 ≤ n := hle
          have hlt : n < a.follow + 1 + rounds := hlt
          refine .inl ⟨n, by omega, by omega, hn, fun m hm hmn => ?_, heq⟩
          rcases Nat.eq_or_lt_of_le hm with rfl | hm
          · exact hfree
          · exact hbelow m hm hmn
        · refine .inr ⟨fun m hm hmlt => ?_, ?_⟩
          · rcases Nat.eq_or_lt_of_le hm with rfl | hm
            · exact hfree
            · exact hall m hm (by simp only; omega)
          · rw [heq, Nat.add_assoc, Nat.add_comm 1 rounds]
      · rw [Bool.not_eq_true] at hfree
        exact .inl ⟨a.follow, le_rfl, by omega, hfree,
          fun m hm hlt => absurd hlt (by omega), search_of_free hfree rounds⟩

/-- `follow` stays between `low` and `high`. -/
structure InRange (a : Allocator) : Prop where
  low_le : a.low ≤ a.follow
  le_high : a.follow ≤ a.high

/-- Putting `follow` on a number of the range and moving on stays in the range. -/
theorem inRange_advance {b : Allocator} (hlow : b.low ≤ b.follow) (hhigh : b.follow ≤ b.high) :
    InRange b.advance := by
  constructor
  · simp only [advance]
    split <;> omega
  · simp only [advance]
    split <;> omega

/-- What `next` does: it reserves the first free number in turn and moves on from it, or
finds the range exhausted. -/
theorem next_cases (h : InRange a) :
    (∃ n, a.low ≤ n ∧ n ≤ a.high ∧ a.reserved n = false ∧
      (∀ m, a.low ≤ m → m ≤ a.high → RoundRobin.Before a.follow m n → a.reserved m = true) ∧
      a.next =
        (advance { a with pool := setBit a.pool (n - a.low) true, follow := n }, some n)) ∨
    ((∀ m, a.low ≤ m → m ≤ a.high → a.reserved m = true) ∧ a.next = (advance a, none)) := by
  have hlow := h.low_le
  have hhigh := h.le_high
  rcases search_spec (a.high + 1 - a.follow) a with
    ⟨n, hle, hlt, hfree, hpassed, heq⟩ | ⟨hall, heq⟩
  · refine .inl ⟨n, by omega, by omega, hfree, fun m hm _ hbefore => ?_, by simp only [next, heq]⟩
    unfold RoundRobin.Before at hbefore
    exact hpassed m (by omega) (by omega)
  · -- everything from `follow` on is taken: try again from `low`
    rcases search_spec (a.follow - a.low) { a with follow := a.low } with
      ⟨n, hle, hlt, hfree, hpassed, heq'⟩ | ⟨hall', heq'⟩
    · have hle : a.low ≤ n := hle
      have hlt : n < a.low + (a.follow - a.low) := hlt
      refine .inl ⟨n, hle, by omega, hfree, fun m hm hm' hbefore => ?_,
        by simp only [next, heq, heq']⟩
      by_cases hturn : m < a.follow
      · unfold RoundRobin.Before at hbefore
        exact hpassed m hm (by omega)
      · exact hall m (by omega) (by omega)
    · refine .inr ⟨fun m hm hle => ?_, ?_⟩
      · by_cases hturn : m < a.follow
        · exact hall' m hm (by simp only; omega)
        · exact hall m (by omega) (by omega)
      · simp only [next, heq, heq', Nat.add_sub_cancel' hlow]

/-- `next` reserves one free number of the range and nothing else, or finds the range
exhausted and reserves nothing. -/
theorem next_spec (h : InRange a) :
    (∃ n a', a.next = (a', some n) ∧ a.low ≤ n ∧ n ≤ a.high ∧ a.reserved n = false ∧
      a'.low = a.low ∧ a'.high = a.high ∧ InRange a' ∧
      ∀ m, a.low ≤ m → a'.reserved m = if m = n then true else a.reserved m) ∨
    (∃ a', a.next = (a', none) ∧ (∀ m, a.low ≤ m → m ≤ a.high → a.reserved m = true) ∧
      a'.low = a.low ∧ a'.high = a.high ∧ InRange a' ∧ a'.pool = a.pool) := by
  rcases next_cases h with ⟨n, hle, hle', hfree, -, hnext⟩ | ⟨hall, hnext⟩
  · exact .inl ⟨n, _, hnext, hle, hle', hfree, rfl, rfl, inRange_advance hle hle',
      fun m hm => reserved_setBit hle hm true⟩
  · exact .inr ⟨_, hnext, hall, rfl, rfl, inRange_advance h.low_le h.le_high, rfl⟩

end Allocator

end Amqp091

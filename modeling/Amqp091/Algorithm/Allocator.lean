import Mathlib.Data.Nat.Bitwise

/-! # The number allocator -/

namespace Amqp091

/-- `pool` is the bit set of the `big.Int`, with bit 0 for `low`. -/
structure Allocator where
  pool : ℕ
  follow : ℕ
  low : ℕ
  high : ℕ
  deriving DecidableEq, Repr

/-- `x.SetBit(x, i, b)`. -/
def setBit (x i : ℕ) (b : Bool) : ℕ :=
  if b then x ||| 2 ^ i else x ^^^ (x &&& 2 ^ i)

namespace Allocator

def newAllocator (low high : ℕ) : Allocator := ⟨0, low, low, high⟩

def reserved (a : Allocator) (n : ℕ) : Bool := a.pool.testBit (n - a.low)

def reserve (a : Allocator) (n : ℕ) : Option Allocator :=
  if a.reserved n then none else some { a with pool := setBit a.pool (n - a.low) true }

def release (a : Allocator) (n : ℕ) : Allocator :=
  { a with pool := setBit a.pool (n - a.low) false }

/-- One of the loops of `next`: at most `rounds` numbers are tried from `follow` on. -/
def search : ℕ → Allocator → Allocator × Bool
  | 0, a => (a, false)
  | rounds + 1, a =>
      match a.reserve a.follow with
      | some a => (a, true)
      | none => search rounds { a with follow := a.follow + 1 }

/-- The deferred function of `next`. -/
def advance (a : Allocator) : Allocator :=
  { a with follow := if a.follow = a.high then a.low else a.follow + 1 }

/-- `none` stands for the result `0, false`. -/
def next (a : Allocator) : Allocator × Option ℕ :=
  let wrapped := a.follow
  match search (a.high + 1 - a.follow) a with
  | (a, true) => (a.advance, some a.follow)
  | (a, false) =>
      match search (wrapped - a.low) { a with follow := a.low } with
      | (a, true) => (a.advance, some a.follow)
      | (a, false) => (a.advance, none)

end Allocator

end Amqp091

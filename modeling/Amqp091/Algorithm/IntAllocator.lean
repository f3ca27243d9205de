import Amqp091.Algorithm.Allocator
import Amqp091.Algorithm.SendOpen

/-! # The allocator over Go's `int`

The same functions over signed 64-bit numbers, where `follow` and the index of a bit may
wrap. The methods of `big.Int` panic on a negative index. -/

namespace Amqp091

structure IntAllocator where
  pool : ℕ
  follow : Int64
  low : Int64
  high : Int64
  deriving DecidableEq, Repr

namespace IntAllocator

def newAllocator (low high : Int64) : IntAllocator := ⟨0, low, low, high⟩

/-- The index `n - a.low`, if `Bit` and `SetBit` take it. -/
def index (a : IntAllocator) (n : Int64) : Option ℕ :=
  if 0 ≤ n - a.low then some (n - a.low).toInt.toNat else none

def reserved (a : IntAllocator) (n : Int64) : Option Bool :=
  (a.index n).map a.pool.testBit

def reserve (a : IntAllocator) (n : Int64) : Option (IntAllocator × Bool) :=
  (a.index n).map fun i =>
    if a.pool.testBit i then (a, false) else ({ a with pool := setBit a.pool i true }, true)

def release (a : IntAllocator) (n : Int64) : Option IntAllocator :=
  (a.index n).map fun i => { a with pool := setBit a.pool i false }

/-- One of the loops of `next`, `for ; more(a.follow); a.follow++`, over a bound on its
rounds. -/
def search (more : Int64 → Bool) : ℕ → IntAllocator → Loop (IntAllocator × Bool)
  | 0, _ => .timeout
  | rounds + 1, a =>
      if more a.follow then
        match a.reserve a.follow with
        | none => .panic
        | some (a, true) => .done (a, true)
        | some (a, false) => search more rounds { a with follow := a.follow + 1 }
      else .done (a, false)

/-- The deferred function of `next`. -/
def advance (a : IntAllocator) : IntAllocator :=
  { a with follow := if a.follow = a.high then a.low else a.follow + 1 }

/-- The loops get a round for every `int`: one that has not ended by then is back at an
earlier state. -/
def next (a : IntAllocator) : Loop (IntAllocator × Int64 × Bool) :=
  let wrapped := a.follow
  match search (· ≤ a.high) (2 ^ 64) a with
  | .done (a, true) => .done (a.advance, a.follow, true)
  | .done (a, false) =>
      match search (· < wrapped) (2 ^ 64) { a with follow := a.low } with
      | .done (a, true) => .done (a.advance, a.follow, true)
      | .done (a, false) => .done (a.advance, 0, false)
      | .panic => .panic
      | .timeout => .timeout
  | .panic => .panic
  | .timeout => .timeout

/-- A call on the allocator. -/
inductive Call where
  | next
  | release (n : Int64)
  deriving DecidableEq, Repr

/-- A sequence of calls; `none` if one of them panics or does not return. -/
def run : List Call → IntAllocator → Option IntAllocator
  | [], a => some a
  | .next :: calls, a =>
      match a.next with
      | .done (a, _) => run calls a
      | _ => none
  | .release n :: calls, a => (a.release n).bind (run calls)

/-- What `k` calls of `next` in a row return. -/
def nexts : ℕ → IntAllocator → Option (IntAllocator × List (Int64 × Bool))
  | 0, a => some (a, [])
  | k + 1, a =>
      match a.next with
      | .done (a, result) => (nexts k a).map fun (a, results) => (a, result :: results)
      | _ => none

end IntAllocator

end Amqp091

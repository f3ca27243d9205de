import Amqp091.Shared.BigEndian

/-! # Field values and tables -/

namespace Amqp091

open ByteCodec

/-- A point in time: Unix seconds as the 64-bit value `Unix()` returns, and the
nanoseconds within that second. -/
structure Time where
  sec : Int64
  nsec : ℕ
  deriving DecidableEq, Repr

/-- `time.Time{}`, midnight of 1 January of year 1. -/
def Time.zero : Time := ⟨-62135596800, 0⟩

def Time.isZero (t : Time) : Bool := t = Time.zero

def Time.unix (t : Time) : Int64 := t.sec

/-- `time.Unix(sec, 0)`. -/
def Time.ofUnix (sec : Int64) : Time := ⟨sec, 0⟩

structure Decimal where
  scale : UInt8
  value : Int32
  deriving DecidableEq, Repr

/-- The dynamic values a `Table` may hold. Strings are byte strings, floating-point
numbers are bit patterns, and a table lists its entries in the order in which one
`range` over the map visits them. `other` is a value of any unsupported Go type. -/
inductive Field where
  | nil
  | bool (v : Bool)
  | byte (v : UInt8)
  | int8 (v : Int8)
  | int16 (v : Int16)
  | int (v : Int64)
  | int32 (v : Int32)
  | int64 (v : Int64)
  | float32 (bits : UInt32)
  | float64 (bits : UInt64)
  | decimal (v : Decimal)
  | string (v : Bytes)
  | bytes (v : Bytes)
  | time (v : Time)
  | array (vs : List Field)
  | table (es : List (Bytes × Field))
  | other (goType : String)
  deriving Repr

abbrev Table := List (Bytes × Field)

/-- `t[key] = value`. -/
def Table.set (t : Table) (key : Bytes) (value : Field) : Table :=
  match t with
  | [] => [(key, value)]
  | (k, v) :: es => if k = key then (key, value) :: es else (k, v) :: Table.set es key value

end Amqp091

import Amqp091.Shared.Output
import Amqp091.Model.Error
import Amqp091.Model.Field

/-! # Encoding of strings, field values and tables -/

namespace Amqp091

open ByteCodec

/-- The length is narrowed to eight bits before the slice is taken. -/
def writeShortstr (s : Bytes) : Output GoError Unit := do
  let length := UInt8.ofNat s.length
  Output.emit (putBE 1 length.toNat)
  Output.emit (s.take length.toNat)

def writeLongstr (s : Bytes) : Output GoError Unit := do
  let length := UInt32.ofNat s.length
  Output.emit (putBE 4 length.toNat)
  Output.emit (s.take length.toNat)

mutual

def writeField : Field → Output GoError Unit
  | .bool v => Output.emit ['t'.toUInt8, if v then 1 else 0]
  | .byte v => Output.emit ['B'.toUInt8, v]
  | .int8 v => Output.emit ['b'.toUInt8, v.toUInt8]
  | .int16 v => Output.emit ('s'.toUInt8 :: putBE 2 v.toUInt16.toNat)
  -- `uint32(v)` keeps the low half of a Go `int`
  | .int v => Output.emit ('I'.toUInt8 :: putBE 4 v.toUInt64.toUInt32.toNat)
  | .int32 v => Output.emit ('I'.toUInt8 :: putBE 4 v.toUInt32.toNat)
  | .int64 v => Output.emit ('l'.toUInt8 :: putBE 8 v.toUInt64.toNat)
  | .float32 bits => Output.emit ('f'.toUInt8 :: putBE 4 bits.toNat)
  | .float64 bits => Output.emit ('d'.toUInt8 :: putBE 8 bits.toNat)
  | .decimal v => Output.emit ('D'.toUInt8 :: v.scale :: putBE 4 v.value.toUInt32.toNat)
  | .string v => Output.emit ('S'.toUInt8 :: putBE 4 v.length ++ v)
  | .array vs => do
      let sec ← (writeElems vs).capture
      Output.emit ('A'.toUInt8 :: putBE 4 sec.length)
      Output.emit sec
  | .time v => Output.emit ('T'.toUInt8 :: putBE 8 v.unix.toUInt64.toNat)
  | .table es => do
      Output.emit ['F'.toUInt8]
      let buf ← (writeEntries es).capture
      writeLongstr buf
  | .bytes v => do
      Output.emit ('x'.toUInt8 :: putBE 4 v.length)
      Output.emit v
  | .nil => Output.emit ['V'.toUInt8]
  | .other _ => Output.throw errFieldType

/-- The loop over the elements of a field array. -/
def writeElems : List Field → Output GoError Unit
  | [] => pure ()
  | v :: vs => do
      writeField v
      writeElems vs

/-- The loop over the entries of a table, in the order the iteration visits them. -/
def writeEntries : Table → Output GoError Unit
  | [] => pure ()
  | (key, val) :: es => do
      writeShortstr key
      writeField val
      writeEntries es

end

def writeTable (table : Table) : Output GoError Unit := do
  let buf ← (writeEntries table).capture
  writeLongstr buf

end Amqp091

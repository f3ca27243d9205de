import Amqp091.Algorithm.ReadField
import Amqp091.Shared.SourceReader

/-! # Decoding of field values through nested readers

The functions of `read.go` on an `io.Reader` that may be an `io.LimitedReader` over another
one. Arrays put one more limit on top, tables are read from a buffer of their own. -/

namespace Amqp091

namespace OnSource

open ByteCodec SourceReader

abbrev FieldReader := SourceReader GoError

def readShortstr : FieldReader Bytes := do
  let length ← readUInt8
  readFull length.toNat

def readLongstr : FieldReader Bytes := do
  let length ← readUInt32
  if length.toNat > 0x7fffffff then
    return []
  readFull length.toNat

def readDecimal : FieldReader Decimal := do
  let scale ← readUInt8
  let value ← readUInt32
  return ⟨scale, value.toInt32⟩

def readTimestamp : FieldReader Time := do
  let sec ← readUInt64
  return Time.ofUnix sec.toInt64

def readSlice (n : Int32) : FieldReader Bytes :=
  if n.toInt < 0 then panic else readFull n.toInt.toNat

def readFieldSwitch (readArray : FieldReader (List Field)) (readTable : FieldReader Table)
    (typ : UInt8) : FieldReader Field :=
  match Char.ofUInt8 typ with
  | 't' => do
      let value ← readUInt8
      return .bool (value ≠ 0)
  | 'B' => do
      let value ← readUInt8
      return .byte value
  | 'b' => do
      let value ← readUInt8
      return .int8 value.toInt8
  | 's' => do
      let value ← readUInt16
      return .int16 value.toInt16
  | 'I' => do
      let value ← readUInt32
      return .int32 value.toInt32
  | 'l' => do
      let value ← readUInt64
      return .int64 value.toInt64
  | 'f' => do
      let value ← readUInt32
      return .float32 value
  | 'd' => do
      let value ← readUInt64
      return .float64 value
  | 'D' => do
      let value ← readDecimal
      return .decimal value
  | 'S' => do
      let value ← readLongstr
      return .string value
  | 'A' => do
      let value ← readArray
      return .array value
  | 'T' => do
      let value ← readTimestamp
      return .time value
  | 'F' => do
      let value ← readTable
      return .table value
  | 'x' => do
      let len ← readUInt32
      let value ← readSlice len.toInt32
      return .bytes value
  | 'V' => return .nil
  | _ => throw (.other errSyntax)

def readFieldBody (readArray : FieldReader (List Field)) (readTable : FieldReader Table) :
    FieldReader Field := do
  let typ ← readUInt8
  readFieldSwitch readArray readTable typ

/-- The loop of `readTable` asks the buffer for its length. -/
def readEntriesBody (readField : FieldReader Field) (next : Table → FieldReader Table)
    (table : Table) : FieldReader Table := fun nested =>
  if nested.visible = [] then .ok table nested
  else (do
    let key ← readShortstr
    let value ← readField
    next (table.set key value) : FieldReader Table) nested

def readElemsBody (readField : FieldReader Field) (next : List Field → FieldReader (List Field))
    (arr : List Field) : FieldReader (List Field) := do
  match ← attempt readField with
  | .ok field => next (arr ++ [field])
  | .error .eof => return arr
  | .error e => throw e

mutual

def readFieldAux : ℕ → FieldReader Field
  | 0 => timeout
  | fuel + 1 => readFieldBody (readArrayAux fuel) (readTableAux fuel)

def readTableAux : ℕ → FieldReader Table
  | 0 => timeout
  | fuel + 1 => do
      let str ← readLongstr
      onBuffer str (readEntriesAux fuel [])

def readEntriesAux : ℕ → Table → FieldReader Table
  | 0 => fun _ => timeout
  | fuel + 1 => readEntriesBody (readFieldAux fuel) (readEntriesAux fuel)

def readArrayAux : ℕ → FieldReader (List Field)
  | 0 => timeout
  | fuel + 1 => do
      let size ← readUInt32
      limited size.toNat (readElemsAux fuel [])

def readElemsAux : ℕ → List Field → FieldReader (List Field)
  | 0 => fun _ => timeout
  | fuel + 1 => readElemsBody (readFieldAux fuel) (readElemsAux fuel)

end

end OnSource

end Amqp091

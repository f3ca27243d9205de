import Amqp091.Shared.Reader
import Amqp091.Model.Error
import Amqp091.Model.Field

/-! # Decoding of strings, field values and tables

The mutually recursive readers take a bound on the number of nested calls and loop
rounds. `readField`, `readTable` and `readArray` give them a bound that the input
cannot exhaust. -/

namespace Amqp091

open ByteCodec Reader

abbrev FieldReader := Reader GoError

def readShortstr : FieldReader Bytes := do
  let length ← readUInt8
  readFull length.toNat

/-- A length above the largest `int32` returns the empty string and no error. -/
def readLongstr : FieldReader Bytes := do
  let length ← readUInt32
  if length.toNat > 0x7fffffff then
    return []
  readFull length.toNat

def readDecimal : FieldReader Decimal := do
  let scale ← readUInt8
  let value ← readUInt32
  return ⟨scale, value.toInt32⟩

def readTimestamp : FieldReader Time := do
  let sec ← readUInt64
  return Time.ofUnix sec.toInt64

/-- `make([]byte, n)` followed by `io.ReadFull`, for a signed length. -/
def readSlice (n : Int32) : FieldReader Bytes :=
  if n.toInt < 0 then panic else readFull n.toInt.toNat

/-- The type switch of `readField`, over the readers of nested values. -/
def readFieldSwitch (readArray : FieldReader (List Field)) (readTable : FieldReader Table)
    (typ : UInt8) : FieldReader Field :=
  match Char.ofUInt8 typ with
  | 't' => do
      let value ← readUInt8
      return .bool (value ≠ 0)
  | 'B' => do
      let value ← readUInt8
      return .byte value
  | 'b' => do
      let value ← readUInt8
      return .int8 value.toInt8
  | 's' => do
      let value ← readUInt16
      return .int16 value.toInt16
  | 'I' => do
      let value ← readUInt32
      return .int32 value.toInt32
  | 'l' => do
      let value ← readUInt64
      return .int64 value.toInt64
  | 'f' => do
      let value ← readUInt32
      return .float32 value
  | 'd' => do
      let value ← readUInt64
      return .float64 value
  | 'D' => do
      let value ← readDecimal
      return .decimal value
  | 'S' => do
      let value ← readLongstr
      return .string value
  | 'A' => do
      let value ← readArray
      return .array value
  | 'T' => do
      let value ← readTimestamp
      return .time value
  | 'F' => do
      let value ← readTable
      return .table value
  | 'x' => do
      let len ← readUInt32
      let value ← readSlice len.toInt32
      return .bytes value
  | 'V' => return .nil
  | _ => throw (.other errSyntax)

def readFieldBody (readArray : FieldReader (List Field)) (readTable : FieldReader Table) :
    FieldReader Field := do
  let typ ← readUInt8
  readFieldSwitch readArray readTable typ

/-- One round of the loop of `readTable` over what is left of the nested buffer. -/
def readEntriesBody (readField : FieldReader Field) (next : Table → FieldReader Table)
    (table : Table) : FieldReader Table := fun nested =>
  if nested = [] then .ok table []
  else (do
    let key ← readShortstr
    let value ← readField
    next (table.set key value) : FieldReader Table) nested

/-- One round of the loop of `readArray`: the loop ends at the first `io.EOF`,
wherever that comes from. -/
def readElemsBody (readField : FieldReader Field) (next : List Field → FieldReader (List Field))
    (arr : List Field) : FieldReader (List Field) := do
  match ← attempt readField with
  | .ok field => next (arr ++ [field])
  | .error .eof => return arr
  | .error e => throw e

mutual

def readFieldAux : ℕ → FieldReader Field
  | 0 => timeout
  | fuel + 1 => readFieldBody (readArrayAux fuel) (readTableAux fuel)

def readTableAux : ℕ → FieldReader Table
  | 0 => timeout
  | fuel + 1 => do
      let str ← readLongstr
      onBuffer str (readEntriesAux fuel [])

def readEntriesAux : ℕ → Table → FieldReader Table
  | 0 => fun _ => timeout
  | fuel + 1 => readEntriesBody (readFieldAux fuel) (readEntriesAux fuel)

def readArrayAux : ℕ → FieldReader (List Field)
  | 0 => timeout
  | fuel + 1 => do
      let size ← readUInt32
      limited size.toNat (readElemsAux fuel [])

def readElemsAux : ℕ → List Field → FieldReader (List Field)
  | 0 => fun _ => timeout
  | fuel + 1 => readElemsBody (readFieldAux fuel) (readElemsAux fuel)

end

/-- Two rounds for each byte are enough: a call of `readField` consumes its type byte. -/
def fuelFor (bs : Bytes) : ℕ := 2 * bs.length + 2

def readField : FieldReader Field := fun r => readFieldAux (fuelFor r) r

def readTable : FieldReader Table := fun r => readTableAux (fuelFor r) r

def readEntries (table : Table) : FieldReader Table := fun r => readEntriesAux (fuelFor r) table r

def readArray : FieldReader (List Field) := fun r => readArrayAux (fuelFor r) r

def readElems (arr : List Field) : FieldReader (List Field) := fun r =>
  readElemsAux (fuelFor r) arr r

end Amqp091

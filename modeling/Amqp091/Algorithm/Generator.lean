import Amqp091.Algorithm.Method

/-! # The code generator

How `spec/gen.go` turns the fields of a method into the bodies of `write` and `read`.
`Fieldsets` groups the fields in place, and one template is run for each group. -/

namespace Amqp091

open ByteCodec Reader

inductive AmqpType where
  | bit
  | octet
  | shortshort
  | short
  | long
  | longlong
  | shortstr
  | longstr
  | table
  deriving DecidableEq, Repr

/-- The native types. -/
abbrev AmqpType.Val : AmqpType → Type
  | .bit => Bool
  | .octet => UInt8
  | .shortshort => UInt8
  | .short => UInt16
  | .long => UInt32
  | .longlong => UInt64
  | .shortstr => Bytes
  | .longstr => Bytes
  | .table => Table

def AmqpType.zero : (t : AmqpType) → t.Val
  | .bit => false
  | .octet => (0 : UInt8)
  | .shortshort => (0 : UInt8)
  | .short => (0 : UInt16)
  | .long => (0 : UInt32)
  | .longlong => (0 : UInt64)
  | .shortstr => ([] : Bytes)
  | .longstr => ([] : Bytes)
  | .table => ([] : Table)

/-- `name` is the name of the member that the field becomes. -/
structure SpecField where
  name : String
  type : AmqpType
  deriving DecidableEq, Repr

/-- The members of a struct have distinct names. -/
structure MethodDefinition where
  fields : List SpecField
  distinct : (fields.map SpecField.name).Nodup

/-- The fields of a set have its type and are given by their names. -/
structure Fieldset where
  amqpType : AmqpType
  names : List String
  deriving DecidableEq, Repr

/-- The second loop of `Fieldsets`, with a bound on its rounds: `f[i]` is the last set so
far, `f[j]` the next one to be looked at. An index out of range is a panic. -/
def mergeLoop : ℕ → List Fieldset → ℕ → ℕ → Option (List Fieldset)
  | 0, _, _, _ => none
  | rounds + 1, f, i, j =>
      if j < f.length then
        match f[i]?, f[j]? with
        | some a, some b =>
            if a.amqpType = b.amqpType then
              mergeLoop rounds (f.set i { a with names := a.names ++ b.names }) i (j + 1)
            else mergeLoop rounds (f.set (i + 1) b) (i + 1) (j + 1)
        | _, _ => none
      else some (f.take (i + 1))

def fieldsets (fields : List SpecField) : Option (List Fieldset) :=
  if fields.length > 0 then
    mergeLoop fields.length (fields.map fun field => ⟨field.type, [field.name]⟩) 0 1
  else some []

/-! ## The templates -/

/-- A struct with a member for each field. -/
abbrev Record : Type := (field : SpecField) → field.type.Val

def Record.get (msg : Record) (t : AmqpType) (names : List String) : List t.Val :=
  names.map fun name => msg ⟨name, t⟩

/-- Assigns values to the fields of a set, one after the other. -/
def Record.set (msg : Record) (t : AmqpType) : List String → List t.Val → Record
  | name :: names, v :: vs => Record.set (Function.update msg ⟨name, t⟩ v) t names vs
  | _, _ => msg

/-- The same statement for each of the values. -/
def encEach {α : Type} (w : α → Output GoError Unit) : List α → Output GoError Unit
  | [] => pure ()
  | v :: vs => do
      w v
      encEach w vs

def enc (bits : UInt8) : (t : AmqpType) → List t.Val → Output GoError Unit
  | .bit, vs => Output.emit (putBE 1 (setBits bits 0 vs).toNat)
  | .octet, vs => encEach (fun v : UInt8 => Output.emit (putBE 1 v.toNat)) vs
  | .shortshort, vs => encEach (fun v : UInt8 => Output.emit (putBE 1 v.toNat)) vs
  | .short, vs => encEach (fun v : UInt16 => Output.emit (putBE 2 v.toNat)) vs
  | .long, vs => encEach (fun v : UInt32 => Output.emit (putBE 4 v.toNat)) vs
  | .longlong, vs => encEach (fun v : UInt64 => Output.emit (putBE 8 v.toNat)) vs
  | .shortstr, vs => encEach writeShortstr vs
  | .longstr, vs => encEach writeLongstr vs
  | .table, vs => encEach writeTable vs

/-- The accumulator `bits` after the statements of a set. -/
def bitsAfterSet (bits : UInt8) : (t : AmqpType) → List t.Val → UInt8
  | .bit, vs => setBits bits 0 vs
  | _, _ => bits

/-- One variable `bits` is declared at the top of the body. -/
def writeBody (bits : UInt8) (msg : Record) : List Fieldset → Output GoError Unit
  | [] => pure ()
  | set :: sets => do
      enc bits set.amqpType (msg.get set.amqpType set.names)
      writeBody (bitsAfterSet bits set.amqpType (msg.get set.amqpType set.names)) msg sets

/-- The same statement for each of `n` fields. -/
def decEach {α : Type} (p : FieldReader α) : ℕ → FieldReader (List α)
  | 0 => pure []
  | n + 1 => do
      let v ← p
      let vs ← decEach p n
      return v :: vs

def dec : (t : AmqpType) → ℕ → FieldReader (List t.Val)
  | .bit, n => do
      let bits ← readUInt8
      return (getBits n bits).toList
  | .octet, n => decEach readUInt8 n
  | .shortshort, n => decEach readUInt8 n
  | .short, n => decEach readUInt16 n
  | .long, n => decEach readUInt32 n
  | .longlong, n => decEach readUInt64 n
  | .shortstr, n => decEach readShortstr n
  | .longstr, n => decEach readLongstr n
  | .table, n => decEach readTable n

def readBody (msg : Record) : List Fieldset → FieldReader Record
  | [] => pure msg
  | set :: sets => do
      let vs ← dec set.amqpType set.names.length
      readBody (msg.set set.amqpType set.names vs) sets

/-- `read` into a fresh struct. -/
def readMethod (sets : List Fieldset) : FieldReader Record :=
  readBody (fun field => field.type.zero) sets

def writeMethod (sets : List Fieldset) (msg : Record) : Output GoError Unit :=
  writeBody 0 msg sets

end Amqp091

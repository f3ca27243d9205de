import Amqp091.Model.Field

/-! # Validation of tables -/

namespace Amqp091

open ByteCodec

/-- What the text of a validation error says: the path to the value and its Go type. -/
inductive ValidateError where
  | unsupported (goType : String)
  | inArray (e : ValidateError)
  | tableField (key : Bytes) (e : ValidateError)
  deriving DecidableEq, Repr

mutual

def validateField : Field → Except ValidateError Unit
  | .array vs => validateElems vs
  | .table es => validateEntries es
  | .other goType => .error (.unsupported goType)
  | _ => .ok ()

/-- The loop over a field array. -/
def validateElems : List Field → Except ValidateError Unit
  | [] => .ok ()
  | v :: vs =>
      match validateField v with
      | .error e => .error (.inArray e)
      | .ok _ => validateElems vs

/-- The loop over a table, in the order the iteration visits its entries. -/
def validateEntries : Table → Except ValidateError Unit
  | [] => .ok ()
  | (key, v) :: es =>
      match validateField v with
      | .error e => .error (.tableField key e)
      | .ok _ => validateEntries es

end

def Table.validate (t : Table) : Except ValidateError Unit := validateField (.table t)

end Amqp091

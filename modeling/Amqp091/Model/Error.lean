import Mathlib.Data.Nat.Notation

/-! # Errors returned by the library -/

namespace Amqp091

def accessRefusedCode : ℕ := 403
def frameErrorCode : ℕ := 501
def syntaxErrorCode : ℕ := 502
def commandInvalidCode : ℕ := 503
def channelErrorCode : ℕ := 504

/-- The exported `Error`: code and reason, who raised it and whether it is soft. -/
structure Error where
  code : ℕ
  reason : String
  server : Bool := false
  recover : Bool := false
  deriving DecidableEq, Repr

/-- Error values that are not end-of-file conditions: an `Error` of this library, or
the text of an error made by `errors.New` or `fmt.Errorf`. -/
inductive GoError where
  | amqp (e : Error)
  | text (message : String)
  deriving DecidableEq, Repr

def errClosed : GoError :=
  .amqp { code := channelErrorCode, reason := "channel/connection is not open" }

def errChannelMax : GoError :=
  .amqp { code := channelErrorCode, reason := "channel id space exhausted" }

def errCommandInvalid : GoError :=
  .amqp { code := commandInvalidCode, reason := "unexpected command received" }

def errSyntax : GoError :=
  .amqp { code := syntaxErrorCode, reason := "invalid field or value inside of a frame" }

def errFrame : GoError :=
  .amqp { code := frameErrorCode, reason := "frame could not be parsed" }

def errFieldType : GoError :=
  .amqp { code := syntaxErrorCode, reason := "unsupported table field type" }

def errSASL : GoError :=
  .amqp { code := accessRefusedCode, reason := "SASL could not negotiate a shared mechanism" }

def errCredentials : GoError :=
  .amqp { code := accessRefusedCode, reason := "username or password not allowed" }

def errVhost : GoError :=
  .amqp { code := accessRefusedCode, reason := "no access to this vhost" }

def errHeartbeatPayload : GoError := .text "Heartbeats should not have a payload"

def errUnknownMethod (methodId classId : UInt16) : GoError :=
  .text ("Bad method frame, unknown method " ++ toString methodId.toNat ++
    " for class " ++ toString classId.toNat)

def errUnknownClass (classId : UInt16) : GoError :=
  .text ("Bad method frame, unknown class " ++ toString classId.toNat)

end Amqp091

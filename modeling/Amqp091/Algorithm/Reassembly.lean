import Amqp091.Algorithm.Receive

/-! # The fields of the reassembly

The receive functions over the fields of the channel, which keep their values when the
state machine is reset. A nil field that is used is a panic, and so is `none`. -/

namespace Amqp091

open ByteCodec

inductive RecvFunc where
  | recvMethod
  | recvHeader
  | recvContent
  deriving DecidableEq, Repr

/-- `header` holds the size and the properties of the header frame, and `cap` the capacity
of the slice `body`. -/
structure Reassembly where
  recv : RecvFunc
  message : Option Message
  header : Option (UInt64 × Properties)
  body : Bytes
  cap : ℕ

namespace Reassembly

/-- The fields of a new channel. -/
def start : Reassembly := ⟨.recvMethod, none, none, [], 0⟩

abbrev StepResult := Option (Reassembly × Option Dispatched)

def transition (ch : Reassembly) (f : RecvFunc) : Reassembly := { ch with recv := f }

/-- `ch.message.setContent(ch.header.Properties, ch.body)`, and the message for `dispatch`. -/
def content (ch : Reassembly) : Option Dispatched := do
  let message ← ch.message
  let header ← ch.header
  return .content message header.2 ch.body

/-- The end of `recvHeader` and `recvContent` when the message is complete. -/
def complete (ch : Reassembly) : StepResult := do
  let dispatched ← ch.content
  return (ch.transition .recvMethod, some dispatched)

def recvMethod (ch : Reassembly) : Frame → StepResult
  | .method _ _ _ (some m) =>
      if m.hasContent then
        some ({ ch with body := [], cap := 0, message := some m }.transition .recvHeader, none)
      else some (ch.transition .recvMethod, some (.method (some m)))
  | .method _ _ _ none => some (ch.transition .recvMethod, some (.method none))
  | .header .. => some (ch.transition .recvMethod, none)
  | .body .. => some (ch.transition .recvMethod, none)
  | .heartbeat _ => none

def recvHeader (ch : Reassembly) : Frame → StepResult
  | f@(.method ..) => ch.recvMethod f
  | .header _ _ _ size properties =>
      let ch := { ch with header := some (size, properties) }
      if size = 0 then ch.complete else some (ch.transition .recvContent, none)
  | .body .. => some (ch.transition .recvMethod, none)
  | .heartbeat _ => none

def recvContent (rt : GoRuntime) (ch : Reassembly) : Frame → StepResult
  | f@(.method ..) => ch.recvMethod f
  | .header .. => some (ch.transition .recvMethod, none)
  | .body _ chunk => do
      let header ← ch.header
      let (body, cap) ← reserveBody rt header.1 ch.body ch.cap
      let body := body ++ chunk
      let cap ← appendCap rt cap body.length
      let ch := { ch with body, cap }
      if header.1 ≤ UInt64.ofNat body.length then ch.complete
      else some (ch.transition .recvContent, none)
  | .heartbeat _ => none

/-- `channel.recv(channel, f)`. -/
def step (rt : GoRuntime) (ch : Reassembly) (f : Frame) : StepResult :=
  match ch.recv with
  | .recvMethod => ch.recvMethod f
  | .recvHeader => ch.recvHeader f
  | .recvContent => ch.recvContent rt f

/-- What is dispatched for a sequence of frames, up to a panic, and the fields behind it. -/
def run (rt : GoRuntime) : Reassembly → List Frame → List Dispatched × Option Reassembly
  | ch, [] => ([], some ch)
  | ch, f :: fs =>
      match ch.step rt f with
      | none => ([], none)
      | some (ch, out) => (out.toList ++ (run rt ch fs).1, (run rt ch fs).2)

end Reassembly

end Amqp091

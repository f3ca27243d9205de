import Amqp091.Model.Content
import Mathlib.Logic.Function.Basic

/-! # Reassembly of messages

The state of a channel's `recv` function together with the fields that are live in it.
`none` is a panic. -/

namespace Amqp091

open ByteCodec

/-- In `recvContent` the buffer has the capacity `cap`, zero until its first use. -/
inductive RecvState where
  | recvMethod
  | recvHeader (message : Message)
  | recvContent (message : Message) (size : UInt64) (properties : Properties)
      (body : Bytes) (cap : ℕ)

/-- The next state, and what was passed to `dispatch`. -/
abbrev RecvResult := Option (RecvState × Option Dispatched)

def recvMethod : Frame → RecvResult
  | .method _ _ _ (some m) =>
      if m.hasContent then some (.recvHeader m, none)
      else some (.recvMethod, some (.method (some m)))
  | .method _ _ _ none => some (.recvMethod, some (.method none))
  | .header .. => some (.recvMethod, none)
  | .body .. => some (.recvMethod, none)
  | .heartbeat _ => none

def recvHeader (message : Message) : Frame → RecvResult
  | f@(.method ..) => recvMethod f
  | .header _ _ _ size properties =>
      if size = 0 then some (.recvMethod, some (.content message properties []))
      else some (.recvContent message size properties [] 0, none)
  | .body .. => some (.recvMethod, none)
  | .heartbeat _ => none

/-- `if cap(ch.body) == 0 { ch.body = make([]byte, 0, ch.header.Size) }`. -/
def reserveBody (rt : GoRuntime) (size : UInt64) (body : Bytes) (cap : ℕ) :
    Option (Bytes × ℕ) :=
  if cap = 0 then
    if size.toNat ≤ rt.maxAlloc then some ([], size.toNat) else none
  else some (body, cap)

/-- The capacity after `append` has left `newLen` bytes in a slice of capacity `cap`. -/
def appendCap (rt : GoRuntime) (cap newLen : ℕ) : Option ℕ :=
  if newLen ≤ cap then some cap
  else if rt.grow cap newLen ≤ rt.maxAlloc then some (rt.grow cap newLen) else none

def recvContent (rt : GoRuntime) (message : Message) (size : UInt64)
    (properties : Properties) (body : Bytes) (cap : ℕ) : Frame → RecvResult
  | f@(.method ..) => recvMethod f
  | .header .. => some (.recvMethod, none)
  | .body _ chunk => do
      let (body, cap) ← reserveBody rt size body cap
      let body := body ++ chunk
      let cap ← appendCap rt cap body.length
      if size ≤ UInt64.ofNat body.length then
        return (.recvMethod, some (.content message properties body))
      return (.recvContent message size properties body cap, none)
  | .heartbeat _ => none

/-- `channel.recv(channel, f)`. -/
def recv (rt : GoRuntime) : RecvState → Frame → RecvResult
  | .recvMethod, f => recvMethod f
  | .recvHeader message, f => recvHeader message f
  | .recvContent message size properties body cap, f =>
      recvContent rt message size properties body cap f

/-- The receivers of all channels, and what each has dispatched. -/
structure Receivers where
  state : UInt16 → RecvState
  dispatched : UInt16 → List Dispatched

def Receivers.start : Receivers := ⟨fun _ => .recvMethod, fun _ => []⟩

/-- A frame goes to the receiver of its channel. -/
def Receivers.step (rt : GoRuntime) (r : Receivers) (f : Frame) : Option Receivers := do
  let (state, out) ← recv rt (r.state f.channel) f
  return { state := Function.update r.state f.channel state
           dispatched := Function.update r.dispatched f.channel
             (r.dispatched f.channel ++ out.toList) }

def Receivers.feed (rt : GoRuntime) (r : Receivers) (frames : List Frame) : Option Receivers :=
  frames.foldlM (Receivers.step rt) r

end Amqp091

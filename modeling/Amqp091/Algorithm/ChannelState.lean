import Amqp091.Algorithm.Channel
import Amqp091.Algorithm.Confirming

/-! # Interleavings on one channel

The goroutines that publish, acknowledge, make requests or shut the channel down, and the
connection's reader. `Publish`, `Ack`, `Nack`, `Reject` and the reply to `channel.close`
hold `ch.m` from their first effect to their last; requests and the reply to
`channel.flow` do not take it. -/

namespace Amqp091

variable {rt : GoRuntime}

/-- The call that holds `ch.m`. `dc` points to the deferred confirmation of a publish. -/
structure Holder (rt : GoRuntime) where
  call : Call rt
  dc : Option ℕ
  point : Point

/-- A send that does not hold `ch.m`. -/
structure Sender where
  message : Message
  unlocked : message.method.sentUnlocked = true
  point : Point

def Sender.outgoing (x : Sender) : Outgoing rt :=
  .plain x.message (Method.hasContent_of_sentUnlocked x.unlocked)

/-- `busy` means that `One` or `Multiple` holds `confirms.m`; `destroyed` that the body of
`shutdown` has run. `returned` lists the deferred confirmations that calls of
`PublishWithDeferredConfirm` have returned. -/
structure ChannelState (rt : GoRuntime) where
  link : Link
  holder : Option (Holder rt)
  senders : List Sender
  confirming : Bool
  confirms : Confirms ℕ
  busy : Bool
  destroyed : Bool
  returned : List ℕ

inductive ChannelAction (rt : GoRuntime) where
  | lock (call : Call rt)
  | step (t : Transport)
  | unlock
  | call (m : Message) (unlocked : m.method.sentUnlocked = true)
  | stepSender (k : ℕ) (t : Transport)
  | setClosed
  | setConnectionClosed
  | confirm
  | serverConfirm (e : ServerConfirm)
  | resequence
  | shutdown

namespace ChannelState

/-- `ch.m.Lock()` and, in a publish, the counting that comes before the send. -/
def enter (s : ChannelState rt) (call : Call rt) : ChannelState rt :=
  if call.isPublish ∧ s.confirming = true then
    { s with
      confirms := s.confirms.publish.1
      holder := some ⟨call, some s.confirms.publish.2, .send⟩ }
  else { s with holder := some ⟨call, none, .send⟩ }

/-- What follows the send, and `ch.m.Unlock()`. A panic runs the unlock only. -/
def leave (s : ChannelState rt) (call : Call rt) (dc : Option ℕ) :
    Outcome → ChannelState rt
  | .returned none => { s with holder := none, returned := s.returned ++ dc.toList }
  | .returned (some _) =>
      if call.isPublish ∧ s.confirming = true then
        { s with holder := none, confirms := s.confirms.unpublish }
      else { s with holder := none }
  | .panicked => { s with holder := none }

/-- One step of the call that holds `ch.m`. -/
def stepHolder (frameSize : ℤ) (id : UInt16) (s : ChannelState rt) (t : Transport) :
    Option (ChannelState rt) :=
  match s.holder with
  | none => none
  | some h =>
      (s.link.step frameSize id h.call.message t h.point).map fun (link, point) =>
        { s with link := link, holder := some { h with point := point } }

/-- One step of a send that does not hold `ch.m`. -/
def stepSender (frameSize : ℤ) (id : UInt16) (s : ChannelState rt) (k : ℕ) (t : Transport) :
    Option (ChannelState rt) :=
  match s.senders[k]? with
  | none => none
  | some x =>
      (s.link.step frameSize id (x.outgoing : Outgoing rt) t x.point).map fun (link, point) =>
        { s with link := link, senders := s.senders.set k { x with point := point } }

/-- `shutdown` sets the flag first and runs its body once. The body holds `ch.m` and, in
`confirms.Close`, `confirms.m`. -/
def next (frameSize : ℤ) (id : UInt16) (s : ChannelState rt) :
    ChannelAction rt → Option (ChannelState rt)
  | .lock call => if s.holder.isNone then some (s.enter call) else none
  | .step t => s.stepHolder frameSize id t
  | .unlock =>
      match s.holder with
      | some ⟨call, dc, .done outcome⟩ => some (s.leave call dc outcome)
      | _ => none
  | .call m unlocked => some { s with senders := s.senders ++ [⟨m, unlocked, .send⟩] }
  | .stepSender k t => s.stepSender frameSize id k t
  | .setClosed => some { s with link := { s.link with closed := true } }
  | .setConnectionClosed => some { s with link := { s.link with connectionClosed := true } }
  | .confirm => some { s with confirming := true }
  | .serverConfirm e =>
      if s.confirming ∧ ¬ s.busy then
        (e.head s.confirms).map fun c => { s with confirms := c, busy := true }
      else none
  | .resequence =>
      if s.busy then some { s with confirms := s.confirms.resequence, busy := false } else none
  | .shutdown =>
      if s.link.closed ∧ s.holder.isNone ∧ ¬ s.busy ∧ ¬ s.destroyed then
        some { s with confirms := s.confirms.close, destroyed := true }
      else none

/-- A channel on which nobody holds `ch.m` and nothing was confirmed. -/
def start (link : Link) (senders : List Sender) (confirming : Bool) : ChannelState rt where
  link := link
  holder := none
  senders := senders
  confirming := confirming
  confirms := Confirms.newConfirms
  busy := false
  destroyed := false
  returned := []

def newChannel : ChannelState rt := start ⟨false, false, false, []⟩ [] false

def deferred (s : ChannelState rt) : DeferredConfirmations ℕ :=
  s.confirms.deferredConfirmations

end ChannelState

/-! ## The reply to `channel.close`

The connection's reader takes the server's `channel.close` through `dispatchN`,
`updateChannel`, `dispatch` and `closeChannel`. -/

/-- What the reader does with a `channel.close` for the channel: nothing yet, it has set the
flag, it holds `ch.m` for its reply, it has replied, or `shutdown` has returned. -/
inductive CloseProgress where
  | idle
  | received
  | replying
  | replied
  | destroyed
  deriving DecidableEq, Repr

/-- `registered` says whether `c.channels` still holds the channel. -/
structure ClosingChannel (rt : GoRuntime) where
  channel : ChannelState rt
  reader : CloseProgress
  registered : Bool

/-- `unregister` is the end of the channel for another reason. -/
inductive ClosingAction (rt : GoRuntime) where
  | channel (a : ChannelAction rt)
  | receiveClose
  | lock
  | unlock
  | shutdown
  | releaseChannel
  | unregister

/-- Steps of other goroutines than the reader, without requests. -/
def ChannelAction.byOthers : ChannelAction rt → Bool
  | .lock .closeOk | .call _ _ | .stepSender _ _ => false
  | _ => true

namespace ClosingChannel

/-- `updateChannel`. -/
def receiveClose (s : ClosingChannel rt) : Option (ClosingChannel rt) :=
  if s.reader = .idle ∧ s.registered then
    some { s with
      channel := { s.channel with link := { s.channel.link with closed := true } }
      reader := .received }
  else none

/-- `ch.m.Lock()` in `dispatch`. -/
def lock (s : ClosingChannel rt) : Option (ClosingChannel rt) :=
  if s.reader = .received ∧ s.channel.holder.isNone then
    some { s with channel := s.channel.enter .closeOk, reader := .replying }
  else none

/-- `ch.m.Unlock()`. An error of the reply is only logged. -/
def unlock (s : ClosingChannel rt) : Option (ClosingChannel rt) :=
  match s.channel.holder with
  | some ⟨.closeOk, dc, .done outcome⟩ =>
      some { s with channel := s.channel.leave .closeOk dc outcome, reader := .replied }
  | _ => none

/-- `ch.shutdown`, whose body runs once. -/
def shutdown (frameSize : ℤ) (id : UInt16) (s : ClosingChannel rt) :
    Option (ClosingChannel rt) :=
  if s.reader = .replied then
    if s.channel.destroyed then some { s with reader := .destroyed }
    else (s.channel.next frameSize id .shutdown).map fun channel =>
      { s with channel := channel, reader := .destroyed }
  else none

/-- The channel stays in the map of a connection that is closed. -/
def releaseChannel (s : ClosingChannel rt) : Option (ClosingChannel rt) :=
  if s.reader = .destroyed then
    some { s with
      registered := s.registered && s.channel.link.connectionClosed
      reader := .idle }
  else none

/-- A step of another goroutine. The reader's own reply is ended by `unlock`. -/
def stepOthers (frameSize : ℤ) (id : UInt16) (s : ClosingChannel rt) (a : ChannelAction rt) :
    Option (ClosingChannel rt) :=
  match a, s.channel.holder with
  | .unlock, some ⟨.closeOk, _, _⟩ => none
  | _, _ =>
      if a.byOthers then
        (s.channel.next frameSize id a).map fun channel => { s with channel := channel }
      else none

def next (frameSize : ℤ) (id : UInt16) (s : ClosingChannel rt) :
    ClosingAction rt → Option (ClosingChannel rt)
  | .channel a => s.stepOthers frameSize id a
  | .receiveClose => s.receiveClose
  | .lock => s.lock
  | .unlock => s.unlock
  | .shutdown => s.shutdown frameSize id
  | .releaseChannel => s.releaseChannel
  | .unregister => some { s with registered := false }

def newChannel : ClosingChannel rt := ⟨.newChannel, .idle, true⟩

end ClosingChannel

end Amqp091

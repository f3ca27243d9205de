import Amqp091.Algorithm.CallChannel
import Amqp091.Algorithm.Registry

/-! # Calls on the channels of a connection

All channels of a connection with their calls, the one reader, `openChannel`, `closeChannel`
and `Connection.shutdown`, which shuts down the channels in the registry. The mutex `c.m` is
held from the start of the body of `Connection.shutdown` to its end. -/

namespace Amqp091

/-- Where `openChannel` is with a `Channel`. Only one that is `opened` has been given to the
application. -/
inductive ChannelOpening where
  | absent
  | opening
  | opened
  | failed
  deriving DecidableEq, Repr

/-- How far the body of `Connection.shutdown` is: with the `Channel` whose `shutdown` it waits
for and the channels it has not got to. -/
inductive ConnectionStage where
  | idle
  | shutting (current : Option ChannelRef) (rest : List ChannelRef)
  | finished
  deriving DecidableEq, Repr

/-- `c.m` is held by the body of `shutdown`. -/
def ConnectionStage.isShutting : ConnectionStage → Bool
  | .shutting _ _ => true
  | _ => false

/-- Where the reader is with a method: in `ch.rpc <- msg`, or in `closeChannel` for a
`channel.close`, before the `shutdown` and behind it. -/
inductive CallReader where
  | reading
  | offering (ch : ChannelRef)
  | closing (ch : ChannelRef) (e : Error)
  | releasing (ch : ChannelRef)
  deriving DecidableEq, Repr

/-- `closers` has the channels that `Channel.Close` is about to release. -/
structure CallConnection where
  registry : Registry
  channels : ChannelRef → CallChannel
  opening : ChannelRef → ChannelOpening
  closers : List ChannelRef
  reader : CallReader
  stage : ConnectionStage
  err : Option Error

namespace CallChannel

def Action.isCall : Action → Bool
  | .call _ _ => true
  | _ => false

/-- Steps that leave a method on offer. -/
def Action.endsOffer : Action → Bool
  | .takeReply _ | .giveUp => true
  | _ => false

/-- The steps of calls and of the body of `shutdown`, and the reader giving up. -/
def Action.isOwn : Action → Bool
  | .call _ _ | .offer _ | .setClosed | .shutdown _ => false
  | _ => true

end CallChannel

namespace CallConnection

inductive Action where
  | openChannel
  | opened (ch : ChannelRef)
  | openFailed (ch : ChannelRef)
  | call (ch : ChannelRef) (req : Message) (res : List Method)
  | test (ch : ChannelRef) (i : ℕ)
  | write (ch : ChannelRef) (i : ℕ) (failure : Option String)
  | takeError (ch : ChannelRef) (i : ℕ)
  | takeReply (ch : ChannelRef) (i : ℕ)
  | read (id : UInt16) (m : Message) (e : Error)
  | giveUp
  | readerShutdown
  | readerRelease
  | closeChannel (ch : ChannelRef)
  | release (ch : ChannelRef)
  | sendError (ch : ChannelRef)
  | closeErrors (ch : ChannelRef)
  | finishChannel (ch : ChannelRef)
  | setClosed
  | shutdown (err : Option Error) (order : List ChannelRef)
  | shutdownChannel
  | shutdownReturn
  | finish

def start (channelMax : ℕ) : CallConnection where
  registry := .newRegistry channelMax
  channels := fun _ => {}
  opening := fun _ => .absent
  closers := []
  reader := .reading
  stage := .idle
  err := none

def setChannel (s : CallConnection) (ch : ChannelRef) (o : CallChannel) : CallConnection :=
  { s with channels := Function.update s.channels ch o }

def setOpening (s : CallConnection) (ch : ChannelRef) (phase : ChannelOpening) : CallConnection :=
  { s with opening := Function.update s.opening ch phase }

/-- A step of one channel. -/
def lift (s : CallConnection) (ch : ChannelRef) (a : CallChannel.Action) :
    Option CallConnection :=
  ((s.channels ch).next a).map (s.setChannel ch)

/-- The channels in `c.channels`. -/
def registered (s : CallConnection) : List ChannelRef :=
  match s.registry.channels with
  | some channels => channels.entries.map Sigma.snd
  | none => []

def release (s : CallConnection) (ch : ChannelRef) : Option CallConnection :=
  if s.stage.isShutting then none
  else (s.registry.releaseChannel ch).map fun c => { s with registry := c }

/-- A new `Channel` in the call of `open`. -/
def newChannel : CallChannel :=
  { calls := [⟨⟨.channelOpen, ([], ())⟩, [.channelOpenOk], .start⟩] }

/-- `allocateChannel`, and the call of `open` that follows it. -/
def openChannel (s : CallConnection) : Option CallConnection :=
  if s.stage.isShutting then none
  else
    match s.registry.allocateChannel with
    | some (c, .ok ch) =>
        some (({ s with registry := c }.setChannel ch newChannel).setOpening ch .opening)
    | some (c, .error _) => some { s with registry := c }
    | none => none

/-- What the opening call has returned. -/
def openResult (s : CallConnection) (ch : ChannelRef) : Option ChannelResult :=
  match s.opening ch with
  | .opening => (s.channels ch).calls[0]?.bind fun c => c.phase.result
  | _ => none

/-- `connection.send`. -/
def sendResult (s : CallConnection) (failure : Option String) : Option GoError :=
  if s.registry.closed then some errClosed else failure.map .text

/-- `dispatchN` and `dispatch` for a method frame. `e` is the error of a `channel.close`. What
does not concern calls is left out, and so is the reply of `dispatchClosed`. -/
def read (s : CallConnection) (id : UInt16) (m : Message) (e : Error) : Option CallConnection :=
  match s.reader, s.registry.lookupChannel id with
  | .reading, some ch =>
      if m.method = .channelClose then
        (s.lift ch .setClosed).map fun s => { s with reader := .closing ch e }
      else if m.method.toRpc then
        (s.lift ch (.offer m)).map fun s => { s with reader := .offering ch }
      else some s
  | .reading, none => some s
  | _, _ => none

def next (s : CallConnection) : Action → Option CallConnection
  | .openChannel => s.openChannel
  | .opened ch =>
      match s.openResult ch with
      | some r => if r.err = none then some (s.setOpening ch .opened) else none
      | none => none
  | .openFailed ch =>
      match s.openResult ch with
      | some r =>
          if r.err = none then none else (s.release ch).map fun s => s.setOpening ch .failed
      | none => none
  | .call ch req res => if s.opening ch = .opened then s.lift ch (.call req res) else none
  | .test ch i => s.lift ch (.test i)
  | .write ch i failure => s.lift ch (.write i (s.sendResult failure))
  | .takeError ch i => s.lift ch (.takeError i)
  | .takeReply ch i =>
      if s.reader = .offering ch then
        (s.lift ch (.takeReply i)).map fun s => { s with reader := .reading }
      else none
  | .read id m e => if s.stage.isShutting then none else s.read id m e
  | .giveUp =>
      match s.reader with
      | .offering ch => (s.lift ch .giveUp).map fun s => { s with reader := .reading }
      | _ => none
  | .readerShutdown =>
      match s.reader with
      | .closing ch e =>
          (s.lift ch (.shutdown (some e))).map fun s => { s with reader := .releasing ch }
      | _ => none
  | .readerRelease =>
      match s.reader with
      | .releasing ch =>
          if (s.channels ch).stage = .finished then
            (s.release ch).map fun s => { s with reader := .reading }
          else none
      | _ => none
  -- the deferred call in `Channel.Close`
  | .closeChannel ch =>
      if s.opening ch = .opened then
        (s.lift ch (.shutdown none)).map fun s => { s with closers := ch :: s.closers }
      else none
  | .release ch =>
      if ch ∈ s.closers ∧ (s.channels ch).stage = .finished then
        (s.release ch).map fun s => { s with closers := s.closers.erase ch }
      else none
  | .sendError ch => s.lift ch .sendError
  | .closeErrors ch => s.lift ch .closeErrors
  | .finishChannel ch => s.lift ch .finish
  | .setClosed => some { s with registry := s.registry.setClosed }
  -- the map is ranged over in any order
  | .shutdown err order =>
      if s.stage = .idle ∧ s.registry.closed = true ∧ order.Perm s.registered then
        some { s with stage := .shutting none order, err := err }
      else none
  | .shutdownChannel =>
      match s.stage with
      | .shutting none (ch :: rest) =>
          (s.lift ch (.shutdown s.err)).map fun s => { s with stage := .shutting (some ch) rest }
      | _ => none
  | .shutdownReturn =>
      match s.stage with
      | .shutting (some ch) rest =>
          if (s.channels ch).stage = .finished then some { s with stage := .shutting none rest }
          else none
      | _ => none
  | .finish =>
      match s.stage with
      | .shutting none [] =>
          some { s with registry := s.registry.shutdownBody, stage := .finished }
      | _ => none

end CallConnection

end Amqp091

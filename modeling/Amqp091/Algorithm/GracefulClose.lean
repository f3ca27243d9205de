import Amqp091.Algorithm.ChannelListeners
import Amqp091.Algorithm.ConnectionListeners

/-! # Closing a connection gracefully

`Connection.Close`, the reader and a server that answers `connection.close` and then
closes the transport. Both `Close` and the reader end in `shutdown`, the one without an
error, the other with the error of the read that failed. -/

namespace Amqp091

open Channels

/-- Where `Close` is. `returning` has a result and is about to run the deferred `shutdown`,
`deferred` is inside of it. -/
inductive Closing where
  | start
  | checked
  | waiting
  | returning (result : Option GoError)
  | deferred (result : Option GoError)
  | returned (result : Option GoError)
  deriving DecidableEq, Repr

inductive ClosingServer where
  | idle
  | requested
  | answered
  | gone
  deriving DecidableEq, Repr

/-- `reply` is a `connection.close-ok` that the reader has not handed over yet, `spawned`
the error of a write that failed, on its way to `shutdown`, and `shut` counts the channels
that the loop in `shutdown` has passed. -/
structure GracefulClose where
  connection : ConnectionListeners
  channels : List ChannelListeners
  shut : ℕ
  closer : Closing
  spawned : Option Error
  server : ClosingServer
  reply : Bool

namespace ConnectionListeners

/-- Registering and the body of `shutdown` up to its loop over the channels. -/
def Action.isLocal : Action → Bool
  | .notifyClose | .notifyBlocked | .shutdownReturn | .shutdownNotify | .closeNext
  | .shutdownChannels => true
  | _ => false

end ConnectionListeners

namespace GracefulClose

def start (n : ℕ) : GracefulClose where
  connection := .newConnection
  channels := List.replicate n .newChannel
  shut := 0
  closer := .start
  spawned := none
  server := .idle
  reply := false

/-- The error of a read or write that failed. -/
def transportError (reason : String) : Error := { code := frameErrorCode, reason := reason }

/-- `IsClosed` at the beginning of `Close`. -/
def check (s : GracefulClose) : Option GracefulClose :=
  match s.closer with
  | .start =>
      some { s with closer := if s.connection.closed then .returned (some errClosed) else .checked }
  | _ => none

/-- `send` of `connection.close`, with the error of the write. -/
def send (s : GracefulClose) (failure : Option String) : Option GracefulClose :=
  match s.closer, s.connection.closed, failure with
  | .checked, true, _ => some { s with closer := .returning (some errClosed) }
  | .checked, false, some reason =>
      some { s with
        closer := .returning (some (.text reason))
        spawned := some (transportError reason) }
  | .checked, false, none => some { s with closer := .waiting, server := .requested }
  | _, _, _ => none

/-- `go c.shutdown`, after a write that failed. -/
def spawnedShutdown (s : GracefulClose) : Option GracefulClose :=
  match s.spawned with
  | some e => some { s with connection := s.connection.shutdown (some e), spawned := none }
  | none => none

/-- The reader hands `connection.close-ok` to `Close`, which matches it. -/
def takeReply (s : GracefulClose) : Option GracefulClose :=
  match s.closer, s.connection.reader, s.reply with
  | .waiting, .reading, true => some { s with closer := .returning none, reply := false }
  | _, _, _ => none

/-- `Close` receives from `errors`, which `shutdown` fills or closes. -/
def takeError (s : GracefulClose) : Option GracefulClose :=
  match s.closer, s.connection.destructor with
  | .waiting, .closing e _ | .waiting, .channels e | .waiting, .finished e =>
      some { s with
        closer := .returning (some (match e with | some e => .amqp e | none => errClosed)) }
  | _, _ => none

/-- The reader has stopped and closed `rpc`. -/
def takeClosed (s : GracefulClose) : Option GracefulClose :=
  match s.closer, s.connection.reader with
  | .waiting, .stopped => some { s with closer := .returning (some errCommandInvalid) }
  | _, _ => none

/-- The reader gives the reply up when `close` is closed. -/
def dropReply (s : GracefulClose) : Option GracefulClose :=
  match s.connection.reader, s.reply, s.connection.destructor with
  | .reading, true, .finished _ => some { s with reply := false }
  | _, _, _ => none

/-- The deferred `shutdown(nil)` is entered. -/
def deferredShutdown (s : GracefulClose) : Option GracefulClose :=
  match s.closer with
  | .returning r => some { s with connection := s.connection.shutdown none, closer := .deferred r }
  | _ => none

def closeReturn (s : GracefulClose) : Option GracefulClose :=
  match s.closer, s.connection.destructor with
  | .deferred r, .finished _ => some { s with closer := .returned r }
  | _, _ => none

def answer (s : GracefulClose) : Option GracefulClose :=
  match s.server with
  | .requested => some { s with server := .answered, reply := true }
  | _ => none

def hangUp (s : GracefulClose) : Option GracefulClose :=
  match s.server with
  | .answered => some { s with server := .gone }
  | _ => none

/-- A read fails when the server has closed the transport and nothing is left to read, or
when `shutdown` has closed it. -/
def readError (s : GracefulClose) (reason : String) : Option GracefulClose :=
  match s.server, s.reply, s.connection.destructor with
  | .gone, false, _ | _, _, .finished _ =>
      (s.connection.readError (transportError reason)).map fun c => { s with connection := c }
  | _, _, _ => none

/-- `ch.shutdown(err)` in the loop over the channels. -/
def shutdownChannel (s : GracefulClose) : Option GracefulClose :=
  match s.connection.destructor, s.channels[s.shut]? with
  | .channels e, some ch => some { s with channels := s.channels.set s.shut (ch.shutdown e) }
  | _, _ => none

/-- It has returned. -/
def channelShut (s : GracefulClose) : Option GracefulClose :=
  match s.connection.destructor, s.channels[s.shut]? with
  | .channels _, some ch =>
      if ch.destructor.isFinished then some { s with shut := s.shut + 1 } else none
  | _, _ => none

def shutdownFinish (s : GracefulClose) : Option GracefulClose :=
  if s.shut = s.channels.length then
    s.connection.shutdownFinish.map fun c => { s with connection := c }
  else none

def stepConnection (s : GracefulClose) (a : ConnectionListeners.Action) : Option GracefulClose :=
  if a.isLocal then (s.connection.next a).map fun c => { s with connection := c } else none

/-- Everything but calls of `shutdown`, which come from the connection alone. -/
def stepChannel (s : GracefulClose) (i : ℕ) (a : ChannelListeners.Action) :
    Option GracefulClose :=
  match s.channels[i]?, a.error with
  | some ch, none => (ch.next a).map fun ch => { s with channels := s.channels.set i ch }
  | _, _ => none

inductive Action where
  | check
  | send (failure : Option String)
  | spawnedShutdown
  | takeReply
  | takeError
  | takeClosed
  | dropReply
  | deferredShutdown
  | closeReturn
  | answer
  | hangUp
  | readError (reason : String)
  | shutdownChannel
  | channelShut
  | shutdownFinish
  | connection (a : ConnectionListeners.Action)
  | channel (i : ℕ) (a : ChannelListeners.Action)

def next (s : GracefulClose) : Action → Option GracefulClose
  | .check => s.check
  | .send failure => s.send failure
  | .spawnedShutdown => s.spawnedShutdown
  | .takeReply => s.takeReply
  | .takeError => s.takeError
  | .takeClosed => s.takeClosed
  | .dropReply => s.dropReply
  | .deferredShutdown => s.deferredShutdown
  | .closeReturn => s.closeReturn
  | .answer => s.answer
  | .hangUp => s.hangUp
  | .readError reason => s.readError reason
  | .shutdownChannel => s.shutdownChannel
  | .channelShut => s.channelShut
  | .shutdownFinish => s.shutdownFinish
  | .connection a => s.stepConnection a
  | .channel i a => s.stepChannel i a

end GracefulClose

end Amqp091

import Amqp091.Algorithm.Requests
import Amqp091.Model.Error

/-! # Calls on a channel

Any number of goroutines in `Channel.call`, next to the connection's reader, which offers them
what the server sent, and to `Channel.shutdown`, which fills and closes `errors` and then
closes `close`. -/

namespace Amqp091

/-- How far the body of `Channel.shutdown` is: it has sent its error, it has closed `errors`,
it has closed `close`. -/
inductive ChannelStage where
  | idle
  | entered
  | sent
  | errorsClosed
  | finished
  deriving DecidableEq, Repr

def ChannelStage.hasClosedErrors : ChannelStage → Bool
  | .errorsClosed | .finished => true
  | _ => false

/-- The error of the shutdown, if it has one, is in `errors` or was taken from there. -/
def ChannelStage.hasSent : ChannelStage → Bool
  | .idle | .entered => false
  | _ => true

/-- Where a call returns, and with what: the test of `closed`, the send, without waiting, the
two cases of the `select`. Methods of the server are given by their number. -/
inductive ChannelResult where
  | refused
  | sendError (e : GoError)
  | unanswered
  | ok (k : ℕ)
  | commandInvalid (k : ℕ)
  | shutdownError (e : Error)
  | errorsClosed
  deriving DecidableEq, Repr

namespace ChannelResult

/-- The error that `call` returns. -/
def err : ChannelResult → Option GoError
  | refused | errorsClosed => some errClosed
  | sendError e => some e
  | unanswered | ok _ => none
  | commandInvalid _ => some errCommandInvalid
  | shutdownError e => some (.amqp e)

/-- The method the call has received. -/
def taken : ChannelResult → Option ℕ
  | ok k | commandInvalid k => some k
  | _ => none

end ChannelResult

inductive ChannelCallPhase where
  | start
  | tested
  | waiting
  | returned (r : ChannelResult)
  deriving DecidableEq, Repr

def ChannelCallPhase.result : ChannelCallPhase → Option ChannelResult
  | returned r => some r
  | _ => none

structure ChannelCall where
  req : Message
  res : List Method
  phase : ChannelCallPhase

/-- `errors` is the buffer of the channel of that name. The reader is in `ch.rpc <- msg` with
the last method of `received` while it is `offering`. -/
structure CallChannel where
  closed : Bool := false
  stage : ChannelStage := .idle
  err : Option Error := none
  errors : Option Error := none
  received : List Message := []
  offering : Bool := false
  calls : List ChannelCall := []

namespace CallChannel

inductive Action where
  | call (req : Message) (res : List Method)
  | test (i : ℕ)
  | write (i : ℕ) (err : Option GoError)
  | takeError (i : ℕ)
  | takeReply (i : ℕ)
  | offer (m : Message)
  | giveUp
  | setClosed
  | shutdown (err : Option Error)
  | sendError
  | closeErrors
  | finish

def phaseOf (s : CallChannel) (i : ℕ) : Option ChannelCallPhase :=
  s.calls[i]?.map ChannelCall.phase

def setPhase (s : CallChannel) (i : ℕ) (phase : ChannelCallPhase) : CallChannel :=
  { s with calls := s.calls.modify i fun c => { c with phase } }

/-- `call` after its `send`, which has returned `err`. -/
def afterSend (req : Message) : Option GoError → ChannelCallPhase
  | some e => .returned (.sendError e)
  | none => if req.wait then .waiting else .returned .unanswered

/-- `call` after it has received the method on offer. -/
def replied (s : CallChannel) (res : List Method) : ChannelResult :=
  let k := s.received.length - 1
  if s.received[k]?.any fun m => m.method ∈ res then .ok k else .commandInvalid k

/-- The flag is set in any case, the first caller enters the body. -/
def shutdown (s : CallChannel) (err : Option Error) : CallChannel :=
  if s.stage = .idle then { s with closed := true, stage := .entered, err := err }
  else { s with closed := true }

def next (s : CallChannel) : Action → Option CallChannel
  | .call req res => some { s with calls := s.calls ++ [⟨req, res, .start⟩] }
  -- the later of the two tests in `send`; the flag is never cleared, and a request is never
  -- the `channel.close-ok` that `sendClosed` lets through
  | .test i =>
      match s.phaseOf i with
      | some .start => some (s.setPhase i (if s.closed then .returned .refused else .tested))
      | _ => none
  -- `connection.send`, and what it returns
  | .write i err =>
      match s.calls[i]? with
      | some ⟨req, _, .tested⟩ => some (s.setPhase i (afterSend req err))
      | _ => none
  | .takeError i =>
      match s.phaseOf i, s.errors with
      | some .waiting, some e =>
          some ({ s with errors := none }.setPhase i (.returned (.shutdownError e)))
      | some .waiting, none =>
          if s.stage.hasClosedErrors then some (s.setPhase i (.returned .errorsClosed)) else none
      | _, _ => none
  | .takeReply i =>
      match s.calls[i]?, s.offering with
      | some ⟨_, res, .waiting⟩, true =>
          some ({ s with offering := false }.setPhase i (.returned (s.replied res)))
      | _, _ => none
  -- the default branch of `dispatch`
  | .offer m =>
      if s.offering = false ∧ m.method.toRpc = true then
        some { s with received := s.received ++ [m], offering := true }
      else none
  | .giveUp =>
      if s.offering = true ∧ s.stage = .finished then some { s with offering := false } else none
  -- `updateChannel`
  | .setClosed => some { s with closed := true }
  | .shutdown err => some (s.shutdown err)
  | .sendError =>
      match s.stage, s.err with
      | .entered, some e => some { s with stage := .sent, errors := some e }
      | _, _ => none
  | .closeErrors =>
      match s.stage, s.err with
      | .entered, none => some { s with stage := .errorsClosed }
      | .sent, _ => some { s with stage := .errorsClosed }
      | _, _ => none
  | .finish =>
      match s.stage with
      | .errorsClosed => some { s with stage := .finished }
      | _ => none

end CallChannel

end Amqp091

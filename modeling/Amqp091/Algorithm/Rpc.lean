import Amqp091.Model.Error
import Amqp091.Model.Method

/-! # The two ends of a call

What a `Connection.call` depends on: the reader, which hands methods over through `rpc` and
closes it when it stops, and `shutdown`, which fills and closes `errors`. Next to them any
number of calls. -/

namespace Amqp091

/-- How far the body of `shutdown` is. -/
inductive ShutdownStage where
  | idle
  | entered
  | sent
  | errorsClosed
  | transportClosed
  | finished
  deriving DecidableEq, Repr

/-- `errors` is closed. -/
def ShutdownStage.hasClosedErrors : ShutdownStage → Bool
  | .idle | .entered | .sent => false
  | .errorsClosed | .transportClosed | .finished => true

/-- `conn` is closed. -/
def ShutdownStage.hasClosedTransport : ShutdownStage → Bool
  | .transportClosed | .finished => true
  | _ => false

/-- What the reader does: it reads, it offers a method to the calls, it is about to call
`shutdown` or inside of it, or it has returned and closed `rpc`. It stops after a read
error. -/
inductive RpcReader where
  | reading
  | handing (k : ℕ)
  | failing (e : Error) (stops : Bool)
  | closing (stops : Bool)
  | stopped
  deriving DecidableEq, Repr

def RpcReader.isHanding : RpcReader → Bool
  | .handing _ => true
  | _ => false

def RpcReader.isFailing : RpcReader → Bool
  | .failing _ _ => true
  | _ => false

/-- `err` is the argument of the `shutdown` that runs, `errors` the buffer of the channel,
`spawned` has the errors of writes that failed and whose `go c.shutdown` has not run yet.
The methods that the reader offers to calls are kept in `received`. -/
structure RpcLink where
  closed : Bool
  stage : ShutdownStage
  err : Option Error
  errors : Option Error
  reader : RpcReader
  spawned : List Error
  received : List Message

inductive RpcAction where
  | reply (m : Message)
  | connectionClose (failure : Option String) (e : Error)
  | readError (reason : String)
  | giveUp
  | readerShutdown
  | shutdownReturn
  | write (failure : Option String)
  | spawnedShutdown (e : Error)
  | shutdown (err : Option Error)
  | sendError
  | closeErrors
  | closeTransport
  | finish

namespace RpcLink

/-- `Open` has started the reader. -/
def start : RpcLink where
  closed := false
  stage := .idle
  err := none
  errors := none
  reader := .reading
  spawned := []
  received := []

def frameError (reason : String) : Error := { code := frameErrorCode, reason := reason }

/-- A write that fails leaves a `shutdown` behind. -/
def write (s : RpcLink) : Option String → RpcLink
  | some reason => { s with spawned := s.spawned ++ [frameError reason] }
  | none => s

/-- `send`, with the error of the write if it comes to one. -/
def send (s : RpcLink) (failure : Option String) : RpcLink × Option GoError :=
  if s.closed then (s, some errClosed) else (s.write failure, failure.map .text)

/-- The flag is set in any case, the first caller enters the body. -/
def shutdown (s : RpcLink) (err : Option Error) : RpcLink :=
  if s.stage = .idle then { s with closed := true, stage := .entered, err := err }
  else { s with closed := true }

/-- The methods that `dispatch0` does not hand over. -/
def handled : Method → Bool
  | .connectionClose | .connectionBlocked | .connectionUnblocked => true
  | _ => false

/-- The reader and `shutdown`. Every other goroutine may write and may call `shutdown`. -/
def next (s : RpcLink) : RpcAction → Option RpcLink
  | .reply m =>
      match s.reader with
      | .reading =>
          if handled m.method then none
          else some { s with
            received := s.received ++ [m]
            reader := .handing s.received.length }
      | _ => none
  | .connectionClose failure e =>
      match s.reader with
      | .reading => some { (s.send failure).1 with reader := .failing e false }
      | _ => none
  | .readError reason =>
      match s.reader with
      | .reading => some { s with reader := .failing (frameError reason) true }
      | _ => none
  -- `close` is closed
  | .giveUp =>
      match s.reader, s.stage with
      | .handing _, .finished => some { s with reader := .reading }
      | _, _ => none
  | .readerShutdown =>
      match s.reader with
      | .failing e stops => some { s.shutdown (some e) with reader := .closing stops }
      | _ => none
  | .shutdownReturn =>
      match s.reader, s.stage with
      | .closing stops, .finished =>
          some { s with reader := if stops then .stopped else .reading }
      | _, _ => none
  | .write failure => some (s.send failure).1
  | .spawnedShutdown e =>
      if e ∈ s.spawned then some { s.shutdown (some e) with spawned := s.spawned.erase e }
      else none
  | .shutdown err => some (s.shutdown err)
  | .sendError =>
      match s.stage, s.err with
      | .entered, some e => some { s with stage := .sent, errors := some e }
      | _, _ => none
  | .closeErrors =>
      match s.stage, s.err with
      | .entered, none => some { s with stage := .errorsClosed }
      | .sent, _ => some { s with stage := .errorsClosed }
      | _, _ => none
  | .closeTransport =>
      match s.stage with
      | .errorsClosed => some { s with stage := .transportClosed }
      | _ => none
  | .finish =>
      match s.stage with
      | .transportClosed => some { s with stage := .finished }
      | _ => none

/-! ## The select of a call -/

/-- What a call gets out of its `select`. -/
inductive Received where
  | error (e : Error)
  | errorsClosed
  | reply (k : ℕ)
  | rpcClosed
  deriving DecidableEq, Repr

/-- `<-c.errors`. -/
def takeError (s : RpcLink) : Option (RpcLink × Received) :=
  match s.errors with
  | some e => some ({ s with errors := none }, .error e)
  | none => if s.stage.hasClosedErrors then some (s, .errorsClosed) else none

/-- `<-c.rpc`. -/
def takeReply (s : RpcLink) : Option (RpcLink × Received) :=
  match s.reader with
  | .handing k => some ({ s with reader := .reading }, .reply k)
  | .stopped => some (s, .rpcClosed)
  | _ => none

/-- The `select` takes any of its cases that is ready. -/
inductive Case where
  | errors
  | rpc
  deriving DecidableEq, Repr

def select (s : RpcLink) : Case → Option (RpcLink × Received)
  | .errors => s.takeError
  | .rpc => s.takeReply

end RpcLink

/-! ## Calls -/

/-- What `call` returns. `ok` and `commandInvalid` come with the number of the method that
the call was handed, which is missing when `rpc` was closed. -/
inductive CallResult where
  | ok (k : ℕ)
  | commandInvalid (k : Option ℕ)
  | sendError (e : GoError)
  | shutdownError (e : Error)
  | errClosed
  deriving DecidableEq, Repr

def CallResult.taken : CallResult → Option ℕ
  | .ok k => some k
  | .commandInvalid k => k
  | _ => none

/-- The types are compared; that of a nil message is none of them. -/
def RpcLink.result (s : RpcLink) (res : List Method) : RpcLink.Received → CallResult
  | .error e => .shutdownError e
  | .errorsClosed => .errClosed
  | .reply k =>
      if (s.received[k]?).any fun m => m.method ∈ res then .ok k else .commandInvalid (some k)
  | .rpcClosed => .commandInvalid none

inductive CallPhase where
  | start
  | waiting
  | returned (r : CallResult)
  deriving DecidableEq, Repr

/-- `req` is nil behind the protocol header. -/
structure RpcCall where
  req : Option Method
  res : List Method
  phase : CallPhase

def RpcCall.taken (c : RpcCall) : Option ℕ :=
  match c.phase with
  | .returned r => r.taken
  | _ => none

structure RpcState where
  link : RpcLink
  calls : List RpcCall

inductive CallAction where
  | link (a : RpcAction)
  | call (req : Option Method) (res : List Method)
  | send (i : ℕ) (failure : Option String)
  | select (i : ℕ) (c : RpcLink.Case)

namespace RpcState

def start : RpcState where
  link := .start
  calls := []

/-- What the call has after its `send`. -/
def afterSend : Option GoError → CallPhase
  | some e => .returned (.sendError e)
  | none => .waiting

def next (s : RpcState) : CallAction → Option RpcState
  | .link a => (s.link.next a).map fun l => { s with link := l }
  | .call req res =>
      some { s with
        calls := s.calls ++ [⟨req, res, if req.isSome then .start else .waiting⟩] }
  | .send i failure =>
      match s.calls[i]? with
      | some ⟨req, res, .start⟩ =>
          some { s with
            link := (s.link.send failure).1
            calls := s.calls.set i ⟨req, res, afterSend (s.link.send failure).2⟩ }
      | _ => none
  | .select i c =>
      match s.calls[i]? with
      | some ⟨req, res, .waiting⟩ =>
          (s.link.select c).map fun p =>
            { s with
              link := p.1
              calls := s.calls.set i ⟨req, res, .returned (p.1.result res p.2)⟩ }
      | _ => none

end RpcState

end Amqp091

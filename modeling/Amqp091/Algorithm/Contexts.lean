import Amqp091.Algorithm.Consumers

/-! # Consumers that end with a context

Calls of `Consume`, `ConsumeWithContext` and `Cancel` on one channel, the goroutines that
wait for contexts to end, and the replies that all of them receive from the channel `rpc`. -/

namespace Amqp091

open ByteCodec

/-- Where `Consume` or `ConsumeWithContext` is with a consumer, and after it the goroutine
that waits for the context: after `add`, at `rpc`, before the `cancel` for a call that
failed, and at `select`. A call fails by the reply to the `Cancel` of another consumer's
goroutine if there is one in `failing`. -/
inductive ConsumeStage where
  | added
  | waiting
  | failing (reply : Option ℕ)
  | watching
  | finished
  deriving DecidableEq, Repr

/-- `context` is nil for `Consume`. -/
structure Subscription where
  tag : Bytes
  context : Option ℕ
  noWait : Bool
  stage : ConsumeStage
  deriving DecidableEq, Repr

inductive CancelStage where
  | sending
  | waiting
  | replied (tag : Bytes)
  | finished
  deriving DecidableEq, Repr

/-- A call of `Cancel`, by the application or by the goroutine of a consumer. -/
structure CancelCall where
  tag : Bytes
  noWait : Bool
  watcher : Option ℕ
  stage : CancelStage
  deriving DecidableEq, Repr

inductive ConsumerReply where
  | consumeOk (tag : Bytes)
  | cancelOk (tag : Bytes)
  deriving DecidableEq, Repr

/-- Who sent the request that a reply answers; the client does not know. -/
inductive Requester where
  | consumer (i : ℕ)
  | cancel (k : ℕ)
  deriving DecidableEq, Repr

/-- Why the input of a consumer was closed. `context` is for what the goroutine of a consumer
brought about, whose context had ended. -/
inductive CloseCause where
  | replaced
  | failed
  | application
  | server
  | shutdown
  | context (i : ℕ)
  deriving DecidableEq, Repr

/-- Where a call that succeeded leads. -/
def Subscription.started (u : Subscription) : ConsumeStage :=
  match u.context with
  | some _ => .watching
  | none => .finished

def CancelCall.cause (call : CancelCall) : CloseCause :=
  match call.watcher with
  | some i => .context i
  | none => .application

/-- `subscriptions` has one entry for each consumer of `subs`. `replies` are on their way to
`rpc`. `ended` lists the contexts that have ended. `cancelsSent` records each `basic.cancel`
sent by the goroutine of a consumer, with the consumer that was registered under the tag. -/
structure ConsumerContexts (δ : Type) where
  subs : Consumers δ
  subscriptions : List Subscription
  calls : List CancelCall
  replies : List (Requester × ConsumerReply)
  ended : List ℕ
  cancelsSent : List (ℕ × Option ℕ)
  closings : List (CloseCause × ℕ)

namespace ConsumerContexts

variable {δ : Type}

def start : ConsumerContexts δ where
  subs := .makeConsumers
  subscriptions := []
  calls := []
  replies := []
  ended := []
  cancelsSent := []
  closings := []

/-- The consumer under a tag, as its input is closed. -/
def closing (s : ConsumerContexts δ) (cause : CloseCause) (tag : Bytes) :
    List (CloseCause × ℕ) :=
  match s.subs.chans.lookup tag with
  | some j => [(cause, j)]
  | none => []

def setStage (s : ConsumerContexts δ) (i : ℕ) (u : Subscription) (stage : ConsumeStage) :
    ConsumerContexts δ :=
  { s with subscriptions := s.subscriptions.set i { u with stage := stage } }

def setCall (s : ConsumerContexts δ) (k : ℕ) (call : CancelCall) (stage : CancelStage) :
    ConsumerContexts δ :=
  { s with calls := s.calls.set k { call with stage := stage } }

/-- `consumers.cancel`. -/
def cancelConsumer (s : ConsumerContexts δ) (cause : CloseCause) (tag : Bytes) :
    Option (ConsumerContexts δ) :=
  (s.subs.next (.cancel tag)).map fun subs =>
    { s with subs := subs, closings := s.closings ++ s.closing cause tag }

/-- `Consume` or `ConsumeWithContext` up to `add`. The test of the context comes before, and
the context may have ended since. -/
def consume (s : ConsumerContexts δ) (tag : Bytes) (context : Option ℕ) (noWait : Bool) :
    Option (ConsumerContexts δ) :=
  (s.subs.next (.add tag 0)).map fun subs =>
    { s with
      subs := subs
      subscriptions := s.subscriptions ++ [⟨tag, context, noWait, .added⟩]
      closings := s.closings ++ s.closing .replaced tag }

/-- `send` of `basic.consume`. -/
def sendConsume (s : ConsumerContexts δ) (i : ℕ) : Option (ConsumerContexts δ) :=
  match s.subscriptions[i]? with
  | some u =>
      match u.stage, u.noWait with
      | .added, true => some (s.setStage i u u.started)
      | .added, false =>
          some { s.setStage i u .waiting with
            replies := s.replies ++ [(.consumer i, .consumeOk u.tag)] }
      | _, _ => none
  | none => none

/-- The consumer whose goroutine sent a request. -/
def watcherOf (s : ConsumerContexts δ) : Requester → Option ℕ
  | .cancel k => (s.calls[k]?).bind (·.watcher)
  | .consumer _ => none

/-- The call receives from `rpc`, and expects `basic.consume-ok`. -/
def takeConsume (s : ConsumerContexts δ) (i : ℕ) : Option (ConsumerContexts δ) :=
  match s.subscriptions[i]?, s.replies with
  | some u, (requester, reply) :: replies =>
      match u.stage, reply with
      | .waiting, .consumeOk _ =>
          some { s.setStage i u u.started with replies := replies }
      | .waiting, .cancelOk _ =>
          some { s.setStage i u (.failing (s.watcherOf requester)) with replies := replies }
      | _, _ => none
  | _, _ => none

/-- The write fails, or the channel is closed. -/
def failConsume (s : ConsumerContexts δ) (i : ℕ) : Option (ConsumerContexts δ) :=
  match s.subscriptions[i]? with
  | some u =>
      match u.stage with
      | .added | .waiting => some (s.setStage i u (.failing none))
      | _ => none
  | none => none

/-- `consumers.cancel` after a call that failed. -/
def cancelFailed (s : ConsumerContexts δ) (i : ℕ) : Option (ConsumerContexts δ) :=
  match s.subscriptions[i]? with
  | some u =>
      match u.stage with
      | .failing none => (s.setStage i u .finished).cancelConsumer .failed u.tag
      | .failing (some w) => (s.setStage i u .finished).cancelConsumer (.context w) u.tag
      | _ => none
  | none => none

/-- The goroutine returns because `consumers.closed` is closed, -/
def leave (s : ConsumerContexts δ) (i : ℕ) : Option (ConsumerContexts δ) :=
  match s.subscriptions[i]? with
  | some u =>
      if u.stage = .watching ∧ s.subs.closed = true then some (s.setStage i u .finished) else none
  | none => none

/-- or calls `Cancel` because its context has ended. -/
def wake (s : ConsumerContexts δ) (i : ℕ) : Option (ConsumerContexts δ) :=
  match s.subscriptions[i]? with
  | some u =>
      match u.stage, u.context with
      | .watching, some n =>
          if n ∈ s.ended then
            some { s.setStage i u .finished with
              calls := s.calls ++ [⟨u.tag, false, some i, .sending⟩] }
          else none
      | _, _ => none
  | none => none

/-- The application calls `Cancel`. -/
def cancel (s : ConsumerContexts δ) (tag : Bytes) (noWait : Bool) : ConsumerContexts δ :=
  { s with calls := s.calls ++ [⟨tag, noWait, none, .sending⟩] }

/-- The record of a `basic.cancel` that a goroutine sends. -/
def logCancel (s : ConsumerContexts δ) (call : CancelCall) : ConsumerContexts δ :=
  { s with
    cancelsSent := s.cancelsSent ++
      call.watcher.toList.map fun i => (i, s.subs.chans.lookup call.tag) }

/-- `send` of `basic.cancel`. -/
def sendCancel (s : ConsumerContexts δ) (k : ℕ) : Option (ConsumerContexts δ) :=
  match s.calls[k]? with
  | some call =>
      match call.stage with
      | .sending =>
          if call.noWait then some ((s.logCancel call).setCall k call (.replied call.tag))
          else
            some { (s.logCancel call).setCall k call .waiting with
              replies := s.replies ++ [(.cancel k, .cancelOk call.tag)] }
      | _ => none
  | none => none

/-- `Cancel` receives from `rpc`, and expects `basic.cancel-ok`. -/
def takeCancel (s : ConsumerContexts δ) (k : ℕ) : Option (ConsumerContexts δ) :=
  match s.calls[k]?, s.replies with
  | some call, (_, reply) :: replies =>
      match call.stage, reply with
      | .waiting, .cancelOk tag => some { s.setCall k call (.replied tag) with replies := replies }
      | .waiting, .consumeOk _ => some { s.setCall k call .finished with replies := replies }
      | _, _ => none
  | _, _ => none

/-- The write fails, or the channel is closed. -/
def failCancel (s : ConsumerContexts δ) (k : ℕ) : Option (ConsumerContexts δ) :=
  match s.calls[k]? with
  | some call =>
      match call.stage with
      | .sending | .waiting => some (s.setCall k call .finished)
      | _ => none
  | none => none

/-- `consumers.cancel` at the end of `Cancel`, with the tag of the reply. -/
def finishCancel (s : ConsumerContexts δ) (k : ℕ) : Option (ConsumerContexts δ) :=
  match s.calls[k]? with
  | some call =>
      match call.stage with
      | .replied tag => (s.setCall k call .finished).cancelConsumer call.cause tag
      | _ => none
  | none => none

/-- `consumers.close`, which `shutdown` calls. -/
def shutdown (s : ConsumerContexts δ) : Option (ConsumerContexts δ) :=
  (s.subs.next .close).map fun subs =>
    { s with
      subs := subs
      closings := s.closings ++ s.subs.chans.entries.map fun e => (.shutdown, e.2) }

/-- Deliveries, and what the consumers do with them. -/
inductive Delivering (δ : Type) where
  | send (tag : Bytes) (delivery : δ)
  | accept
  | wait
  | step (i : ℕ) (step : Consumer.Step)

def Delivering.action : Delivering δ → Consumers.Action δ
  | .send tag delivery => .send tag delivery
  | .accept => .accept
  | .wait => .wait
  | .step i a => .step i a

inductive Action (δ : Type) where
  | consume (tag : Bytes) (context : Option ℕ) (noWait : Bool)
  | sendConsume (i : ℕ)
  | takeConsume (i : ℕ)
  | failConsume (i : ℕ)
  | cancelFailed (i : ℕ)
  | leave (i : ℕ)
  | wake (i : ℕ)
  | cancel (tag : Bytes) (noWait : Bool)
  | sendCancel (k : ℕ)
  | takeCancel (k : ℕ)
  | failCancel (k : ℕ)
  | finishCancel (k : ℕ)
  | serverCancel (tag : Bytes)
  | endContext (n : ℕ)
  | shutdown
  | deliver (a : Delivering δ)

def next (s : ConsumerContexts δ) : Action δ → Option (ConsumerContexts δ)
  | .consume tag context noWait => s.consume tag context noWait
  | .sendConsume i => s.sendConsume i
  | .takeConsume i => s.takeConsume i
  | .failConsume i => s.failConsume i
  | .cancelFailed i => s.cancelFailed i
  | .leave i => s.leave i
  | .wake i => s.wake i
  | .cancel tag noWait => some (s.cancel tag noWait)
  | .sendCancel k => s.sendCancel k
  | .takeCancel k => s.takeCancel k
  | .failCancel k => s.failCancel k
  | .finishCancel k => s.finishCancel k
  | .serverCancel tag => s.cancelConsumer .server tag
  | .endContext n => some { s with ended := n :: s.ended }
  | .shutdown => s.shutdown
  | .deliver a => (s.subs.next a.action).map fun subs => { s with subs := subs }

end ConsumerContexts

end Amqp091

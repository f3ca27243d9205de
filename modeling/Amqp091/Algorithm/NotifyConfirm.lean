import Amqp091.Algorithm.Confirming
import Amqp091.Shared.Chan

/-! # The goroutine of `NotifyConfirm`

It receives from a listener of its own and sends the tags on to two channels of the
application, which may be one and the same. -/

namespace Amqp091

open Channels

/-- A channel of the application. `taken` counts what was received from it; its buffer holds
what was sent since. -/
structure TagChan where
  chan : Chan ℕ := {}
  capacity : ℕ
  taken : ℕ := 0

namespace TagChan

/-- A send to a receiver that waits, or else one into the buffer. A closed channel does not
block: the send panics. -/
def send (c : TagChan) (waits : Bool) (tag : ℕ) : Option TagChan :=
  if waits then
    if c.chan.isClosed ∨ c.chan.sent.length = c.taken then
      some { c with chan := c.chan.send tag, taken := c.taken + 1 }
    else none
  else
    if c.chan.isClosed ∨ c.chan.sent.length < c.taken + c.capacity then
      some { c with chan := c.chan.send tag }
    else none

def close (c : TagChan) : TagChan := { c with chan := c.chan.close }

def receive (c : TagChan) : Option TagChan :=
  if c.taken < c.chan.sent.length then some { c with taken := c.taken + 1 } else none

end TagChan

/-- Where the goroutine is: at `range confirms`, at the send for a confirmation, before one of
the two `close` calls, or gone. -/
inductive NotifyPoint where
  | range
  | send (c : Confirmation ℕ)
  | closeAck
  | closeNack
  | returned
  deriving DecidableEq, Repr

/-- `shared` says that `nack` is the channel `ack`; then `ack` stands for both. `received`
counts the confirmations that came from the listener. -/
structure Notifier where
  shared : Bool
  received : ℕ := 0
  point : NotifyPoint := .range
  ack : TagChan
  nack : TagChan

inductive NotifyStep where
  | receive
  | rangeClosed
  | send (waits : Bool)
  | closeAck
  | closeNack
  | receiveAck
  | receiveNack
  deriving DecidableEq, Repr

namespace Notifier

/-- `cap(ack)+cap(nack)`. -/
def listenerCapacity (n : Notifier) : ℕ :=
  n.ack.capacity + if n.shared then n.ack.capacity else n.nack.capacity

/-- The tag goes to `ack`, which is where `nack` leads as well when it is the same channel. -/
def toAck (shared : Bool) (c : Confirmation ℕ) : Bool := c.ack || shared

/-- The steps of the goroutine and of the receivers. `log` is what was sent to the listener,
`closed` whether the listener is closed. -/
def step (log : List (Confirmation ℕ)) (closed : Bool) (n : Notifier) :
    NotifyStep → Option Notifier
  | .receive =>
      match n.point, log[n.received]? with
      | .range, some c => some { n with received := n.received + 1, point := .send c }
      | _, _ => none
  | .rangeClosed =>
      if n.point = .range ∧ closed ∧ n.received = log.length then
        some { n with point := .closeAck }
      else none
  | .send waits =>
      match n.point with
      | .send c =>
          if toAck n.shared c then
            (n.ack.send waits c.deliveryTag).map fun ack => { n with ack := ack, point := .range }
          else
            (n.nack.send waits c.deliveryTag).map fun nack =>
              { n with nack := nack, point := .range }
      | _ => none
  | .closeAck =>
      if n.point = .closeAck then
        some { n with
          ack := n.ack.close
          point := if n.shared then .returned else .closeNack }
      else none
  | .closeNack =>
      if n.point = .closeNack then some { n with nack := n.nack.close, point := .returned }
      else none
  | .receiveAck => n.ack.receive.map fun ack => { n with ack := ack }
  | .receiveNack => n.nack.receive.map fun nack => { n with nack := nack }

end Notifier

/-! ## The whole way -/

/-- The goroutine of `NotifyConfirm` next to the resequencer; its listener is the first one.
`closed` says that `Close` of the resequencer was called. -/
structure NotifyConfirm where
  confirms : ConfirmState
  closed : Bool
  notifier : Notifier

namespace NotifyConfirm

inductive Action where
  | confirms (a : ConfirmAction)
  | close
  | notifier (a : NotifyStep)

def start (shared : Bool) (ackCapacity nackCapacity : ℕ) : NotifyConfirm where
  confirms := .start 1
  closed := false
  notifier := { shared, ack := { capacity := ackCapacity }, nack := { capacity := nackCapacity } }

/-- What was sent to the listener of the goroutine. -/
def log (s : NotifyConfirm) : List (Confirmation ℕ) :=
  ((s.confirms.confirms.closed ++ s.confirms.confirms.listeners).head?).getD []

/-- `Close` takes `c.m`, and `Channel.shutdown` calls it once. -/
def next (s : NotifyConfirm) : Action → Option NotifyConfirm
  | .confirms a => (s.confirms.next a).map fun confirms => { s with confirms := confirms }
  | .close =>
      if s.confirms.busy = false ∧ s.closed = false then
        some { s with
          confirms := { s.confirms with confirms := s.confirms.confirms.close }
          closed := true }
      else none
  | .notifier a =>
      (s.notifier.step s.log s.closed a).map fun notifier => { s with notifier := notifier }

end NotifyConfirm

end Amqp091

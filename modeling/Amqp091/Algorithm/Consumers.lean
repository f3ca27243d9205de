import Amqp091.Model.Field
import Amqp091.Shared.Chan
import Mathlib.Data.List.AList

/-! # Consumers of a channel

The map from consumer tags to their input channels, and one goroutine for each consumer
that buffers between its input and its output. -/

namespace Amqp091

open ByteCodec Channels

/-- Where a goroutine that runs `buffer` is: at `range in`, at the `select` of the inner
loop, before the deferred `subs.Done()`, before the deferred `close(out)`, or gone. -/
inductive BufferPoint where
  | range
  | select
  | done
  | closeOut
  | returned
  deriving DecidableEq, Repr

/-- A consumer with its goroutine. `inflight` means that the variable of that name is not
nil. `taken` counts what was received from the output, whose buffer holds what was sent to
it since. `passed` lists the deliveries `send` was called with for this consumer. -/
structure Consumer (δ : Type) where
  tag : Bytes
  input : Chan δ := {}
  inflight : Bool := true
  queue : List δ := []
  point : BufferPoint := .range
  capacity : ℕ
  output : Chan δ := {}
  taken : ℕ := 0
  passed : List δ := []
  deriving Repr

variable {δ : Type}

namespace Consumer

/-- What the receivers of the output have got. -/
def received (c : Consumer δ) : List δ := c.output.sent.take c.taken

def closeInput (c : Consumer δ) : Consumer δ := { c with input := c.input.close }

/-- The goroutine waits at a receive from its input. -/
def accepting (c : Consumer δ) : Bool :=
  c.point = .range || c.point = .select && c.inflight

/-- The receive from the input. It leads into the inner loop, which goes on while the
queue is not empty. -/
def accept (c : Consumer δ) (delivery : δ) : Consumer δ :=
  { c with
    input := c.input.send delivery
    queue := c.queue ++ [delivery]
    point := .select }

/-- `out <- *queue[0]` and what follows it. -/
def emit (c : Consumer δ) : Option (Consumer δ) :=
  match c.queue with
  | [] => none
  | delivery :: queue => some { c with
      output := c.output.send delivery
      queue := queue
      point := if queue.isEmpty then .range else .select }

/-- The steps of the goroutine, and of the receivers of its output. `handOver` is a send to
a receiver that waits, `push` one into the output's buffer. -/
inductive Step where
  | rangeClosed
  | selectClosed
  | selectInflight
  | push
  | handOver
  | done
  | closeOut
  | receive
  deriving DecidableEq, Repr

/-- `closed` says whether the channel `subs.closed` is closed. -/
def step (closed : Bool) (c : Consumer δ) : Step → Option (Consumer δ)
  | .rangeClosed =>
      if c.point = .range ∧ c.input.isClosed then some { c with point := .done } else none
  | .selectClosed =>
      if c.point = .select ∧ closed then some { c with point := .done } else none
  | .selectInflight =>
      if c.point = .select ∧ c.inflight ∧ c.input.isClosed then
        some { c with inflight := false }
      else none
  | .push =>
      if c.point = .select ∧ c.output.sent.length < c.taken + c.capacity then c.emit else none
  | .handOver =>
      if c.point = .select ∧ c.output.sent.length = c.taken then
        c.emit.map fun c => { c with taken := c.taken + 1 }
      else none
  | .done => if c.point = .done then some { c with point := .closeOut } else none
  | .closeOut =>
      if c.point = .closeOut then some { c with output := c.output.close, point := .returned }
      else none
  | .receive =>
      if c.taken < c.output.sent.length then some { c with taken := c.taken + 1 } else none

end Consumer

/-- A call that is inside the mutex and waits: `send` for the receiver of its delivery,
`close` for the buffer goroutines. -/
inductive Waiting (δ : Type) where
  | send (i : ℕ) (delivery : δ)
  | close

/-- `consumers` lists every consumer ever added; `chans` holds positions in it. -/
structure Consumers (δ : Type) where
  waitGroup : ℕ
  closed : Bool
  mutex : Option (Waiting δ)
  chans : AList fun _ : Bytes => ℕ
  consumers : List (Consumer δ)

namespace Consumers

def makeConsumers : Consumers δ where
  waitGroup := 0
  closed := false
  mutex := none
  chans := ∅
  consumers := []

/-- `consumer`, the output channel, is given by its capacity. -/
def add (subs : Consumers δ) (tag : Bytes) (capacity : ℕ) : Consumers δ :=
  let consumers := match subs.chans.lookup tag with
    | some prev => subs.consumers.modify prev Consumer.closeInput
    | none => subs.consumers
  { subs with
    chans := subs.chans.insert tag consumers.length
    consumers := consumers ++ [{ tag := tag, capacity := capacity }]
    waitGroup := subs.waitGroup + 1 }

/-- `delete(subs.chans, tag)` and `close(ch)`. -/
def remove (subs : Consumers δ) (tag : Bytes) (i : ℕ) : Consumers δ :=
  { subs with
    chans := subs.chans.erase tag
    consumers := subs.consumers.modify i Consumer.closeInput }

def cancel (subs : Consumers δ) (tag : Bytes) : Consumers δ × Bool :=
  match subs.chans.lookup tag with
  | some i => (subs.remove tag i, true)
  | none => (subs, false)

/-- `close` up to `subs.Wait()`. -/
def close (subs : Consumers δ) : Consumers δ :=
  subs.chans.entries.foldl (fun subs e => subs.remove e.1 e.2)
    { subs with closed := true, mutex := some .close }

/-- `send` up to `buffer <- msg`, and what it will return. -/
def send (subs : Consumers δ) (tag : Bytes) (delivery : δ) : Consumers δ × Bool :=
  match subs.chans.lookup tag with
  | some i => ({ subs with
      mutex := some (.send i delivery)
      consumers := subs.consumers.modify i fun c =>
        { c with passed := c.passed ++ [delivery] } }, true)
  | none => (subs, false)

/-- `buffer <- msg` meets a receive, or panics because `buffer` is closed. -/
def accept (subs : Consumers δ) : Option (Consumers δ) :=
  match subs.mutex with
  | some (.send i delivery) =>
      match subs.consumers[i]? with
      | some c =>
          if c.input.isClosed then
            some { subs with
              mutex := none
              consumers := subs.consumers.set i { c with input := c.input.send delivery } }
          else if c.accepting then
            some { subs with
              mutex := none
              consumers := subs.consumers.set i (c.accept delivery) }
          else none
      | none => none
  | _ => none

/-- `subs.Wait()` ends. -/
def wait (subs : Consumers δ) : Option (Consumers δ) :=
  match subs.mutex with
  | some .close => if subs.waitGroup = 0 then some { subs with mutex := none } else none
  | _ => none

def stepConsumer (subs : Consumers δ) (i : ℕ) (step : Consumer.Step) : Option (Consumers δ) :=
  match subs.consumers[i]? with
  | some c =>
      (c.step subs.closed step).map fun c =>
        { subs with
          consumers := subs.consumers.set i c
          waitGroup := if step = .done then subs.waitGroup - 1 else subs.waitGroup }
  | none => none

inductive Action (δ : Type) where
  | add (tag : Bytes) (capacity : ℕ)
  | send (tag : Bytes) (delivery : δ)
  | accept
  | cancel (tag : Bytes)
  | close
  | wait
  | step (i : ℕ) (step : Consumer.Step)

/-- A call begins when nobody holds the mutex. `Channel.shutdown` calls `close` once. -/
def next (subs : Consumers δ) : Action δ → Option (Consumers δ)
  | .add tag capacity => if subs.mutex.isNone then some (subs.add tag capacity) else none
  | .send tag delivery => if subs.mutex.isNone then some (subs.send tag delivery).1 else none
  | .accept => subs.accept
  | .cancel tag => if subs.mutex.isNone then some (subs.cancel tag).1 else none
  | .close => if subs.mutex.isNone ∧ subs.closed = false then some subs.close else none
  | .wait => subs.wait
  | .step i step => subs.stepConsumer i step

end Consumers

end Amqp091

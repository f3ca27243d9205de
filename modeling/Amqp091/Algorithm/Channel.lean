import Amqp091.Algorithm.Confirms
import Amqp091.Algorithm.SendOpen
import Amqp091.Algorithm.ValidateField
import Amqp091.Algorithm.WriteFrame

/-! # Sending on a channel

`Channel.send` as the steps other goroutines may come between: its tests of the two
`closed` flags, the frames it writes one at a time under `sendM`, and the final flush. -/

namespace Amqp091

open ByteCodec

variable {rt : GoRuntime}

/-! ## Messages -/

/-- What `Channel.send` is given: a message with content or one without. -/
inductive Outgoing (rt : GoRuntime) where
  | content (c : Content rt)
  | plain (m : Message) (plain : m.hasContent = false)

/-- The arguments of a `Publish` call whose headers passed `Validate`. -/
structure Publishing (rt : GoRuntime) where
  exchange : Bytes
  routingKey : Bytes
  mandatory : Bool
  immediate : Bool
  properties : Properties
  body : Bytes
  body_le : body.length ≤ rt.maxAlloc
  valid : properties.headers.validate = .ok ()

def Publishing.content (p : Publishing rt) : Content rt where
  method := ⟨.basicPublish,
    ((0 : UInt16), p.exchange, p.routingKey, #v[p.mandatory, p.immediate], ())⟩
  properties := p.properties
  body := p.body
  hasContent := rfl
  body_le := p.body_le

/-- The calls that hold `ch.m` while they send. `closeOk` is the reader's reply to
`channel.close`. -/
inductive Call (rt : GoRuntime) where
  | publish (p : Publishing rt)
  | ack (tag : UInt64) (multiple : Bool)
  | nack (tag : UInt64) (multiple requeue : Bool)
  | reject (tag : UInt64) (requeue : Bool)
  | closeOk

def Call.message : Call rt → Outgoing rt
  | .publish p => .content p.content
  | .ack tag multiple => .plain ⟨.basicAck, (tag, #[multiple].toVector, ())⟩ rfl
  | .nack tag multiple requeue => .plain ⟨.basicNack, (tag, #[multiple, requeue].toVector, ())⟩ rfl
  | .reject tag requeue => .plain ⟨.basicReject, (tag, #[requeue].toVector, ())⟩ rfl
  | .closeOk => .plain ⟨.channelCloseOk, ()⟩ rfl

def Call.isPublish : Call rt → Bool
  | .publish _ => true
  | _ => false

/-- The methods sent without holding `ch.m`: those passed to `Channel.call`, and the
reader's reply to `channel.flow`. -/
def Method.sentUnlocked : Method → Bool
  | .channelOpen | .channelClose | .channelFlow | .channelFlowOk => true
  | .exchangeDeclare | .exchangeDelete | .exchangeBind | .exchangeUnbind => true
  | .queueDeclare | .queueBind | .queueUnbind | .queuePurge | .queueDelete => true
  | .basicQos | .basicConsume | .basicCancel | .basicGet | .basicRecover => true
  | .txSelect | .txCommit | .txRollback | .confirmSelect => true
  | _ => false

theorem Method.hasContent_of_sentUnlocked {m : Method} (h : m.sentUnlocked = true) :
    m.hasContent = false := by
  cases m <;> first | rfl | cases h

/-! ## The connection underneath -/

inductive SendError where
  | go (e : GoError)
  /-- An error of the transport. -/
  | transport
  deriving DecidableEq, Repr

/-- The flags `ch.closed` and `c.closed`, whether the buffered writer has failed, which it
never recovers from, and the frames it has accepted for this channel. -/
structure Link where
  closed : Bool
  connectionClosed : Bool
  broken : Bool
  written : List Frame

/-- Whether the transport takes what a step writes and flushes. -/
structure Transport where
  writes : Bool
  flushes : Bool

namespace Link

/-- `none` is a nil error. A frame that cannot be encoded leaves the writer untouched. -/
def writeFrameNoFlush (l : Link) (f : Frame) (t : Transport) : Link × Option SendError :=
  match f.write.result with
  | .error e => (l, some (.go e))
  | .ok _ =>
      if l.broken || !t.writes then ({ l with broken := true }, some .transport)
      else ({ l with written := l.written ++ [f] }, none)

def flush (l : Link) (t : Transport) : Link × Option SendError :=
  if l.broken || !t.flushes then ({ l with broken := true }, some .transport) else (l, none)

def writeFrame (l : Link) (f : Frame) (t : Transport) : Link × Option SendError :=
  match l.writeFrameNoFlush f t with
  | (l, none) => l.flush t
  | (l, some e) => (l, some e)

end Link

/-! ## The steps of a send -/

inductive Outcome where
  | returned (err : Option SendError)
  | panicked
  deriving DecidableEq, Repr

/-- The frame that comes next. `body j chunk` is the frame for `chunk = body[i:j]`. -/
inductive Cursor where
  | method
  | header
  | body (j : ℤ) (chunk : Bytes)
  deriving DecidableEq, Repr

/-- Where a goroutine is: before the test in `send`, before the one in `sendOpen`, before
the test of the connection's flag for a frame, before writing that frame, before the
deferred flush, or at the end. -/
inductive Point where
  | send
  | sendOpen
  | test (cursor : Cursor)
  | write (cursor : Cursor)
  | flush (outcome : Outcome)
  | done (outcome : Outcome)
  deriving DecidableEq, Repr

def Content.frame (c : Content rt) (id : UInt16) : Cursor → Frame
  | .method => .method id 0 0 (some c.method)
  | .header => .header id c.method.id.1 0 (UInt64.ofNat c.body.length) c.properties
  | .body _ chunk => .body id chunk

namespace Outgoing

def sendClosed : Outgoing rt → Point
  | .plain m _ =>
      if m.method = .channelCloseOk then .test .method
      else .done (.returned (some (.go errClosed)))
  | .content _ => .done (.returned (some (.go errClosed)))

/-- The flush is deferred once the first frame of a message with content is reached. -/
def fail : Outgoing rt → SendError → Point
  | .plain _ _, e => .done (.returned (some e))
  | .content _, e => .flush (.returned (some e))

end Outgoing

/-- The head of the loop over the body, with the slice for its next frame. -/
def Content.bodyLoop (c : Content rt) (i j : ℤ) : Point :=
  if i < c.body.length then
    let j := if j > c.body.length then (c.body.length : ℤ) else j
    match sliceBody c.body i j with
    | none => .flush .panicked
    | some chunk => .test (.body j chunk)
  else .flush (.returned none)

def Content.afterWrite (frameSize : ℤ) (c : Content rt) : Cursor → Point
  | .method => .test .header
  | .header => c.bodyLoop 0 (chunkSize frameSize c.body)
  | .body j _ => c.bodyLoop j (j + chunkSize frameSize c.body)

/-- `if err == nil { err = endError }`. -/
def Outcome.orEndError : Outcome → Option SendError → Outcome
  | .returned none, endError => .returned endError
  | outcome, _ => outcome

/-- One step of `Channel.send`. -/
def Link.step (frameSize : ℤ) (id : UInt16) (l : Link) (msg : Outgoing rt) (t : Transport) :
    Point → Option (Link × Point)
  | .send => some (l, if l.closed then msg.sendClosed else .sendOpen)
  | .sendOpen => some (l, if l.closed then msg.sendClosed else .test .method)
  | .test cursor =>
      some (l, if l.connectionClosed then msg.fail (.go errClosed) else .write cursor)
  | .write cursor =>
      match msg with
      | .plain m _ =>
          match l.writeFrame (.method id 0 0 (some m)) t with
          | (l, err) => some (l, .done (.returned err))
      | .content c =>
          match l.writeFrameNoFlush (c.frame id cursor) t with
          | (l, none) => some (l, c.afterWrite frameSize cursor)
          | (l, some e) => some (l, .flush (.returned (some e)))
  | .flush outcome =>
      match l.flush t with
      | (l, err) => some (l, .done (outcome.orEndError err))
  | .done _ => none

end Amqp091

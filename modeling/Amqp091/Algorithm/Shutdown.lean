import Amqp091.Algorithm.Channel

/-! # Shutting a connection down while calls are sending

Calls of `Publish`, `Ack`, `Nack` and `Reject` on the channels of a connection, and one
`shutdown` of the connection, at the granularity of mutexes. The peer has stopped reading, so
a write that reaches the transport blocks until the transport is closed. -/

namespace Amqp091

variable {rt : GoRuntime}

def Point.isWrite : Point → Bool
  | .write _ => true
  | _ => false

/-- Whether a call is outside of `sendM`, holds it, or is blocked in a write of the transport,
which it can only be while it holds `sendM`. -/
inductive SendStage where
  | outside
  | locked
  | blocked
  deriving DecidableEq, Repr

/-- A call that holds `ch.m`. -/
structure SendingCall (rt : GoRuntime) where
  call : Call rt
  point : Point
  stage : SendStage

structure SendingChannel (rt : GoRuntime) where
  closed : Bool
  holder : Option (SendingCall rt)

/-- Where `Connection.shutdown` is. It has `c.m` from `visit 0` on. `waitChannel`,
`waitNotify` and `waitConsumers` are in `Channel.shutdown`, in front of `ch.m`, `notifyM` and
the mutex of the consumers; `finishing` has all three. -/
inductive ShutdownPoint where
  | idle
  | waitConnection
  | visit (i : ℕ)
  | waitChannel (i : ℕ)
  | waitNotify (i : ℕ)
  | waitConsumers (i : ℕ)
  | finishing (i : ℕ)
  | done
  deriving DecidableEq, Repr

inductive ConnectionMutex where
  | connection
  | channel (i : ℕ)
  | notify (i : ℕ)
  | consumers (i : ℕ)
  | send
  deriving DecidableEq, Repr

/-- `caller i` is the call that holds `ch.m` of channel `i`. -/
inductive ConnectionThread where
  | shutdown
  | caller (i : ℕ)
  deriving DecidableEq, Repr

namespace ShutdownPoint

def waits : ShutdownPoint → Option ConnectionMutex
  | .waitConnection => some .connection
  | .waitChannel i => some (.channel i)
  | .waitNotify i => some (.notify i)
  | .waitConsumers i => some (.consumers i)
  | _ => none

def holds : ShutdownPoint → ConnectionMutex → Bool
  | .visit _, .connection | .waitChannel _, .connection => true
  | .waitNotify i, m => m = .connection ∨ m = .channel i
  | .waitConsumers i, m => m = .connection ∨ m = .channel i ∨ m = .notify i
  | .finishing i, m => m = .connection ∨ m = .channel i ∨ m = .notify i ∨ m = .consumers i
  | _, _ => false

end ShutdownPoint

/-- A call in front of a write or a flush waits for `sendM`. -/
def SendingCall.waits : SendingCall rt → Option ConnectionMutex
  | ⟨_, .write _, .outside⟩ | ⟨_, .flush _, .outside⟩ => some .send
  | _ => none

/-- `buffered` says whether the buffered writer holds bytes, `sendM` which channel's call holds
that mutex. The channels are in the order in which `shutdown` visits them. -/
structure ClosingConnection (rt : GoRuntime) where
  channels : List (SendingChannel rt)
  closed : Bool
  buffered : Bool
  sendM : Option ℕ
  transportClosed : Bool
  shutdown : ShutdownPoint

namespace ClosingConnection

def start (n : ℕ) : ClosingConnection rt where
  channels := List.replicate n ⟨false, none⟩
  closed := false
  buffered := false
  sendM := none
  transportClosed := false
  shutdown := .idle

/-! ## Calls -/

def holder (s : ClosingConnection rt) (i : ℕ) : Option (SendingCall rt) :=
  s.channels[i]?.bind (·.holder)

def setHolder (s : ClosingConnection rt) (i : ℕ) (h : Option (SendingCall rt)) :
    ClosingConnection rt :=
  { s with channels := s.channels.modify i fun ch => { ch with holder := h } }

/-- The part of the connection that `Channel.send` looks at. -/
def link (s : ClosingConnection rt) (ch : SendingChannel rt) : Link :=
  ⟨ch.closed, s.closed, s.transportClosed, []⟩

/-- `ch.m.Lock()`. -/
def lock (s : ClosingConnection rt) (i : ℕ) (call : Call rt) : Option (ClosingConnection rt) :=
  match s.channels[i]?, s.holder i, s.shutdown.holds (.channel i), call with
  | _, _, _, .closeOk => none
  | some _, none, false, call => some (s.setHolder i (some ⟨call, .send, .outside⟩))
  | _, _, _, _ => none

/-- A step of `send` other than a write or a flush. -/
def test (frameSize : ℤ) (s : ClosingConnection rt) (i : ℕ) : Option (ClosingConnection rt) :=
  match s.channels[i]?, s.holder i with
  | some ch, some h =>
      match h.point with
      | .write _ | .flush _ | .done _ => none
      | point =>
          ((s.link ch).step frameSize (UInt16.ofNat i) h.call.message ⟨true, true⟩ point).map
            fun (_, point) => s.setHolder i (some { h with point := point })
  | _, _ => none

/-- `c.sendM.Lock()`. -/
def lockSend (s : ClosingConnection rt) (i : ℕ) : Option (ClosingConnection rt) :=
  match s.holder i, s.sendM with
  | some ⟨call, .write cursor, .outside⟩, none =>
      some { s.setHolder i (some ⟨call, .write cursor, .locked⟩) with sendM := some i }
  | some ⟨call, .flush outcome, .outside⟩, none =>
      some { s.setHolder i (some ⟨call, .flush outcome, .locked⟩) with sendM := some i }
  | _, _ => none

/-- Whether a write or a flush reaches the transport. A frame of a message with content is only
buffered unless the buffer is `full`. -/
def reachesTransport (s : ClosingConnection rt) (h : SendingCall rt) (full : Bool) : Bool :=
  match h.point with
  | .write _ => full || !h.call.isPublish
  | .flush _ => s.buffered
  | _ => false

/-- The write or flush is over, and `c.sendM.Unlock()`. -/
def sent (frameSize : ℤ) (s : ClosingConnection rt) (i : ℕ) (h : SendingCall rt)
    (t : Transport) : Option (ClosingConnection rt) :=
  match s.channels[i]? with
  | some ch =>
      ((s.link ch).step frameSize (UInt16.ofNat i) h.call.message t h.point).map
        fun (_, point) =>
          { s.setHolder i (some ⟨h.call, point, .outside⟩) with
            sendM := none
            buffered := s.buffered || h.point.isWrite }
  | none => none

/-- A write or flush, which blocks when it reaches the transport. -/
def write (frameSize : ℤ) (s : ClosingConnection rt) (i : ℕ) (full : Bool) :
    Option (ClosingConnection rt) :=
  match s.holder i, s.transportClosed with
  | some ⟨call, point, .locked⟩, false =>
      if s.reachesTransport ⟨call, point, .locked⟩ full then
        some (s.setHolder i (some ⟨call, point, .blocked⟩))
      else s.sent frameSize i ⟨call, point, .locked⟩ ⟨true, true⟩
  | some ⟨call, point, .locked⟩, true => s.sent frameSize i ⟨call, point, .locked⟩ ⟨false, false⟩
  | some ⟨call, point, .blocked⟩, true => s.sent frameSize i ⟨call, point, .blocked⟩ ⟨false, false⟩
  | _, _ => none

/-- The call returns, and `ch.m.Unlock()`. -/
def unlock (s : ClosingConnection rt) (i : ℕ) : Option (ClosingConnection rt) :=
  match s.holder i with
  | some ⟨_, .done _, _⟩ => some (s.setHolder i none)
  | _ => none

/-! ## Shutdown -/

/-- `shutdown` is called and sets the flag of the connection. -/
def enter (s : ClosingConnection rt) : Option (ClosingConnection rt) :=
  match s.shutdown with
  | .idle => some { s with closed := true, shutdown := .waitConnection }
  | _ => none

/-- `c.m.Lock()`. Nobody else has it. -/
def lockConnection (s : ClosingConnection rt) : Option (ClosingConnection rt) :=
  match s.shutdown with
  | .waitConnection => some { s with shutdown := .visit 0 }
  | _ => none

/-- `ch.shutdown` sets the flag of the channel and comes to `ch.m.Lock()`. -/
def setClosed (s : ClosingConnection rt) : Option (ClosingConnection rt) :=
  match s.shutdown with
  | .visit i =>
      if i < s.channels.length then
        some { s with
          channels := s.channels.modify i fun ch => { ch with closed := true }
          shutdown := .waitChannel i }
      else none
  | _ => none

def lockChannel (s : ClosingConnection rt) : Option (ClosingConnection rt) :=
  match s.shutdown with
  | .waitChannel i =>
      if (s.holder i).isNone then some { s with shutdown := .waitNotify i } else none
  | _ => none

/-- `notifyM.Lock()`. -/
def lockNotify (s : ClosingConnection rt) : Option (ClosingConnection rt) :=
  match s.shutdown with
  | .waitNotify i => some { s with shutdown := .waitConsumers i }
  | _ => none

/-- `consumers.close` locks the mutex of the consumers. -/
def lockConsumers (s : ClosingConnection rt) : Option (ClosingConnection rt) :=
  match s.shutdown with
  | .waitConsumers i => some { s with shutdown := .finishing i }
  | _ => none

/-- `ch.shutdown` returns. -/
def finish (s : ClosingConnection rt) : Option (ClosingConnection rt) :=
  match s.shutdown with
  | .finishing i => some { s with shutdown := .visit (i + 1) }
  | _ => none

/-- `c.conn.Close()`. -/
def closeTransport (s : ClosingConnection rt) : Option (ClosingConnection rt) :=
  match s.shutdown with
  | .visit i =>
      if i = s.channels.length then some { s with transportClosed := true, shutdown := .done }
      else none
  | _ => none

inductive Action (rt : GoRuntime) where
  | lock (i : ℕ) (call : Call rt)
  | test (i : ℕ)
  | lockSend (i : ℕ)
  | write (i : ℕ) (full : Bool)
  | unlock (i : ℕ)
  | enter
  | lockConnection
  | setClosed
  | lockChannel
  | lockNotify
  | lockConsumers
  | finish
  | closeTransport

def next (frameSize : ℤ) (s : ClosingConnection rt) : Action rt → Option (ClosingConnection rt)
  | .lock i call => s.lock i call
  | .test i => s.test frameSize i
  | .lockSend i => s.lockSend i
  | .write i full => s.write frameSize i full
  | .unlock i => s.unlock i
  | .enter => s.enter
  | .lockConnection => s.lockConnection
  | .setClosed => s.setClosed
  | .lockChannel => s.lockChannel
  | .lockNotify => s.lockNotify
  | .lockConsumers => s.lockConsumers
  | .finish => s.finish
  | .closeTransport => s.closeTransport

end ClosingConnection

end Amqp091

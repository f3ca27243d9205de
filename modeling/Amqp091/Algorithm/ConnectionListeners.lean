import Amqp091.Model.Error
import Amqp091.Model.Field
import Amqp091.Shared.Listeners

/-! # Listeners of a connection

The two lists of listeners of a connection. Registering and the body of `shutdown` hold
the mutex of the connection, but the reader ranges over `blocks` without it, and
`shutdown` leaves the slices as they are. -/

namespace Amqp091

open ByteCodec Channels

inductive ConnectionListenerKind where
  | closes
  | blocks
  deriving DecidableEq, Repr

structure Blocking where
  active : Bool
  reason : Bytes
  deriving DecidableEq, Repr

inductive ConnectionNotice where
  | error (e : Error)
  | blocking (b : Blocking)
  deriving DecidableEq, Repr

/-- The methods on channel 0 that `dispatch0` does not hand to a waiting call.
`connectionClose` comes with the error made of its code and text. -/
inductive ConnectionMethod where
  | connectionClose (e : Error)
  | connectionBlocked (reason : Bytes)
  | connectionUnblocked
  deriving DecidableEq, Repr

/-- How far the body of `shutdown` is. From `closing` to `finished` it holds the mutex;
`closing` has listeners of `blocks` left to close. -/
inductive ConnectionDestructor where
  | idle
  | entered (e : Option Error)
  | closing (e : Option Error) (rest : List ℕ)
  | channels (e : Option Error)
  | finished (e : Option Error)
  deriving DecidableEq, Repr

/-- What the reader does: it reads, it has listeners left to send to, or it is inside
`shutdown` and will stop afterwards when that is because of a read error. -/
inductive ConnectionReader where
  | reading
  | sending (b : Blocking) (rest : List ℕ)
  | closing (stops : Bool)
  | stopped
  deriving DecidableEq, Repr

/-- `closed` is the flag that `IsClosed` reads. -/
structure ConnectionListeners where
  listeners : Listeners ConnectionListenerKind ConnectionNotice
  closed : Bool
  noNotify : Bool
  destructor : ConnectionDestructor
  reader : ConnectionReader

namespace ConnectionListeners

def newConnection : ConnectionListeners where
  listeners := .empty
  closed := false
  noNotify := false
  destructor := .idle
  reader := .reading

/-- The mutex of the connection is held. -/
def locked (s : ConnectionListeners) : Bool :=
  match s.destructor with
  | .closing _ _ | .channels _ => true
  | _ => false

def notify (s : ConnectionListeners) (k : ConnectionListenerKind) : Option ConnectionListeners :=
  if s.locked then none
  else if s.noNotify then some { s with listeners := s.listeners.registerLate k }
  else some { s with listeners := s.listeners.register k }

def notifyClose (s : ConnectionListeners) : Option ConnectionListeners := s.notify .closes

def notifyBlocked (s : ConnectionListeners) : Option ConnectionListeners := s.notify .blocks

/-- `destructor.Do`: the first caller enters, the others wait for it. -/
def shutdown (s : ConnectionListeners) (e : Option Error) : ConnectionListeners :=
  match s.destructor with
  | .idle => { s with closed := true, destructor := .entered e }
  | _ => { s with closed := true }

/-- The loops range over the slice as it is now. -/
def dispatch0 (s : ConnectionListeners) (m : ConnectionMethod) : Option ConnectionListeners :=
  match s.reader, m with
  | .reading, .connectionClose e => some { s.shutdown (some e) with reader := .closing false }
  | .reading, .connectionBlocked reason =>
      some { s with reader := .sending ⟨true, reason⟩ (s.listeners.slice .blocks) }
  | .reading, .connectionUnblocked =>
      some { s with reader := .sending ⟨false, []⟩ (s.listeners.slice .blocks) }
  | _, _ => none

/-- One round of the loop. -/
def sendNext (s : ConnectionListeners) : Option ConnectionListeners :=
  match s.reader with
  | .sending b (i :: rest) =>
      some { s with
        listeners := s.listeners.sendAll [i] (.blocking b)
        reader := .sending b rest }
  | _ => none

def dispatched (s : ConnectionListeners) : Option ConnectionListeners :=
  match s.reader with
  | .sending _ [] => some { s with reader := .reading }
  | _ => none

/-- `ReadFrame` failed. -/
def readError (s : ConnectionListeners) (e : Error) : Option ConnectionListeners :=
  match s.reader with
  | .reading => some { s.shutdown (some e) with reader := .closing true }
  | _ => none

/-- `shutdown` returns to the reader. -/
def shutdownReturn (s : ConnectionListeners) : Option ConnectionListeners :=
  match s.reader, s.destructor with
  | .closing stops, .finished _ =>
      some { s with reader := if stops then .stopped else .reading }
  | _, _ => none

/-- `if err != nil`, the error goes to the listeners for closes. -/
def sendError (l : Listeners ConnectionListenerKind ConnectionNotice) (e : Option Error) :
    Listeners ConnectionListenerKind ConnectionNotice :=
  l.sendOption .closes (e.map .error)

/-- The body of `shutdown` up to the loop over `blocks`. Nobody else uses the listeners
for closes. -/
def shutdownNotify (s : ConnectionListeners) : Option ConnectionListeners :=
  match s.destructor with
  | .entered e =>
      some { s with
        listeners := (sendError s.listeners e).closeAll (s.listeners.slice .closes)
        destructor := .closing e (s.listeners.slice .blocks) }
  | _ => none

/-- One round of the loop over `blocks`. -/
def closeNext (s : ConnectionListeners) : Option ConnectionListeners :=
  match s.destructor with
  | .closing e (i :: rest) =>
      some { s with listeners := s.listeners.closeAll [i], destructor := .closing e rest }
  | _ => none

/-- The channels and the transport are next. -/
def shutdownChannels (s : ConnectionListeners) : Option ConnectionListeners :=
  match s.destructor with
  | .closing e [] => some { s with destructor := .channels e }
  | _ => none

def shutdownFinish (s : ConnectionListeners) : Option ConnectionListeners :=
  match s.destructor with
  | .channels e => some { s with noNotify := true, destructor := .finished e }
  | _ => none

/-- `shutdown` is a call from another goroutine than the reader. -/
inductive Action where
  | notifyClose
  | notifyBlocked
  | dispatch0 (m : ConnectionMethod)
  | sendNext
  | dispatched
  | readError (e : Error)
  | shutdownReturn
  | shutdown (e : Option Error)
  | shutdownNotify
  | closeNext
  | shutdownChannels
  | shutdownFinish
  deriving DecidableEq, Repr

def next (s : ConnectionListeners) : Action → Option ConnectionListeners
  | .notifyClose => s.notifyClose
  | .notifyBlocked => s.notifyBlocked
  | .dispatch0 m => s.dispatch0 m
  | .sendNext => s.sendNext
  | .dispatched => s.dispatched
  | .readError e => s.readError e
  | .shutdownReturn => s.shutdownReturn
  | .shutdown e => some (s.shutdown e)
  | .shutdownNotify => s.shutdownNotify
  | .closeNext => s.closeNext
  | .shutdownChannels => s.shutdownChannels
  | .shutdownFinish => s.shutdownFinish

end ConnectionListeners

end Amqp091

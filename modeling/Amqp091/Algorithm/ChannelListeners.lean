import Amqp091.Algorithm.Confirming
import Amqp091.Model.Content
import Amqp091.Model.Error
import Amqp091.Shared.Listeners

/-! # Listeners of a channel

The five lists of listeners of a channel, how the connection's reader notifies them, and
how `shutdown` closes them. `notifyM` guards four of the lists; the fifth one belongs to
`confirms` and is guarded by the mutex in there. -/

namespace Amqp091

open ByteCodec Channels

/-- The slices a listener can be appended to. `confirms` is `confirms.listeners`. -/
inductive ChannelListenerKind where
  | closes
  | flows
  | returns
  | cancels
  | confirms
  deriving DecidableEq, Repr

inductive Notification where
  | error (e : Error)
  | flow (active : Bool)
  | returned (r : Return)
  | cancel (consumerTag : Bytes)
  | confirmation (c : Confirmation ℕ)

def Notification.kind : Notification → ChannelListenerKind
  | .error _ => .closes
  | .flow _ => .flows
  | .returned _ => .returns
  | .cancel _ => .cancels
  | .confirmation _ => .confirms

/-- The methods of the server that `dispatch` hands to listeners under `notifyM`. -/
inductive ServerNotice where
  | channelFlow (active : Bool)
  | basicCancel (consumerTag : Bytes)
  | basicReturn (m : Return)

def ServerNotice.notification : ServerNotice → Notification
  | .channelFlow active => .flow active
  | .basicCancel consumerTag => .cancel consumerTag
  | .basicReturn m => .returned m

/-- How far the body of `shutdown` is. From `notified` to `finished` it holds `notifyM`. -/
inductive Destructor where
  | idle
  | entered (e : Option Error)
  | notified (e : Option Error)
  | confirmsClosed (e : Option Error)
  | finished (e : Option Error)
  deriving DecidableEq, Repr

def Destructor.isFinished : Destructor → Bool
  | .finished _ => true
  | _ => false

/-- What the reader does in `dispatch`: nothing, it holds `notifyM` for reading and has
listeners left to send to, or it holds the mutex of `confirms`. -/
inductive Dispatching where
  | idle
  | sending (v : Notification) (rest : List ℕ)
  | confirming

structure ChannelListeners where
  listeners : Listeners ChannelListenerKind Notification
  noNotify : Bool
  confirming : Bool
  confirms : Confirms ℕ
  destructor : Destructor
  reader : Dispatching

/-! ## What the resequencer sends

With one listener that has got nothing so far, what it gets is what every listener is sent. -/

def ServerConfirm.sends (c : Confirms ℕ) (e : ServerConfirm) :
    Option (Confirms ℕ × List (Confirmation ℕ)) :=
  (e.head { c with listeners := [[]] }).map fun c => (c, c.listeners.flatten)

def Confirms.resequenceSends (c : Confirms ℕ) : Confirms ℕ × List (Confirmation ℕ) :=
  let c := ({ c with listeners := [[]] } : Confirms ℕ).resequence
  (c, c.listeners.flatten)

namespace ChannelListeners

def newChannel : ChannelListeners where
  listeners := .empty
  noNotify := false
  confirming := false
  confirms := .newConfirms
  destructor := .idle
  reader := .idle

/-- `notifyM` cannot be locked for writing. -/
def notifyLocked (s : ChannelListeners) : Bool :=
  match s.reader, s.destructor with
  | .sending _ _, _ | _, .notified _ | _, .confirmsClosed _ => true
  | _, _ => false

/-- Registers a listener, or closes it when `shutdown` is over. -/
def notify (s : ChannelListeners) (k : ChannelListenerKind) : Option ChannelListeners :=
  if s.notifyLocked then none
  else if s.noNotify then some { s with listeners := s.listeners.registerLate k }
  else some { s with listeners := s.listeners.register k }

def notifyClose (s : ChannelListeners) : Option ChannelListeners := s.notify .closes

def notifyFlow (s : ChannelListeners) : Option ChannelListeners := s.notify .flows

def notifyReturn (s : ChannelListeners) : Option ChannelListeners := s.notify .returns

def notifyCancel (s : ChannelListeners) : Option ChannelListeners := s.notify .cancels

/-- `confirms.Listen` needs the mutex of `confirms`. -/
def notifyPublish (s : ChannelListeners) : Option ChannelListeners :=
  match s.reader, s.noNotify with
  | .confirming, false => none
  | _, _ => s.notify .confirms

/-- `notifyM.RLock()`. The loop ranges over the slice as it is now. -/
def dispatch (s : ChannelListeners) (m : ServerNotice) : Option ChannelListeners :=
  match s.reader, s.notifyLocked with
  | .idle, false =>
      some { s with
        reader := .sending m.notification (s.listeners.slice m.notification.kind) }
  | _, _ => none

/-- One round of the loop. -/
def sendNext (s : ChannelListeners) : Option ChannelListeners :=
  match s.reader with
  | .sending v (i :: rest) =>
      some { s with listeners := s.listeners.sendAll [i] v, reader := .sending v rest }
  | _ => none

/-- `notifyM.RUnlock()`. -/
def dispatched (s : ChannelListeners) : Option ChannelListeners :=
  match s.reader with
  | .sending _ [] => some { s with reader := .idle }
  | _ => none

/-- Each confirmation goes to all listeners before the next one. -/
def sendConfirmations (s : ChannelListeners) (cs : List (Confirmation ℕ)) :
    Listeners ChannelListenerKind Notification :=
  cs.foldl (fun l c => l.sendAll (l.slice .confirms) (.confirmation c)) s.listeners

/-- `One` or `Multiple` up to its call of `resequence`. -/
def serverConfirm (s : ChannelListeners) (e : ServerConfirm) : Option ChannelListeners :=
  match s.reader with
  | .idle =>
      if s.confirming then
        (e.sends s.confirms).map fun (c, cs) =>
          { s with confirms := c, listeners := s.sendConfirmations cs, reader := .confirming }
      else none
  | _ => none

/-- `resequence` and the end of `One` or `Multiple`. -/
def resequence (s : ChannelListeners) : Option ChannelListeners :=
  match s.reader with
  | .confirming =>
      let (c, cs) := s.confirms.resequenceSends
      some { s with confirms := c, listeners := s.sendConfirmations cs, reader := .idle }
  | _ => none

/-- `destructor.Do`: the first caller enters, the others wait for it. -/
def shutdown (s : ChannelListeners) (e : Option Error) : ChannelListeners :=
  match s.destructor with
  | .idle => { s with destructor := .entered e }
  | _ => s

/-- `if e != nil`, the error goes to the listeners for closes. -/
def sendError (l : Listeners ChannelListenerKind Notification) (e : Option Error) :
    Listeners ChannelListenerKind Notification :=
  l.sendOption .closes (e.map .error)

/-- The loops that close the four lists, which are set to nil only afterwards. -/
def closeLists (l : Listeners ChannelListenerKind Notification) :
    Listeners ChannelListenerKind Notification :=
  let l := l.closeAll (l.slice .closes)
  let l := l.closeAll (l.slice .flows)
  let l := l.closeAll (l.slice .returns)
  let l := l.closeAll (l.slice .cancels)
  (((l.clear .flows).clear .closes).clear .returns).clear .cancels

/-- The body of `shutdown` up to `confirms.Close`. -/
def shutdownNotify (s : ChannelListeners) : Option ChannelListeners :=
  match s.destructor, s.notifyLocked with
  | .entered e, false =>
      some { s with
        listeners := closeLists (sendError s.listeners e)
        destructor := .notified e }
  | _, _ => none

/-- `confirms.Close`. -/
def shutdownConfirms (s : ChannelListeners) : Option ChannelListeners :=
  match s.destructor, s.reader with
  | .notified _, .confirming => none
  | .notified e, _ =>
      some { s with
        confirms := s.confirms.close
        listeners := (s.listeners.closeAll (s.listeners.slice .confirms)).clear .confirms
        destructor := .confirmsClosed e }
  | _, _ => none

/-- The end of the body, which releases `notifyM`. -/
def shutdownFinish (s : ChannelListeners) : Option ChannelListeners :=
  match s.destructor with
  | .confirmsClosed e => some { s with noNotify := true, destructor := .finished e }
  | _ => none

/-- `publish` and `unpublish` are what calls of `Publish` do to the counter. -/
inductive Action where
  | notifyClose
  | notifyFlow
  | notifyReturn
  | notifyCancel
  | notifyPublish
  | dispatch (m : ServerNotice)
  | sendNext
  | dispatched
  | confirm
  | publish
  | unpublish
  | serverConfirm (e : ServerConfirm)
  | resequence
  | shutdown (e : Option Error)
  | shutdownNotify
  | shutdownConfirms
  | shutdownFinish

/-- The argument of a call of `shutdown`. -/
def Action.error : Action → Option (Option Error)
  | .shutdown e => some e
  | _ => none

def next (s : ChannelListeners) : Action → Option ChannelListeners
  | .notifyClose => s.notifyClose
  | .notifyFlow => s.notifyFlow
  | .notifyReturn => s.notifyReturn
  | .notifyCancel => s.notifyCancel
  | .notifyPublish => s.notifyPublish
  | .dispatch m => s.dispatch m
  | .sendNext => s.sendNext
  | .dispatched => s.dispatched
  | .confirm => some { s with confirming := true }
  | .publish => some { s with confirms := s.confirms.publish.1 }
  | .unpublish => some { s with confirms := s.confirms.unpublish }
  | .serverConfirm e => s.serverConfirm e
  | .resequence => s.resequence
  | .shutdown e => some (s.shutdown e)
  | .shutdownNotify => s.shutdownNotify
  | .shutdownConfirms => s.shutdownConfirms
  | .shutdownFinish => s.shutdownFinish

end ChannelListeners

end Amqp091

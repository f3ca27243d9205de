import Amqp091.Shared.LockOrder

/-! # What the functions of the library lock

Each function with the mutexes it locks and the functions it calls while it holds them;
everything else it does is `work`, which includes waiting for a Go channel or the network.
Alternatives stand for the branches of the source. -/

namespace Amqp091

open Concurrency

/-- A `sync.Once` counts as well: a second caller waits until the first one is through.
`notifyM` is taken shared by nobody but the reader, so it can be treated like the others. -/
inductive LibraryLock where
  | connectionDestructor
  | connectionM
  | sendM
  | channelDestructor (ch : ℕ)
  | channelM (ch : ℕ)
  | notifyM (ch : ℕ)
  | confirmM (ch : ℕ)
  | consumers (ch : ℕ)
  | confirms (ch : ℕ)
  | publishedMut (ch : ℕ)
  | deferredConfirmations (ch : ℕ)
  deriving DecidableEq, Repr

namespace Locking

abbrev Code := LockProg LibraryLock

/-- `destructor.Do`. -/
def once (m : LibraryLock) (body : Code) : Code :=
  .either .work (.locked m (.either .work body))

/-! ## Confirmations and consumers -/

/-- `Add`, `remove`, `Confirm`, `ConfirmMultiple` and `Close` of the deferred confirmations. -/
def deferred (ch : ℕ) : Code := .locked (.deferredConfirmations ch) .work

def confirmsListen (ch : ℕ) : Code := .locked (.confirms ch) .work

/-- `publish`, and `unpublish` with `remove`. -/
def confirmsPublish (ch : ℕ) : Code := .locked (.publishedMut ch) (.seq .work (deferred ch))

def confirmsResequence (ch : ℕ) : Code := .locked (.publishedMut ch) .work

/-- `One` and `Multiple`. -/
def confirmsOne (ch : ℕ) : Code :=
  .locked (.confirms ch) (.seq (deferred ch) (.seq .work (confirmsResequence ch)))

def confirmsClose (ch : ℕ) : Code := .locked (.confirms ch) (.seq (deferred ch) .work)

/-- `add`, `cancel`, `send` and `close` of the consumers. -/
def consumers (ch : ℕ) : Code := .locked (.consumers ch) .work

/-! ## Sending -/

/-- `send`, `sendUnflushed` and `endSendUnflushed` of the connection. -/
def connectionSend : Code := .either .work (.seq (.locked .sendM .work) .work)

/-- `send` of a channel: the frames of a message one by one. -/
def channelSend : Code := .loop connectionSend

/-- `call` of a channel or of the connection. -/
def call : Code := .seq channelSend .work

/-! ## Channels -/

def channelShutdown (ch : ℕ) : Code :=
  once (.channelDestructor ch)
    (.locked (.channelM ch)
      (.locked (.notifyM ch)
        (.seq .work (.seq (consumers ch)
          (.seq .work (.seq (.either .work (confirmsClose ch)) .work))))))

/-- `allocateChannel` and `releaseChannel`. -/
def registry : Code := .locked .connectionM .work

def closeChannel (ch : ℕ) : Code := .seq (channelShutdown ch) registry

def openChannel : Code := .seq registry (.either .work (.seq call (.either .work registry)))

def channelClose (ch : ℕ) : Code := .either .work (.seq call (closeChannel ch))

def publish (ch : ℕ) : Code :=
  .either .work
    (.locked (.channelM ch)
      (.seq (.either .work (confirmsPublish ch))
        (.seq channelSend (.either .work (confirmsPublish ch)))))

/-- `Ack`, `Nack` and `Reject`. -/
def acknowledge (ch : ℕ) : Code := .locked (.channelM ch) channelSend

/-- `NotifyClose`, `NotifyFlow`, `NotifyReturn` and `NotifyCancel`. -/
def notify (ch : ℕ) : Code := .locked (.notifyM ch) .work

/-- `NotifyPublish`, which `NotifyConfirm` calls as well. -/
def notifyPublish (ch : ℕ) : Code :=
  .locked (.notifyM ch) (.either .work (confirmsListen ch))

/-- `Consume` and `ConsumeWithContext`. -/
def consume (ch : ℕ) : Code :=
  .either .work (.seq (consumers ch) (.seq call (.either .work (consumers ch))))

def cancel (ch : ℕ) : Code := .seq call (.either .work (consumers ch))

def confirm (ch : ℕ) : Code := .seq call (.either .work (.locked (.confirmM ch) .work))

def getNextPublishSeqNo (ch : ℕ) : Code := .locked (.publishedMut ch) .work

/-! ## The connection -/

/-- `channels` are those that the map holds when the body is reached. -/
def connectionShutdown (channels : List ℕ) : Code :=
  once .connectionDestructor
    (.locked .connectionM
      (.seq .work (.seq (.sequence (channels.map channelShutdown)) .work)))

/-- `Close`, `CloseDeadline` and `closeWith`. -/
def connectionClose (channels : List ℕ) : Code :=
  .either .work (.seq (.either .work call) (connectionShutdown channels))

/-- `NotifyClose` and `NotifyBlocked`. -/
def connectionNotify : Code := .locked .connectionM .work

/-- `open` with the functions it calls up to `openComplete`. -/
def openConnection : Code :=
  .seq connectionSend (.either .work (.seq call (.either .work (.seq call
    (.either .work (.seq (.locked .connectionM .work) (.seq connectionNotify
      (.seq connectionSend (.either .work call)))))))))

def heartbeater : Code := .loop (.either .work connectionSend)

/-! ## The reader -/

/-- The cases of `dispatch`; `rpc` also stands for frames that complete no message. -/
inductive Dispatch where
  | close
  | flow
  | cancel
  | basicReturn
  | confirm
  | deliver
  | rpc
  deriving DecidableEq, Repr

def dispatch (ch : ℕ) : Dispatch → Code
  | .close => .seq (.locked (.channelM ch) channelSend) (closeChannel ch)
  | .flow => .seq (notify ch) channelSend
  | .cancel => .seq (notify ch) (consumers ch)
  | .basicReturn => notify ch
  | .confirm => .either .work (confirmsOne ch)
  | .deliver => consumers ch
  | .rpc => .work

/-- A frame as the reader gets it: on channel 0 a `connection.close` or anything else, or on
another channel, which is known or not. -/
inductive Incoming where
  | connectionClose (channels : List ℕ)
  | connection
  | channel (ch : ℕ) (d : Dispatch)
  | unknownChannel

/-- `demux`. -/
def demux : Incoming → Code
  | .connectionClose channels => .seq connectionSend (connectionShutdown channels)
  | .connection => .work
  | .channel ch d => .seq (.locked .connectionM .work) (dispatch ch d)
  | .unknownChannel => .seq (.locked .connectionM .work) (.either .work connectionSend)

/-- The loop of the reader, which ends with `shutdown`. -/
def reader (frames : List Incoming) (channels : List ℕ) : Code :=
  .seq (.sequence (frames.map fun f => .seq .work (.seq (demux f) .work)))
    (connectionShutdown channels)

/-! ## Goroutines -/

/-- What a goroutine of the library or of the application may run: a call of a function of
the library, the reader, the heartbeater or a `go c.shutdown`. -/
inductive Operation where
  | openConnection
  | reader (frames : List Incoming) (channels : List ℕ)
  | heartbeater
  | connectionShutdown (channels : List ℕ)
  | connectionClose (channels : List ℕ)
  | connectionCall
  | connectionNotify
  | openChannel
  | channelClose (ch : ℕ)
  | call (ch : ℕ)
  | publish (ch : ℕ)
  | acknowledge (ch : ℕ)
  | notify (ch : ℕ)
  | notifyPublish (ch : ℕ)
  | consume (ch : ℕ)
  | cancel (ch : ℕ)
  | confirm (ch : ℕ)
  | getNextPublishSeqNo (ch : ℕ)

def Operation.code : Operation → Code
  | .openConnection => Locking.openConnection
  | .reader frames channels => Locking.reader frames channels
  | .heartbeater => Locking.heartbeater
  | .connectionShutdown channels => Locking.connectionShutdown channels
  | .connectionClose channels => Locking.connectionClose channels
  | .connectionCall => Locking.call
  | .connectionNotify => Locking.connectionNotify
  | .openChannel => Locking.openChannel
  | .channelClose ch => Locking.channelClose ch
  | .call _ => Locking.call
  | .publish ch => Locking.publish ch
  | .acknowledge ch => Locking.acknowledge ch
  | .notify ch => Locking.notify ch
  | .notifyPublish ch => Locking.notifyPublish ch
  | .consume ch => Locking.consume ch
  | .cancel ch => Locking.cancel ch
  | .confirm ch => Locking.confirm ch
  | .getNextPublishSeqNo ch => Locking.getNextPublishSeqNo ch

/-! ## Any number of goroutines -/

/-- A goroutine is started, or one of them goes on. -/
inductive Action where
  | start (op : Operation)
  | step (t : ℕ) (choice : Bool)

def next (s : LockSystem LibraryLock) : Action → Option (LockSystem LibraryLock)
  | .start op => s.next (.spawn op.code)
  | .step t choice => s.next (.step t choice)

end Locking

end Amqp091

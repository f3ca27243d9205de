import Amqp091.Algorithm.Receive

/-! # The connection's reader

What `Connection.demux` does with a frame, as far as it touches the registered channels
and the listeners for blocked connections. `none` is a panic. Replies and errors that are
only logged, and goroutines that are started, have no effect here. -/

namespace Amqp091

/-- `channels` is `c.channels`, the nil map once `destroyed`. `closed` is the atomic flag,
set before `shutdown` gets to its body. `blocks` counts the listeners of
`NotifyBlocked`, which `shutdown` closes and leaves in their slice. -/
structure ReaderState where
  channels : UInt16 → Option RecvState
  blocks : ℕ
  closed : Bool
  destroyed : Bool

namespace ReaderState

/-- The body of `Connection.shutdown` runs once. -/
def shutdown (c : ReaderState) : ReaderState :=
  { c with
    closed := true
    channels := if c.destroyed then c.channels else fun _ => none
    destroyed := true }

def releaseChannel (c : ReaderState) (id : UInt16) : ReaderState :=
  if c.closed then c else { c with channels := Function.update c.channels id none }

/-- Sends to every listener of `NotifyBlocked`. -/
def notifyBlocks (c : ReaderState) : Option ReaderState :=
  if c.destroyed ∧ 0 < c.blocks then none else some c

def dispatch0 (c : ReaderState) : Frame → Option ReaderState
  | .method _ _ _ (some m) =>
      match m.method with
      | .connectionClose => some c.shutdown
      | .connectionBlocked => c.notifyBlocks
      | .connectionUnblocked => c.notifyBlocks
      | _ => some c
  | .method _ _ _ none => some c
  | .heartbeat _ => some c
  | _ => some c

/-- `Channel.dispatch`: a `channel.close` removes the channel from the registry. -/
def dispatch (c : ReaderState) (id : UInt16) : Option Dispatched → ReaderState
  | some (.method (some m)) => if m.method = .channelClose then c.releaseChannel id else c
  | _ => c

def dispatchN (rt : GoRuntime) (c : ReaderState) (f : Frame) : Option ReaderState :=
  match c.channels f.channel with
  | some channel =>
      match recv rt channel f with
      | some (state, out) =>
          some ({ c with channels := Function.update c.channels f.channel (some state) }.dispatch
            f.channel out)
      | none => none
  | none => some c

def demux (rt : GoRuntime) (c : ReaderState) (f : Frame) : Option ReaderState :=
  if f.channel = 0 then c.dispatch0 f else c.dispatchN rt f

/-- What happens between two steps of the reader, besides frames: channels come and go,
listeners are registered, and other goroutines shut the connection down. -/
inductive Event where
  | frame (f : Frame)
  | allocateChannel (id : UInt16)
  | releaseChannel (id : UInt16)
  | notifyBlocked
  | setClosed
  | shutdown

def next (rt : GoRuntime) (c : ReaderState) : Event → Option ReaderState
  | .frame f => c.demux rt f
  | .allocateChannel id =>
      some (if c.closed then c
        else { c with channels := Function.update c.channels id (some .recvMethod) })
  | .releaseChannel id => some (c.releaseChannel id)
  | .notifyBlocked => some (if c.destroyed then c else { c with blocks := c.blocks + 1 })
  | .setClosed => some { c with closed := true }
  | .shutdown => some c.shutdown

def run (rt : GoRuntime) (c : ReaderState) (events : List Event) : Option ReaderState :=
  events.foldlM (next rt) c

end ReaderState

end Amqp091

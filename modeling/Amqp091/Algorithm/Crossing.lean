import Amqp091.Algorithm.Registry

/-! # Closes that cross

A connection and a server that both close channels. `openChannel`, `Channel.Close` and the
reader run concurrently on the client; the server answers `channel.open` and every
`channel.close`, and may close an open channel itself. One FIFO queue leads each way. -/

namespace Amqp091

/-- The methods the client sends. `open` and `close` carry the `Channel` that sent them and
whose id the frame has; the server sees the id only. -/
inductive ChannelRequest where
  | open (ch : ChannelRef)
  | close (ch : ChannelRef)
  | closeOk (id : UInt16)
  deriving DecidableEq, Repr

/-- The methods the server sends. An answer carries the `Channel` whose request it answers;
the client sees the id only. -/
inductive ChannelReply where
  | openOk (ch : ChannelRef)
  | close (id : UInt16)
  | closeOk (ch : ChannelRef)
  deriving DecidableEq, Repr

def ChannelReply.id : ChannelReply → UInt16
  | .openOk ch => ch.id
  | .close id => id
  | .closeOk ch => ch.id

/-- A channel as the server sees it; `closing` awaits the client's `channel.close-ok`. -/
inductive ServerChannel where
  | closed
  | opened
  | closing
  deriving DecidableEq, Repr

/-- Where `openChannel` is with a `Channel`. `opened` is the only one that has been given to
the application. -/
inductive Opening where
  | absent
  | allocated
  | waiting
  | opened
  | failing
  | failed
  deriving DecidableEq, Repr

/-- `closed` is the flag, `destroyed` says that `shutdown` has closed `errors` and `close`. -/
structure ChannelObject where
  opening : Opening := .absent
  closed : Bool := false
  destroyed : Bool := false
  deriving DecidableEq, Repr

/-- Where a call of `Close` is: after its own test of the flag, after the tests in `send`,
after the write, before `closeChannel` and inside of it. -/
inductive ClosePoint where
  | tested
  | writing
  | waiting
  | returning
  | releasing
  | returned
  deriving DecidableEq, Repr

structure CloseCall where
  channel : ChannelRef
  point : ClosePoint
  deriving DecidableEq, Repr

/-- Where the reader is with a frame: in `ch.rpc <- msg`, or in the branch of `dispatch` for
`channel.close`. -/
inductive CrossingReader where
  | reading
  | delivering (ch : ChannelRef) (msg : ChannelReply)
  | answering (ch : ChannelRef)
  | closing (ch : ChannelRef)
  | releasing (ch : ChannelRef)
  deriving DecidableEq, Repr

/-- `delivered` records the replies that calls have taken from `rpc`, `failed` that the
client has closed the connection with an error. -/
structure Crossing where
  registry : Registry
  objects : ChannelRef → ChannelObject
  calls : List CloseCall
  reader : CrossingReader
  toServer : List ChannelRequest
  toClient : List ChannelReply
  server : UInt16 → ServerChannel
  delivered : List (ChannelRef × ChannelReply)
  failed : Bool

namespace Crossing

def start (channelMax : ℕ) : Crossing where
  registry := .newRegistry channelMax
  objects := fun _ => {}
  calls := []
  reader := .reading
  toServer := []
  toClient := []
  server := fun _ => .closed
  delivered := []
  failed := false

def setObject (s : Crossing) (ch : ChannelRef) (o : ChannelObject) : Crossing :=
  { s with objects := Function.update s.objects ch o }

/-- A frame is written to the connection. -/
def sendRequest (s : Crossing) (f : ChannelRequest) : Crossing :=
  { s with toServer := s.toServer ++ [f] }

/-- `ch.shutdown`. -/
def shutdown (s : Crossing) (ch : ChannelRef) : Crossing :=
  s.setObject ch { s.objects ch with closed := true, destroyed := true }

/-- `allocateChannel`, the first step of `openChannel`. -/
def allocate (s : Crossing) : Option Crossing :=
  match s.registry.allocateChannel with
  | some (c, .ok ch) => some ({ s with registry := c }.setObject ch { opening := .allocated })
  | some (c, .error _) => some { s with registry := c }
  | none => none

/-- `send` of `channel.open`. -/
def sendOpen (s : Crossing) (ch : ChannelRef) : Option Crossing :=
  match (s.objects ch).opening, (s.objects ch).closed with
  | .allocated, true => some (s.setObject ch { s.objects ch with opening := .failing })
  | .allocated, false =>
      some ((s.sendRequest (.open ch)).setObject ch { s.objects ch with opening := .waiting })
  | _, _ => none

/-- `open` receives from `errors`. -/
def failOpen (s : Crossing) (ch : ChannelRef) : Option Crossing :=
  match (s.objects ch).opening, (s.objects ch).destroyed with
  | .waiting, true => some (s.setObject ch { s.objects ch with opening := .failing })
  | _, _ => none

/-- `openChannel` releases a channel that it could not open. -/
def releaseOpen (s : Crossing) (ch : ChannelRef) : Option Crossing :=
  match (s.objects ch).opening with
  | .failing =>
      (s.registry.releaseChannel ch).map fun c =>
        { s with registry := c }.setObject ch { s.objects ch with opening := .failed }
  | _ => none

/-- `Close` begins. -/
def close (s : Crossing) (ch : ChannelRef) : Option Crossing :=
  match (s.objects ch).opening, (s.objects ch).closed with
  | .opened, false => some { s with calls := s.calls ++ [⟨ch, .tested⟩] }
  | .opened, true => some s
  | _, _ => none

def setPoint (s : Crossing) (k : ℕ) (ch : ChannelRef) (point : ClosePoint) : Crossing :=
  { s with calls := s.calls.set k ⟨ch, point⟩ }

/-- The tests of the flag in `send` and `sendOpen`. -/
def testClose (s : Crossing) (k : ℕ) : Option Crossing :=
  match s.calls[k]? with
  | some ⟨ch, .tested⟩ =>
      some (s.setPoint k ch (if (s.objects ch).closed then .returning else .writing))
  | _ => none

def writeClose (s : Crossing) (k : ℕ) : Option Crossing :=
  match s.calls[k]? with
  | some ⟨ch, .writing⟩ => some ((s.sendRequest (.close ch)).setPoint k ch .waiting)
  | _ => none

/-- `Close` receives from `errors`. -/
def failClose (s : Crossing) (k : ℕ) : Option Crossing :=
  match s.calls[k]? with
  | some ⟨ch, .waiting⟩ =>
      if (s.objects ch).destroyed then some (s.setPoint k ch .returning) else none
  | _ => none

/-- The deferred `closeChannel(ch, nil)` shuts the channel down, -/
def shutdownClose (s : Crossing) (k : ℕ) : Option Crossing :=
  match s.calls[k]? with
  | some ⟨ch, .returning⟩ => some ((s.shutdown ch).setPoint k ch .releasing)
  | _ => none

/-- and releases its id. -/
def releaseClose (s : Crossing) (k : ℕ) : Option Crossing :=
  match s.calls[k]? with
  | some ⟨ch, .releasing⟩ =>
      (s.registry.releaseChannel ch).map fun c =>
        { s with registry := c }.setPoint k ch .returned
  | _ => none

/-- `dispatchN` for a registered channel, `updateChannel` included. -/
def dispatch (s : Crossing) (ch : ChannelRef) : ChannelReply → Crossing
  | .close _ =>
      { s with reader := .answering ch }.setObject ch { s.objects ch with closed := true }
  | msg => { s with reader := .delivering ch msg }

def dispatchClosed (s : Crossing) : ChannelReply → Crossing
  | .close id => s.sendRequest (.closeOk id)
  | .closeOk _ => s
  | .openOk _ => { s with failed := true }

/-- The reader takes the next frame and looks its channel up. -/
def read (s : Crossing) : Option Crossing :=
  match s.reader, s.toClient with
  | .reading, msg :: msgs =>
      match s.registry.lookupChannel msg.id with
      | some ch => some ({ s with toClient := msgs }.dispatch ch msg)
      | none => some ({ s with toClient := msgs }.dispatchClosed msg)
  | _, _ => none

/-- `dispatch` of `channel.close`: `channel.close-ok` is sent, -/
def answerClose (s : Crossing) : Option Crossing :=
  match s.reader with
  | .answering ch => some { s.sendRequest (.closeOk ch.id) with reader := .closing ch }
  | _ => none

/-- the channel is shut down with the error -/
def shutdownRead (s : Crossing) : Option Crossing :=
  match s.reader with
  | .closing ch => some { s.shutdown ch with reader := .releasing ch }
  | _ => none

/-- and its id is released. -/
def releaseRead (s : Crossing) : Option Crossing :=
  match s.reader with
  | .releasing ch =>
      (s.registry.releaseChannel ch).map fun c => { s with registry := c, reader := .reading }
  | _ => none

/-- `open` receives from `rpc`, and expects `channel.open-ok`. -/
def takeOpen (s : Crossing) : Option Crossing :=
  match s.reader with
  | .delivering ch msg =>
      match (s.objects ch).opening with
      | .waiting =>
          some ({ s with reader := .reading, delivered := s.delivered ++ [(ch, msg)] }.setObject ch
            { s.objects ch with
              opening := match msg with | .openOk _ => .opened | _ => .failing })
      | _ => none
  | _ => none

/-- `Close` receives from `rpc`; whatever it is, `Close` returns. -/
def takeClose (s : Crossing) (k : ℕ) : Option Crossing :=
  match s.reader, s.calls[k]? with
  | .delivering ch msg, some ⟨ch', .waiting⟩ =>
      if ch = ch' then
        some ({ s with reader := .reading, delivered := s.delivered ++ [(ch, msg)] }.setPoint
          k ch .returning)
      else none
  | _, _ => none

/-- The reader gives a reply up when `close` is closed. -/
def dropReply (s : Crossing) : Option Crossing :=
  match s.reader with
  | .delivering ch _ =>
      if (s.objects ch).destroyed then some { s with reader := .reading } else none
  | _ => none

def setServer (s : Crossing) (id : UInt16) (state : ServerChannel) : Crossing :=
  { s with server := Function.update s.server id state }

def sendReply (s : Crossing) (f : ChannelReply) : Crossing :=
  { s with toClient := s.toClient ++ [f] }

/-- The server handles one method. -/
def serve (s : Crossing) : Option Crossing :=
  match s.toServer with
  | [] => none
  | .open ch :: rest =>
      some (({ s with toServer := rest }.sendReply (.openOk ch)).setServer ch.id .opened)
  | .close ch :: rest =>
      some (({ s with toServer := rest }.sendReply (.closeOk ch)).setServer ch.id
        (match s.server ch.id with | .closing => .closing | _ => .closed))
  | .closeOk id :: rest => some ({ s with toServer := rest }.setServer id .closed)

/-- The server closes an open channel. -/
def serverClose (s : Crossing) (id : UInt16) : Option Crossing :=
  match s.server id with
  | .opened => some ((s.sendReply (.close id)).setServer id .closing)
  | _ => none

inductive Action where
  | allocate
  | sendOpen (ch : ChannelRef)
  | failOpen (ch : ChannelRef)
  | releaseOpen (ch : ChannelRef)
  | takeOpen
  | close (ch : ChannelRef)
  | testClose (k : ℕ)
  | writeClose (k : ℕ)
  | failClose (k : ℕ)
  | takeClose (k : ℕ)
  | shutdownClose (k : ℕ)
  | releaseClose (k : ℕ)
  | read
  | answerClose
  | shutdownRead
  | releaseRead
  | dropReply
  | serve
  | serverClose (id : UInt16)
  deriving DecidableEq, Repr

def next (s : Crossing) : Action → Option Crossing
  | .allocate => s.allocate
  | .sendOpen ch => s.sendOpen ch
  | .failOpen ch => s.failOpen ch
  | .releaseOpen ch => s.releaseOpen ch
  | .takeOpen => s.takeOpen
  | .close ch => s.close ch
  | .testClose k => s.testClose k
  | .writeClose k => s.writeClose k
  | .failClose k => s.failClose k
  | .takeClose k => s.takeClose k
  | .shutdownClose k => s.shutdownClose k
  | .releaseClose k => s.releaseClose k
  | .read => s.read
  | .answerClose => s.answerClose
  | .shutdownRead => s.shutdownRead
  | .releaseRead => s.releaseRead
  | .dropReply => s.dropReply
  | .serve => s.serve
  | .serverClose id => s.serverClose id

end Crossing

end Amqp091

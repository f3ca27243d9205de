import Amqp091.Algorithm.WriteFrame
import Amqp091.Shared.BufferedWriter

/-! # Sending frames through the buffered writer

`send` flushes after every frame. `sendUnflushed` leaves that to `endSendUnflushed`, which
a message calls once at its end. -/

namespace Amqp091

open ByteCodec Buffered

/-- The size of the buffer that `bufio.NewWriter` allocates. -/
def bufferSize : ℕ := 4096

/-- The three writes of `writeFrame`: the header of seven bytes, the payload and the end
octet. -/
def Frame.parts (f : Frame) : Except GoError (List Bytes) :=
  match f.write.result with
  | .ok _ => .ok [f.write.out.take 7, (f.write.out.drop 7).dropLast,
      (f.write.out.drop 7).drop ((f.write.out.drop 7).length - 1)]
  | .error e => .error e

/-- The connection as far as sending is concerned. `shutdowns` lists the errors for which
`go c.shutdown` was started. -/
structure FrameSender where
  closed : Bool
  writer : Writer GoError
  shutdowns : List GoError

namespace FrameSender

/-- `frame.write(w.w)`. A frame that cannot be encoded leaves the writer untouched. -/
def writeFrameNoFlush (t : Behaviour GoError) (w : Writer GoError) (f : Frame) :
    Writer GoError × Option GoError :=
  match f.parts with
  | .error e => (w, some e)
  | .ok ps => (w.writeAll bufferSize t ps, (w.writeAll bufferSize t ps).err)

def writeFrame (t : Behaviour GoError) (w : Writer GoError) (f : Frame) :
    Writer GoError × Option GoError :=
  match writeFrameNoFlush t w f with
  | (w, some e) => (w, some e)
  | (w, none) => (w.flush t, (w.flush t).err)

/-- `if err != nil { go c.shutdown(…) }`, with the error as the result. -/
def finish (s : FrameSender) : Writer GoError × Option GoError → FrameSender × Option GoError
  | (w, err) => ({ s with writer := w, shutdowns := s.shutdowns ++ err.toList }, err)

def send (t : Behaviour GoError) (s : FrameSender) (f : Frame) : FrameSender × Option GoError :=
  if s.closed then (s, some errClosed) else s.finish (writeFrame t s.writer f)

def sendUnflushed (t : Behaviour GoError) (s : FrameSender) (f : Frame) :
    FrameSender × Option GoError :=
  if s.closed then (s, some errClosed) else s.finish (writeFrameNoFlush t s.writer f)

def endSendUnflushed (t : Behaviour GoError) (s : FrameSender) : FrameSender × Option GoError :=
  ({ s with writer := s.writer.flush t }, (s.writer.flush t).err)

/-- Frames one after the other, up to the first error. -/
def sendEach (one : FrameSender → Frame → FrameSender × Option GoError) (s : FrameSender) :
    List Frame → FrameSender × Option GoError
  | [] => (s, none)
  | f :: fs =>
      match one s f with
      | (s, some e) => (s, some e)
      | (s, none) => sendEach one s fs

def sendFlushed (t : Behaviour GoError) (s : FrameSender) (fs : List Frame) :
    FrameSender × Option GoError :=
  sendEach (send t) s fs

/-- As `sendOpen` does it: the flush is deferred, and its error counts when there is no
other one. -/
def sendMessage (t : Behaviour GoError) (s : FrameSender) (fs : List Frame) :
    FrameSender × Option GoError :=
  let (s, err) := sendEach (sendUnflushed t) s fs
  let (s, endError) := s.endSendUnflushed t
  (s, err.or endError)

end FrameSender

end Amqp091

import Amqp091.Algorithm.Method
import Amqp091.Model.Frame

/-! # Decoding of frames

The parsers return a frame and an error as the source does, so that a reader of these
definitions can see which combinations occur. -/

namespace Amqp091

open ByteCodec Reader

abbrev ReadErr := ReadError GoError

/-- The two named results of a parser. -/
structure Parsed where
  frame : Option Frame
  err : Option ReadErr

/-- Bare `return` after a failed read: the frame result was not assigned yet. -/
def namedResults (p : FieldReader Frame) : FieldReader Parsed := do
  match ← attempt p with
  | .ok frame => return ⟨some frame, none⟩
  | .error e => return ⟨none, some e⟩

def parseMethodFrame (channel : UInt16) (_size : UInt32) : FieldReader Parsed := namedResults do
  let classId ← readUInt16
  let methodId ← readUInt16
  match methodOf classId methodId with
  | .ok m => do
      let method ← m.read
      return .method channel classId methodId (some method)
  | .error e => throw (.other e)

/-- A property is read when its flag is set and keeps its zero value otherwise. -/
def readIf {α : Type} (flags : UInt16) (flag : ℕ) (p : FieldReader α) (zero : α) :
    FieldReader α :=
  if hasProperty flags flag then p else pure zero

def readProperties (flags : UInt16) : FieldReader Properties := do
  let contentType ← readIf flags flagContentType readShortstr []
  let contentEncoding ← readIf flags flagContentEncoding readShortstr []
  let headers ← readIf flags flagHeaders readTable []
  let deliveryMode ← readIf flags flagDeliveryMode readUInt8 0
  let priority ← readIf flags flagPriority readUInt8 0
  let correlationId ← readIf flags flagCorrelationId readShortstr []
  let replyTo ← readIf flags flagReplyTo readShortstr []
  let expiration ← readIf flags flagExpiration readShortstr []
  let messageId ← readIf flags flagMessageId readShortstr []
  let timestamp ← readIf flags flagTimestamp readTimestamp Time.zero
  let type ← readIf flags flagType readShortstr []
  let userId ← readIf flags flagUserId readShortstr []
  let appId ← readIf flags flagAppId readShortstr []
  let reserved1 ← readIf flags flagReserved1 readShortstr []
  return { contentType, contentEncoding, headers, deliveryMode, priority, correlationId,
           replyTo, expiration, messageId, timestamp, type, userId, appId, reserved1 }

def parseHeaderFrame (channel : UInt16) (_size : UInt32) : FieldReader Parsed := namedResults do
  let classId ← readUInt16
  let weight ← readUInt16
  let size ← readUInt64
  let flags ← readUInt16
  let properties ← readProperties flags
  return .header channel classId weight size properties

def parseBodyFrame (channel : UInt16) (size : UInt32) : FieldReader Parsed := namedResults do
  let body ← readFull size.toNat
  return .body channel body

def parseHeartbeatFrame (channel : UInt16) (size : UInt32) : FieldReader Parsed :=
  if size > 0 then return ⟨none, some (.other errHeartbeatPayload)⟩
  else return ⟨some (.heartbeat channel), none⟩

/-- The switch of `ReadFrame` over the frame type. -/
def parseFrame (typ : UInt8) (channel : UInt16) (size : UInt32) : FieldReader Parsed :=
  if typ = frameMethod then parseMethodFrame channel size
  else if typ = frameHeader then parseHeaderFrame channel size
  else if typ = frameBody then do
    let parsed ← parseBodyFrame channel size
    if parsed.err.isSome then return ⟨none, parsed.err⟩ else return parsed
  else if typ = frameHeartbeat then parseHeartbeatFrame channel size
  else return ⟨none, some (.other errFrame)⟩

/-- What `ReadFrame` does after the switch. -/
def endFrame (parsed : Parsed) : FieldReader Parsed := do
  if parsed.err.isSome then
    return parsed
  match ← attempt (readFull 1) with
  | .error e => return ⟨none, some e⟩
  | .ok scratch =>
      if scratch ≠ [frameEnd] then
        return ⟨none, some (.other errFrame)⟩
      return parsed

def readFrame : FieldReader Parsed := do
  match ← attempt (readFull 7) with
  | .error e => return ⟨none, some e⟩
  | .ok scratch =>
      let typ := UInt8.ofNat (getBE (scratch.take 1))
      let channel := UInt16.ofNat (getBE ((scratch.drop 1).take 2))
      let size := UInt32.ofNat (getBE ((scratch.drop 3).take 4))
      let parsed ← parseFrame typ channel size
      endFrame parsed

/-- `Connection.reader` without its dispatch: frames are read until the first error. -/
def readFramesAux : ℕ → FieldReader (List Frame × ReadErr)
  | 0 => timeout
  | fuel + 1 => do
      let parsed ← readFrame
      match parsed.err with
      | some e => return ([], e)
      | none => do
          let (frames, e) ← readFramesAux fuel
          return (parsed.frame.toList ++ frames, e)

/-- A frame consumes at least its header, so one round for each byte is enough. -/
def readFrames : FieldReader (List Frame × ReadErr) := fun r => readFramesAux (r.length + 1) r

end Amqp091

import Amqp091.Algorithm.Method
import Amqp091.Model.Frame

/-! # Encoding of frames -/

namespace Amqp091

open ByteCodec

def errMissingMethod : GoError := .text "malformed frame: missing method"

/-- The frame header is assembled from masked and shifted bytes of the two numbers. -/
def writeFrame (typ : UInt8) (channel : UInt16) (payload : Bytes) : Output GoError Unit := do
  let size := UInt64.ofNat payload.length
  Output.emit [
    typ,
    ((channel &&& 0xff00) >>> 8).toUInt8,
    ((channel &&& 0x00ff) >>> 0).toUInt8,
    ((size &&& 0xff000000) >>> 24).toUInt8,
    ((size &&& 0x00ff0000) >>> 16).toUInt8,
    ((size &&& 0x0000ff00) >>> 8).toUInt8,
    ((size &&& 0x000000ff) >>> 0).toUInt8]
  Output.emit payload
  Output.emit [frameEnd]

/-- `if present { mask |= flag }`. -/
def maskIf (present : Bool) (flag : ℕ) (mask : UInt16) : UInt16 :=
  if present then mask ||| UInt16.ofNat flag else mask

/-- The first pass over the properties of a header frame. -/
def propertyMask (p : Properties) : UInt16 :=
  (0 : UInt16)
    |> maskIf (p.contentType ≠ []) flagContentType
    |> maskIf (p.contentEncoding ≠ []) flagContentEncoding
    |> maskIf (p.headers.length > 0) flagHeaders
    |> maskIf (p.deliveryMode > 0) flagDeliveryMode
    |> maskIf (p.priority > 0) flagPriority
    |> maskIf (p.correlationId ≠ []) flagCorrelationId
    |> maskIf (p.replyTo ≠ []) flagReplyTo
    |> maskIf (p.expiration ≠ []) flagExpiration
    |> maskIf (p.messageId ≠ []) flagMessageId
    |> maskIf (!p.timestamp.isZero) flagTimestamp
    |> maskIf (p.type ≠ []) flagType
    |> maskIf (p.userId ≠ []) flagUserId
    |> maskIf (p.appId ≠ []) flagAppId

/-- `if hasProperty(mask, flag) { … }` around one write. -/
def writeIf (mask : UInt16) (flag : ℕ) (w : Output GoError Unit) : Output GoError Unit :=
  if hasProperty mask flag then w else pure ()

/-- The second pass over the properties of a header frame. -/
def writeProperties (mask : UInt16) (p : Properties) : Output GoError Unit := do
  writeIf mask flagContentType (writeShortstr p.contentType)
  writeIf mask flagContentEncoding (writeShortstr p.contentEncoding)
  writeIf mask flagHeaders (writeTable p.headers)
  writeIf mask flagDeliveryMode (Output.emit (putBE 1 p.deliveryMode.toNat))
  writeIf mask flagPriority (Output.emit (putBE 1 p.priority.toNat))
  writeIf mask flagCorrelationId (writeShortstr p.correlationId)
  writeIf mask flagReplyTo (writeShortstr p.replyTo)
  writeIf mask flagExpiration (writeShortstr p.expiration)
  writeIf mask flagMessageId (writeShortstr p.messageId)
  writeIf mask flagTimestamp (Output.emit (putBE 8 p.timestamp.unix.toUInt64.toNat))
  writeIf mask flagType (writeShortstr p.type)
  writeIf mask flagUserId (writeShortstr p.userId)
  writeIf mask flagAppId (writeShortstr p.appId)

/-- Each payload is built in a buffer of its own before anything reaches the writer. -/
def Frame.write : Frame → Output GoError Unit
  | .method _ _ _ none => Output.throw errMissingMethod
  | .method channelId _ _ (some m) => do
      let payload ← Output.capture (do
        Output.emit (putBE 2 m.id.1.toNat)
        Output.emit (putBE 2 m.id.2.toNat)
        m.write)
      writeFrame frameMethod channelId payload
  | .header channelId classId weight size p => do
      let payload ← Output.capture (do
        Output.emit (putBE 2 classId.toNat)
        Output.emit (putBE 2 weight.toNat)
        Output.emit (putBE 8 size.toNat)
        let mask := propertyMask p
        Output.emit (putBE 2 mask.toNat)
        writeProperties mask p)
      writeFrame frameHeader channelId payload
  | .body channelId payload => writeFrame frameBody channelId payload
  | .heartbeat channelId => writeFrame frameHeartbeat channelId []

/-- Frames sent one after the other on the same connection. -/
def writeFrames : List Frame → Output GoError Unit
  | [] => pure ()
  | f :: fs => do
      f.write
      writeFrames fs

end Amqp091

import Amqp091.Model.Method

/-! # Frames and content properties -/

namespace Amqp091

open ByteCodec

structure Properties where
  contentType : Bytes := []
  contentEncoding : Bytes := []
  headers : Table := []
  deliveryMode : UInt8 := 0
  priority : UInt8 := 0
  correlationId : Bytes := []
  replyTo : Bytes := []
  expiration : Bytes := []
  messageId : Bytes := []
  timestamp : Time := Time.zero
  type : Bytes := []
  userId : Bytes := []
  appId : Bytes := []
  reserved1 : Bytes := []

/-- A `methodFrame` whose `Method` is `none` holds the nil interface. -/
inductive Frame where
  | method (channelId classId methodId : UInt16) (method : Option Message)
  | header (channelId classId weight : UInt16) (size : UInt64) (properties : Properties)
  | body (channelId : UInt16) (body : Bytes)
  | heartbeat (channelId : UInt16)

def Frame.channel : Frame → UInt16
  | .method channelId .. => channelId
  | .header channelId .. => channelId
  | .body channelId _ => channelId
  | .heartbeat channelId => channelId

def frameMethod : UInt8 := 1
def frameHeader : UInt8 := 2
def frameBody : UInt8 := 3
def frameHeartbeat : UInt8 := 8
def frameEnd : UInt8 := 206

def flagContentType : ℕ := 0x8000
def flagContentEncoding : ℕ := 0x4000
def flagHeaders : ℕ := 0x2000
def flagDeliveryMode : ℕ := 0x1000
def flagPriority : ℕ := 0x0800
def flagCorrelationId : ℕ := 0x0400
def flagReplyTo : ℕ := 0x0200
def flagExpiration : ℕ := 0x0100
def flagMessageId : ℕ := 0x0080
def flagTimestamp : ℕ := 0x0040
def flagType : ℕ := 0x0020
def flagUserId : ℕ := 0x0010
def flagAppId : ℕ := 0x0008
def flagReserved1 : ℕ := 0x0004

def hasProperty (mask : UInt16) (prop : ℕ) : Bool := mask.toNat &&& prop > 0

end Amqp091

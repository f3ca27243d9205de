import Amqp091.Model.Field

/-! # The configuration of a connection

Durations are `int64` numbers of nanoseconds, a Go `int` is 64 bits wide. -/

namespace Amqp091

open ByteCodec

/-- The implementations of `Authentication`. One of the application's own is given by what
its two methods return. -/
inductive Authentication where
  | plainAuth (username password : Bytes)
  | amqPlainAuth (username password : Bytes)
  | externalAuth
  | other (mechanism response : Bytes)
  deriving DecidableEq, Repr

/-- `sasl` is a slice that may be nil. -/
structure Config where
  sasl : Option (List Authentication) := none
  vhost : Bytes := []
  channelMax : UInt16 := 0
  frameSize : Int64 := 0
  heartbeat : Int64 := 0
  deriving DecidableEq, Repr

/-- `time.Second`. -/
def second : Int64 := 1000000000

/-- `2 << 15 - 1`. -/
def maxChannelMax : UInt16 := 65535

/-- `2 << 10 - 1`. -/
def defaultChannelMax : UInt16 := 2047

def defaultHeartbeat : Int64 := 10 * second

end Amqp091

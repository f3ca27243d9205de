import Amqp091.Algorithm.IntAllocator
import Amqp091.Algorithm.Tune
import Amqp091.Model.Config
import Amqp091.Model.Method

/-! # Tuning a connection

The limits that `openTune` takes from the configuration and from the server's
`connection.tune`, and the ones that it reports in `connection.tune-ok`. -/

namespace Amqp091

structure ConnectionTune where
  channelMax : UInt16
  frameMax : UInt32
  heartbeat : UInt16
  deriving DecidableEq, Repr

structure ConnectionTuneOk where
  channelMax : UInt16
  frameMax : UInt32
  heartbeat : UInt16
  deriving DecidableEq, Repr

def ConnectionTuneOk.message (ok : ConnectionTuneOk) : Message :=
  ⟨.connectionTuneOk, (ok.channelMax, ok.frameMax, ok.heartbeat, ())⟩

/-- The fields of the connection and of its `Config` that `openTune` sets. -/
structure Tuned where
  channelMax : UInt16
  allocator : IntAllocator
  frameSize : Int64
  heartbeat : Int64
  deriving DecidableEq, Repr

def maxUInt16 (a b : UInt16) : UInt16 := if a > b then a else b

def minUInt16 (a b : UInt16) : UInt16 := if a < b then a else b

def pickUInt16 (client server : UInt16) : UInt16 :=
  if client = 0 ∨ server = 0 then maxUInt16 client server else minUInt16 client server

def tunedChannelMax (configChannelMax channelMax : UInt16) : UInt16 :=
  let picked := pickUInt16 configChannelMax channelMax
  minUInt16 (if picked = 0 then defaultChannelMax else picked) maxChannelMax

def tunedHeartbeat (configHeartbeat : Int64) (heartbeat : UInt16) : Int64 :=
  second * pick (configHeartbeat / second) heartbeat.toUInt64.toInt64

def openTune (config : Config) (tune : ConnectionTune) : Tuned where
  channelMax := tunedChannelMax config.channelMax tune.channelMax
  allocator := .newAllocator 1
    (tunedChannelMax config.channelMax tune.channelMax).toUInt64.toInt64
  frameSize := tunedFrameSize config.frameSize tune.frameMax
  heartbeat := tunedHeartbeat config.heartbeat tune.heartbeat

/-- The conversions to the types of the fields keep the low bits. -/
def Tuned.tuneOk (t : Tuned) : ConnectionTuneOk where
  channelMax := t.channelMax
  frameMax := t.frameSize.toUInt64.toUInt32
  heartbeat := (t.heartbeat / second).toUInt64.toUInt16

end Amqp091

import Amqp091.Algorithm.SendOpen

/-! # The negotiated frame size

A Go `int` is a signed 64-bit number here, and so are the two indices of the loop over
the body: the sum of a bound and the chunk size may wrap. -/

namespace Amqp091

open ByteCodec

/-- `max` of two `int`s. -/
def maxInt (a b : Int64) : Int64 := if a > b then a else b

/-- `min` of two `int`s. -/
def minInt (a b : Int64) : Int64 := if a < b then a else b

def pick (client server : Int64) : Int64 :=
  if client = 0 ∨ server = 0 then maxInt client server else minInt client server

/-- `c.Config.FrameSize` as `openTune` sets it from the configuration and `tune.FrameMax`. -/
def tunedFrameSize (configFrameSize : Int64) (frameMax : UInt32) : Int64 :=
  pick configFrameSize frameMax.toUInt64.toInt64

/-- `len(body)`. -/
def lenInt (body : Bytes) : Int64 := Int64.ofNat body.length

def chunkSizeInt (frameSize : Int64) (body : Bytes) : Int64 :=
  if frameSize > 0 then frameSize - 8 else lenInt body

/-- The loop of `sendOpen` over the indices `i` and `j`, with a bound on its rounds. -/
def chunkLoopInt (body : Bytes) (size : Int64) : ℕ → Int64 → Int64 → Loop (List Bytes)
  | 0, _, _ => .timeout
  | rounds + 1, i, j =>
      if i < lenInt body then
        let j := if j > lenInt body then lenInt body else j
        match sliceBody body i.toInt j.toInt with
        | none => .panic
        | some chunk => (chunkLoopInt body size rounds j (j + size)).map (chunk :: ·)
      else .done []

/-- The bodies of the body frames that `sendOpen` writes. -/
def chunkBody (frameSize : Int64) (body : Bytes) (rounds : ℕ) : Loop (List Bytes) :=
  chunkLoopInt body (chunkSizeInt frameSize body) rounds 0 (chunkSizeInt frameSize body)

end Amqp091

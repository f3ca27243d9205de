import Amqp091.Shared.Ticker
import Mathlib.Data.Int.Notation

/-! # The heartbeater

The goroutine `heartbeater` with what it talks to: the writers of frames, which tell it the
time of a write when it is there to hear of it, and the reader, which asks for a new read
deadline after every frame. Times and durations are in nanoseconds. -/

namespace Amqp091

open Timers

/-- `time.Second`, the tolerance for jitter. -/
def jitter : ℕ := 1000000000

def maxServerHeartbeatsInFlight : ℕ := 3

/-- `at.Sub(lastSent) > interval-time.Second`. -/
def heartbeatDue (interval tick lastSent : ℕ) : Bool :=
  (tick : ℤ) - lastSent > (interval : ℤ) - jitter

/-- The goroutine waits at its `select`, has taken a tick, has taken the connection that
was passed on after the frame of the time `read`, or has returned. -/
inductive HeartbeatPhase where
  | waiting
  | ticked (tick : ℕ)
  | resetting (read : ℕ)
  | returned
  deriving DecidableEq, Repr

/-- The reader is in `ReadFrame`, handles the frame that it read at the time `read`, or has
returned. -/
inductive FrameReader where
  | reading
  | demuxing (read : ℕ)
  | stopped
  deriving DecidableEq, Repr

/-- What `SetReadDeadline` returns: an error of the network is passed over. -/
inductive DeadlineResult where
  | ok
  | opError
  | otherError
  deriving DecidableEq, Repr

/-- `deadlines` is the buffer of the channel, with the time of the frame behind its entry.
`writers` are the goroutines between a write and the `select` on `sends`, by the time of the
write. `lastWritten` and `lastRead` are the times of the last frames, of the start before
there are any. -/
structure Heartbeater where
  interval : ℕ
  now : ℕ
  phase : HeartbeatPhase
  lastSent : ℕ
  ticker : Ticker
  deadlines : Option ℕ
  readDeadline : Option ℕ
  reader : FrameReader
  writers : List ℕ
  closed : Bool
  failed : Bool
  lastWritten : ℕ
  lastRead : ℕ
  deriving DecidableEq, Repr

inductive HeartbeatAction where
  | pass (d : ℕ)
  | fire
  | takeTick
  | checkTick (fails : Bool)
  | write
  | notify (w : ℕ) (taken : Bool)
  | readFrame
  | demuxed
  | takeDeadline
  | setReadDeadline (r : DeadlineResult)
  | openComplete
  | timeout
  | shutdown
  | done
  deriving DecidableEq, Repr

namespace Heartbeater

/-- `heartbeater` is started. The deadline of the dialer is left out, `openComplete` clears
it. -/
def start (interval now : ℕ) : Heartbeater where
  interval := interval
  now := now
  phase := .waiting
  lastSent := now
  ticker := .new interval now
  deadlines := none
  readDeadline := none
  reader := .reading
  writers := []
  closed := false
  failed := false
  lastWritten := now
  lastRead := now

/-- Nothing else is ready at the `select`, so that the goroutine may be parked there. -/
def parked (s : Heartbeater) : Bool :=
  s.phase = .waiting && s.ticker.buffer.isNone && s.deadlines.isNone

/-- The case of a tick. The notification of its own write finds no receiver. -/
def checkTick (s : Heartbeater) (tick : ℕ) (fails : Bool) : Heartbeater :=
  if heartbeatDue s.interval tick s.lastSent then
    if s.closed then { s with phase := .returned }
    else if fails then { s with phase := .returned, failed := true }
    else { s with phase := .waiting, lastWritten := s.now }
  else { s with phase := .waiting }

/-- The case of a connection. -/
def setReadDeadline (s : Heartbeater) : DeadlineResult → Heartbeater
  | .ok =>
      if 0 < s.interval then
        { s with
          phase := .waiting
          readDeadline := some (s.now + maxServerHeartbeatsInFlight * s.interval) }
      else { s with phase := .waiting }
  | .opError => { s with phase := .waiting }
  | .otherError =>
      if 0 < s.interval then { s with phase := .returned, failed := true }
      else { s with phase := .waiting }

def next (s : Heartbeater) : HeartbeatAction → Option Heartbeater
  | .pass d => some { s with now := s.now + d }
  | .fire => (s.ticker.fire s.now).map fun t => { s with ticker := t }
  | .takeTick =>
      match s.phase, s.ticker.buffer with
      | .waiting, some tick => some { s with phase := .ticked tick, ticker := s.ticker.receive }
      | _, _ => none
  | .checkTick fails =>
      match s.phase with
      | .ticked tick => some (s.checkTick tick fails)
      | _ => none
  -- `send` or `flush` of another goroutine
  | .write => some { s with lastWritten := s.now, writers := s.now :: s.writers }
  | .notify w taken =>
      if w ∈ s.writers ∧ (taken = true → s.parked = true) then
        some { s with
          writers := s.writers.erase w
          lastSent := if taken then s.now else s.lastSent }
      else none
  | .readFrame =>
      match s.reader with
      | .reading => some { s with reader := .demuxing s.now, lastRead := s.now }
      | _ => none
  -- a full buffer leaves the connection that is in it
  | .demuxed =>
      match s.reader with
      | .demuxing read =>
          some { s with reader := .reading, deadlines := s.deadlines.or (some read) }
      | _ => none
  | .takeDeadline =>
      match s.phase, s.deadlines with
      | .waiting, some read => some { s with phase := .resetting read, deadlines := none }
      | _, _ => none
  | .setReadDeadline r =>
      match s.phase with
      | .resetting _ => some (s.setReadDeadline r)
      | _ => none
  | .openComplete => some { s with readDeadline := none }
  | .timeout =>
      match s.reader, s.readDeadline with
      | .reading, some deadline =>
          if deadline ≤ s.now then some { s with reader := .stopped, closed := true } else none
      | _, _ => none
  | .shutdown => some { s with closed := true }
  | .done =>
      match s.phase, s.closed with
      | .waiting, true => some { s with phase := .returned }
      | _, _ => none

end Heartbeater

end Amqp091

import Amqp091.Model.Content

/-! # Sending a message with content -/

namespace Amqp091

open ByteCodec

/-- How a loop ends: with a value, in a run-time panic, or not within its bound. -/
inductive Loop (α : Type) where
  | done (v : α)
  | panic
  | timeout
  deriving DecidableEq, Repr

def Loop.map {α β : Type} (f : α → β) : Loop α → Loop β
  | done v => done (f v)
  | panic => panic
  | timeout => timeout

def frameHeaderSize : ℤ := 8

/-- `body[i:j]`. -/
def sliceBody (body : Bytes) (i j : ℤ) : Option Bytes :=
  if 0 ≤ i ∧ i ≤ j ∧ j ≤ body.length then some ((body.drop i.toNat).take (j - i).toNat)
  else none

/-- `for i, j := 0, size; i < len(body); i, j = j, j+size`, over a bound on its rounds. -/
def chunkLoop (body : Bytes) (size : ℤ) : ℕ → ℤ → ℤ → Loop (List Bytes)
  | 0, _, _ => .timeout
  | rounds + 1, i, j =>
      if i < body.length then
        let j := if j > body.length then (body.length : ℤ) else j
        match sliceBody body i j with
        | none => .panic
        | some chunk => (chunkLoop body size rounds j (j + size)).map (chunk :: ·)
      else .done []

def chunkSize (frameSize : ℤ) (body : Bytes) : ℤ :=
  if frameSize > 0 then frameSize - frameHeaderSize else body.length

/-- The frames `sendOpen` writes for a message with content when no write fails. -/
def sendOpen {rt : GoRuntime} (frameSize : ℤ) (id : UInt16) (c : Content rt) :
    Loop (List Frame) :=
  let size := chunkSize frameSize c.body
  (chunkLoop c.body size (c.body.length + 1) 0 size).map fun chunks =>
    .method id 0 0 (some c.method) ::
    .header id c.method.id.1 0 (UInt64.ofNat c.body.length) c.properties ::
    chunks.map (Frame.body id)

/-- Messages sent one after the other on one channel. -/
def sendAll {rt : GoRuntime} (frameSize : ℤ) (id : UInt16) :
    List (Content rt) → Loop (List Frame)
  | [] => .done []
  | c :: cs =>
      match sendOpen frameSize id c with
      | .done frames => (sendAll frameSize id cs).map (frames ++ ·)
      | .panic => .panic
      | .timeout => .timeout

end Amqp091

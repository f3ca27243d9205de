import Amqp091.Model.Frame

/-! # Messages with content -/

namespace Amqp091

open ByteCodec

/-- What the Go runtime decides: the largest allocation and how `append` enlarges a
slice of capacity `cap` that has to hold `n` bytes. -/
structure GoRuntime where
  maxAlloc : ℕ
  maxAlloc_lt : maxAlloc < 2 ^ 63
  grow : (cap n : ℕ) → ℕ
  le_grow : ∀ cap n, n ≤ grow cap n

/-- The largest allocation on 64-bit Linux, and growth to exactly what is needed. -/
def GoRuntime.exact : GoRuntime where
  maxAlloc := 2 ^ 48
  maxAlloc_lt := by decide
  grow := fun _ n => n
  le_grow := fun _ _ => le_rfl

/-- A message with content. A Go slice is never longer than the largest allocation. -/
structure Content (rt : GoRuntime) where
  method : Message
  properties : Properties
  body : Bytes
  hasContent : method.hasContent = true
  body_le : body.length ≤ rt.maxAlloc

/-- What a channel hands to `dispatch`: a method, possibly nil, or a message whose content
was set. -/
inductive Dispatched where
  | method (m : Option Message)
  | content (m : Message) (properties : Properties) (body : Bytes)

def Content.dispatched {rt : GoRuntime} (c : Content rt) : Dispatched :=
  .content c.method c.properties c.body

/-- A message the server could not route. -/
structure Return where
  replyCode : UInt16
  replyText : Bytes
  exchange : Bytes
  routingKey : Bytes
  properties : Properties
  body : Bytes

end Amqp091

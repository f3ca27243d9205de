import Amqp091.Algorithm.Receive

/-! # Computation rules for the receivers -/

namespace Amqp091

open ByteCodec

variable {rt : GoRuntime}

theorem Content.toNat_length (c : Content rt) :
    (UInt64.ofNat c.body.length).toNat = c.body.length := by
  have hle := c.body_le
  have hmax := rt.maxAlloc_lt
  have hlt : c.body.length < 2 ^ 64 := by omega
  exact UInt64.toNat_ofNat_of_lt' hlt

theorem reserveBody_eq_none {size : UInt64} (body : Bytes) {cap : ℕ} :
    reserveBody rt size body cap = none ↔ cap = 0 ∧ rt.maxAlloc < size.toNat := by
  unfold reserveBody
  by_cases hcap : cap = 0
  · simp [hcap]
  · simp [hcap]

theorem appendCap_eq_none {cap newLen : ℕ} :
    appendCap rt cap newLen = none ↔ cap < newLen ∧ rt.maxAlloc < rt.grow cap newLen := by
  unfold appendCap
  by_cases hcap : newLen ≤ cap
  · simp [hcap]
  · simp [hcap, Nat.lt_of_not_le hcap]

/-- A chunk that fits is added to the body, which is dispatched once it is long enough. -/
theorem recv_body {message : Message} {size : UInt64} {properties : Properties}
    {body body' chunk : Bytes} {cap cap' cap'' : ℕ} (id : UInt16)
    (hreserve : reserveBody rt size body cap = some (body', cap'))
    (happend : appendCap rt cap' (body' ++ chunk).length = some cap'') :
    recv rt (.recvContent message size properties body cap) (.body id chunk) =
      if size ≤ UInt64.ofNat (body' ++ chunk).length then
        some (.recvMethod, some (.content message properties (body' ++ chunk)))
      else some (.recvContent message size properties (body' ++ chunk) cap'', none) := by
  rw [recv, recvContent, hreserve, Option.bind_eq_bind, Option.bind_some]
  simp only [happend, Option.bind_eq_bind, Option.bind_some]
  rfl

/-- Behind a buffer that was reserved only `append` can panic. -/
theorem recv_body_eq_none {message : Message} {size : UInt64} {properties : Properties}
    {body body' chunk : Bytes} {cap cap' : ℕ} (id : UInt16)
    (hreserve : reserveBody rt size body cap = some (body', cap')) :
    recv rt (.recvContent message size properties body cap) (.body id chunk) = none ↔
      appendCap rt cap' (body' ++ chunk).length = none := by
  cases happend : appendCap rt cap' (body' ++ chunk).length with
  | none =>
      rw [recv, recvContent, hreserve, Option.bind_eq_bind, Option.bind_some]
      simp only [happend, Option.bind_eq_bind, Option.bind_none]
  | some cap'' =>
      rw [recv_body id hreserve happend]
      split <;> simp

end Amqp091

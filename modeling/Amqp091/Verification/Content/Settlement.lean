import Amqp091.Algorithm.Delivery
import Amqp091.Verification.Content.Transport

/-! # Acknowledgements

An acknowledgement made through a delivery reaches the server on the channel and with the tag
the server had given to that delivery. -/

namespace Amqp091

open ByteCodec Reader

variable {rt : GoRuntime}

/-- The three ways to settle a delivery. -/
inductive Settlement where
  | ack (multiple : Bool)
  | nack (multiple requeue : Bool)
  | reject (requeue : Bool)
  deriving DecidableEq

def Delivery.settle (d : Delivery) : Settlement → Except GoError (UInt16 × Call rt)
  | .ack multiple => d.ack multiple
  | .nack multiple requeue => d.nack multiple requeue
  | .reject requeue => d.reject requeue

/-- The method a server expects for a tag. -/
def Settlement.method (tag : UInt64) : Settlement → Message
  | ack multiple => ⟨.basicAck, (tag, #[multiple].toVector, ())⟩
  | nack multiple requeue => ⟨.basicNack, (tag, #[multiple, requeue].toVector, ())⟩
  | reject requeue => ⟨.basicReject, (tag, #[requeue].toVector, ())⟩

/-- The tag the server gives to a message. -/
def Message.deliveryTag : Message → Option UInt64
  | ⟨.basicDeliver, (_, tag, _)⟩ => some tag
  | ⟨.basicGetOk, (tag, _)⟩ => some tag
  | _ => none

/-- The delivery the application gets from a dispatched message, as a consumer or from
`Channel.Get`. -/
def deliveryOf (id : UInt16) (out : Dispatched) : Option Delivery :=
  match dispatchContent id out with
  | some (.consumer _ d) => some d
  | some (.rpc ⟨.basicGetOk, args⟩ properties body) =>
      let (d, ok) := getResult id args properties body
      if ok then some d else none
  | _ => none

/-- A delivery names the channel it came on and the tag of the message it is made of. -/
theorem deliveryOf_received {id : UInt16} {msg : Outgoing rt} {d : Delivery}
    (h : deliveryOf id msg.received = some d) :
    ∃ c, msg = .content c ∧ c.method.deliveryTag = some d.deliveryTag ∧
      d.acknowledger = some id := by
  cases msg with
  | plain => cases h
  | content c =>
      refine ⟨c, rfl, ?_⟩
      obtain ⟨⟨m, args⟩, properties, body, hcontent, hbody⟩ := c
      cases m with
      | basicDeliver =>
          cases h
          exact ⟨rfl, rfl⟩
      | basicGetOk =>
          simp only [deliveryOf, Outgoing.received, Content.dispatched, Content.received,
            Message.asRead, dispatchContent, getResult] at h
          split at h
          · cases h
            exact ⟨rfl, rfl⟩
          · cases h
      | basicPublish | basicReturn => cases h
      | _ => cases hcontent

theorem settle_of_acknowledger {d : Delivery} {id : UInt16} (h : d.acknowledger = some id)
    (s : Settlement) : ∃ call : Call rt, d.settle s = .ok (id, call) ∧
      call.message.received = .method (some (s.method d.deliveryTag)) := by
  cases s with
  | ack multiple =>
      exact ⟨.ack d.deliveryTag multiple, by simp [Delivery.settle, Delivery.ack,
        Delivery.acknowledge, h], rfl⟩
  | nack multiple requeue =>
      exact ⟨.nack d.deliveryTag multiple requeue, by simp [Delivery.settle, Delivery.nack,
        Delivery.acknowledge, h], rfl⟩
  | reject requeue =>
      exact ⟨.reject d.deliveryTag requeue, by simp [Delivery.settle, Delivery.reject,
        Delivery.acknowledge, h], rfl⟩

/-- The server sends any messages on its channels, and the client any replies on the same
channels. The messages arrive. Whatever settlement the client makes of a delivery goes out on
the channel the delivery came from, and where it stands among the replies the server reads the
tag it had sent with the message. -/
theorem settlement_reaches_server (frameSize frameSize' : ℤ) (hframe : ValidFrameSize frameSize)
    (hframe' : ValidFrameSize frameSize') (sent replies : UInt16 → List (Outgoing rt))
    (hsendable : ∀ id, ∀ msg ∈ sent id, msg.Sendable frameSize)
    (hsendable' : ∀ id, ∀ msg ∈ replies id, msg.Sendable frameSize')
    (frames frames' : List Frame)
    (hsent : ∀ id, sendEach frameSize id (sent id) =
      .done (frames.filter fun f => f.channel = id))
    (hsent' : ∀ id, sendEach frameSize' id (replies id) =
      .done (frames'.filter fun f => f.channel = id)) :
    ∃ r r', Carried rt frames r ∧ Carried rt frames' r' ∧
      (∀ id, r.dispatched id = (sent id).map Outgoing.received) ∧
      ∀ (id : UInt16) (j : ℕ) (d : Delivery),
        (r.dispatched id)[j]?.bind (deliveryOf id) = some d →
        ∃ c tag, (sent id)[j]? = some (.content c) ∧ c.method.deliveryTag = some tag ∧
          ∀ s : Settlement, ∃ call : Call rt, d.settle s = .ok (id, call) ∧
            ∀ k : ℕ, (replies id)[k]? = some call.message →
              (r'.dispatched id)[k]? = some (.method (some (s.method tag))) := by
  obtain ⟨r, hcarried, hdispatched⟩ := carried_messages hframe hsendable hsent
  obtain ⟨r', hcarried', hdispatched'⟩ := carried_messages hframe' hsendable' hsent'
  refine ⟨r, r', hcarried, hcarried', hdispatched, fun id j d hd => ?_⟩
  rw [hdispatched id, List.getElem?_map] at hd
  cases hj : (sent id)[j]? with
  | none =>
      rw [hj] at hd
      cases hd
  | some msg =>
      rw [hj] at hd
      obtain ⟨c, rfl, htag, hacknowledger⟩ := deliveryOf_received hd
      refine ⟨c, d.deliveryTag, rfl, htag, fun s => ?_⟩
      obtain ⟨call, hsettle, hreceived⟩ := settle_of_acknowledger hacknowledger s
      refine ⟨call, hsettle, fun k hk => ?_⟩
      rw [hdispatched' id, List.getElem?_map, hk, Option.map_some, hreceived]

/-- An empty message with the tag seven on channel 1, and its acknowledgement. -/
theorem settlement_reaches_server_seven :
    let message : Message :=
      ⟨.basicDeliver, ([99], (7 : UInt64), #[false].toVector, [], [107], ())⟩
    let ack := (Settlement.ack true).method 7
    ∃ r r', Carried .exact [.method 1 0 0 (some message), .header 1 60 0 0 {}] r ∧
      Carried .exact [.method 1 0 0 (some ack)] r' ∧
      ∃ d, (r.dispatched 1)[0]?.bind (deliveryOf 1) = some d ∧
        ∃ call : Call .exact, d.settle (.ack true) = .ok (1, call) ∧
          (r'.dispatched 1)[0]? = some (.method (some ack)) := by
  intro message ack
  let c : Content .exact := ⟨message, {}, [], rfl, by decide⟩
  have hheaders : Encodable (.table []) := by
    simp only [Encodable, EncodableEntries]
    decide
  have hproperties : Properties.Encodable {} := by
    constructor <;> first | exact hheaders | simp [Time.zero]
  have hsendable : ∀ id : UInt16, ∀ msg ∈ (if id = 1 then [Outgoing.content c] else []),
      msg.Sendable 0 := by
    intro id msg hmsg
    split at hmsg
    · cases List.mem_singleton.mp hmsg
      exact ⟨⟨(by decide : 1 ≤ 255), trivial, trivial, Nat.zero_le _, (by decide : 1 ≤ 255),
        trivial⟩, hproperties, fun _ => by decide⟩
    · cases hmsg
  let reply : Outgoing .exact := .plain ack rfl
  have hsendable' : ∀ id : UInt16, ∀ msg ∈ (if id = 1 then [reply] else []),
      msg.Sendable 0 := by
    intro id msg hmsg
    split at hmsg
    · cases List.mem_singleton.mp hmsg
      exact ⟨trivial, trivial, trivial⟩
    · cases hmsg
  obtain ⟨r, r', hcarried, hcarried', hdispatched, hsettles⟩ := settlement_reaches_server 0 0
    ⟨.inl rfl, by decide⟩ ⟨.inl rfl, by decide⟩ _ _ hsendable hsendable'
    [.method 1 0 0 (some message), .header 1 60 0 0 {}] [.method 1 0 0 (some ack)] (by
    intro id
    by_cases h1 : id = 1
    · subst h1
      rfl
    · simp [h1, Ne.symm h1, Frame.channel, sendEach]) (by
    intro id
    by_cases h1 : id = 1
    · subst h1
      rfl
    · simp [h1, Ne.symm h1, Frame.channel, sendEach])
  have hd : (r.dispatched 1)[0]?.bind (deliveryOf 1) = some (newDelivery 1 message {} []) := by
    rw [hdispatched 1]
    rfl
  obtain ⟨c', tag, hc, htag, hsettle⟩ := hsettles 1 0 _ hd
  cases hc
  cases htag
  obtain ⟨call, hcall, hreplies⟩ := hsettle (.ack true)
  cases hcall
  exact ⟨r, r', hcarried, hcarried', _, hd, _, rfl, hreplies 0 rfl⟩

end Amqp091

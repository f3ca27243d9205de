import Amqp091.Algorithm.Delivery
import Amqp091.Verification.Content.Transport
import Amqp091.Verification.Frame.Reencode

/-! # From a publishing to a delivery and back

A server that passes published messages on unchanged, between two connections of the client. -/

namespace Amqp091

open ByteCodec Reader

variable {rt : GoRuntime}

/-! ## The server -/

/-- What a server does with a published message: it delivers it to a consumer, answers a
`basic.get` with it, or gives it back. -/
inductive Answer where
  | deliver (consumerTag : Bytes) (deliveryTag : UInt64) (redelivered : Bool)
  | getOk (deliveryTag : UInt64) (redelivered : Bool) (messageCount : UInt32)
  | giveBack (replyCode : UInt16) (replyText : Bytes)
  deriving DecidableEq

namespace Answer

def method (exchange routingKey : Bytes) : Answer → Message
  | deliver consumerTag deliveryTag redelivered =>
      ⟨.basicDeliver,
        (consumerTag, deliveryTag, #[redelivered].toVector, exchange, routingKey, ())⟩
  | getOk deliveryTag redelivered messageCount =>
      ⟨.basicGetOk,
        (deliveryTag, #[redelivered].toVector, exchange, routingKey, messageCount, ())⟩
  | giveBack replyCode replyText =>
      ⟨.basicReturn, (replyCode, replyText, exchange, routingKey, ())⟩

theorem hasContent_method (exchange routingKey : Bytes) (a : Answer) :
    (a.method exchange routingKey).hasContent = true := by
  cases a <;> rfl

/-- Delivery tags start at one. `Channel.Get` takes a zero for an empty queue. -/
def Fits : Answer → Prop
  | deliver consumerTag _ _ => consumerTag.length ≤ 255
  | getOk deliveryTag _ _ => 0 < deliveryTag
  | giveBack _ replyText => replyText.length ≤ 255

theorem encodable_method {exchange routingKey : Bytes} (hexchange : exchange.length ≤ 255)
    (hrouting : routingKey.length ≤ 255) {a : Answer} (h : a.Fits) :
    (a.method exchange routingKey).Encodable := by
  cases a with
  | deliver => exact ⟨h, trivial, trivial, hexchange, hrouting, trivial⟩
  | getOk => exact ⟨trivial, trivial, hexchange, hrouting, trivial, trivial⟩
  | giveBack => exact ⟨trivial, h, hexchange, hrouting, trivial⟩

end Answer

/-- The message with which a server answers for one that it has received. -/
def forward (a : Answer) : Dispatched → Option (Outgoing rt)
  | .content ⟨.basicPublish, (_, exchange, routingKey, _, _)⟩ properties body =>
      if h : body.length ≤ rt.maxAlloc then
        some (.content ⟨a.method exchange routingKey, properties, body,
          a.hasContent_method exchange routingKey, h⟩)
      else none
  | _ => none

/-! ## The client -/

/-- The exported properties of a delivery. -/
def Delivery.properties (d : Delivery) : Properties where
  headers := d.headers
  contentType := d.contentType
  contentEncoding := d.contentEncoding
  deliveryMode := d.deliveryMode
  priority := d.priority
  correlationId := d.correlationId
  replyTo := d.replyTo
  expiration := d.expiration
  messageId := d.messageId
  timestamp := d.timestamp
  type := d.type
  userId := d.userId
  appId := d.appId

/-- The delivery is that of a publishing, received on a channel. -/
structure Delivery.Carries (d : Delivery) (id : UInt16) (p : Publishing rt) : Prop where
  acknowledger : d.acknowledger = some id
  properties : d.properties = p.properties.asRead
  exchange : d.exchange = p.exchange
  routingKey : d.routingKey = p.routingKey
  body : d.body = p.body

structure Return.Carries (r : Return) (p : Publishing rt) : Prop where
  properties : r.properties = p.properties.asRead
  exchange : r.exchange = p.exchange
  routingKey : r.routingKey = p.routingKey
  body : r.body = p.body

/-- What a channel hands over is the publishing, with what the server has added to it. -/
inductive Handed.Answers (id : UInt16) (p : Publishing rt) : Answer → Handed → Prop
  | deliver {consumerTag : Bytes} {deliveryTag : UInt64} {redelivered : Bool} {d : Delivery}
      (hcarries : d.Carries id p) (hconsumer : d.consumerTag = consumerTag)
      (htag : d.deliveryTag = deliveryTag) (hredelivered : d.redelivered = redelivered) :
      Answers id p (.deliver consumerTag deliveryTag redelivered) (.consumer consumerTag d)
  | getOk {deliveryTag : UInt64} {redelivered : Bool} {messageCount : UInt32}
      {args : Args Method.basicGetOk.layout} {properties : Properties} {body : Bytes}
      {d : Delivery} (hget : getResult id args properties body = (d, true))
      (hcarries : d.Carries id p) (htag : d.deliveryTag = deliveryTag)
      (hredelivered : d.redelivered = redelivered) (hcount : d.messageCount = messageCount) :
      Answers id p (.getOk deliveryTag redelivered messageCount)
        (.rpc ⟨.basicGetOk, args⟩ properties body)
  | giveBack {replyCode : UInt16} {replyText : Bytes} {r : Return} (hcarries : r.Carries p)
      (hcode : r.replyCode = replyCode) (htext : r.replyText = replyText) :
      Answers id p (.giveBack replyCode replyText) (.returned r)

/-! ## Passing a message on -/

/-- What the server has read it can send, and it is then read as it is. -/
theorem Properties.Encodable.asRead {p : Properties} (h : p.Encodable) :
    p.asRead.Encodable ∧ p.asRead.asRead = p.asRead := by
  obtain ⟨enc, -, hdecodes⟩ := table_roundTrip h.headers
  obtain ⟨hencodable, hfixed⟩ := readTable_fits (hdecodes.reads [])
  refine ⟨{ h with headers := hencodable }, ?_⟩
  unfold Properties.asRead
  rw [hfixed]

/-- What the server gets of a publishing. -/
def Publishing.received (p : Publishing rt) : Dispatched :=
  .content p.content.method p.properties.asRead p.body

theorem Handed.answers_newDelivery (id : UInt16) {p : Publishing rt}
    (hreserved : p.properties.reserved1 = []) {a : Answer} (ha : a.Fits) :
    ∃ h, dispatchContent id
        (.content (a.method p.exchange p.routingKey) p.properties.asRead p.body) = some h ∧
      h.Answers id p a := by
  have hproperties : { p.properties.asRead with reserved1 := [] } = p.properties.asRead := by
    rw [← hreserved]
    rfl
  cases a with
  | deliver => exact ⟨_, rfl, .deliver ⟨rfl, hproperties, rfl, rfl, rfl⟩ rfl rfl rfl⟩
  | getOk =>
      refine ⟨_, rfl, .getOk (if_pos ha) ⟨rfl, hproperties, rfl, rfl, rfl⟩ rfl rfl rfl⟩
  | giveBack => exact ⟨_, rfl, .giveBack ⟨hproperties, rfl, rfl, rfl⟩ rfl rfl⟩

theorem Answer.asRead_method (exchange routingKey : Bytes) (a : Answer) :
    (a.method exchange routingKey).asRead = a.method exchange routingKey := by
  cases a <;> rfl

theorem forward_received {frameSize frameSize' : ℤ} (id : UInt16) {p : Publishing rt}
    (hp : p.content.Sendable frameSize) (hbody : frameSize' = 0 → p.body.length < 2 ^ 32)
    {a : Answer} (ha : a.Fits) :
    ∃ msg : Outgoing rt, forward a p.received = some msg ∧ msg.Sendable frameSize' ∧
      ∃ h, dispatchContent id msg.received = some h ∧ h.Answers id p a := by
  have hproperties : p.properties.Encodable := hp.properties
  obtain ⟨hencodable, hfixed⟩ := hproperties.asRead
  refine ⟨_, dif_pos p.body_le, ⟨?_, hencodable, hbody⟩, ?_⟩
  · obtain ⟨-, hexchange, hrouting, -⟩ := hp.method
    exact Answer.encodable_method hexchange hrouting ha
  · have hanswers := Handed.answers_newDelivery id hproperties.reserved1 ha
    rw [← hfixed, ← Answer.asRead_method] at hanswers
    exact hanswers

/-- The messages a server sends on one channel: publishings with the answers for them. -/
def forwarded (routes : List (Publishing rt × Answer)) : List (Outgoing rt) :=
  routes.filterMap fun route => forward route.2 route.1.received

theorem forwarded_received {frameSize frameSize' : ℤ} (id : UInt16)
    {routes : List (Publishing rt × Answer)}
    (h : ∀ route ∈ routes, route.1.content.Sendable frameSize ∧
      (frameSize' = 0 → route.1.body.length < 2 ^ 32) ∧ route.2.Fits) :
    (∀ msg ∈ forwarded routes, msg.Sendable frameSize') ∧
      List.Forall₂ (fun out route => ∃ h, dispatchContent id out = some h ∧
        h.Answers id route.1 route.2) ((forwarded routes).map Outgoing.received) routes := by
  induction routes with
  | nil => exact ⟨by simp [forwarded], .nil⟩
  | cons route routes ih =>
      obtain ⟨⟨hp, hbody, ha⟩, hroutes⟩ := List.forall_mem_cons.mp h
      obtain ⟨msg, hforward, hsendable, hanswers⟩ := forward_received id hp hbody ha
      obtain ⟨hmsgs, hall⟩ := ih hroutes
      have hcons : forwarded (route :: routes) = msg :: forwarded routes :=
        List.filterMap_cons_some hforward
      rw [hcons]
      exact ⟨List.forall_mem_cons.mpr ⟨hsendable, hmsgs⟩, .cons hanswers hall⟩

/-- Publishings on any channels reach the server in their order on each channel. Whatever the
server does with each of them, on any channels of another connection and in any interleaving,
the application there gets, in the order of each channel, deliveries and returned messages
with the exchange, routing key, properties and body that were published. -/
theorem published_is_delivered (frameSize frameSize' : ℤ) (hframe : ValidFrameSize frameSize)
    (hframe' : ValidFrameSize frameSize') (publishings : UInt16 → List (Publishing rt))
    (hpublishings : ∀ id, ∀ p ∈ publishings id, p.content.Sendable frameSize ∧
      (frameSize' = 0 → p.body.length < 2 ^ 32))
    (frames : List Frame)
    (hsent : ∀ id, sendEach frameSize id ((publishings id).map fun p => .content p.content) =
      .done (frames.filter fun f => f.channel = id)) :
    (∃ r, Carried rt frames r ∧
      ∀ id, r.dispatched id = (publishings id).map Publishing.received) ∧
    ∀ (routes : UInt16 → List (Publishing rt × Answer)) (frames' : List Frame),
      (∀ id, ∀ route ∈ routes id, (∃ source, route.1 ∈ publishings source) ∧ route.2.Fits) →
      (∀ id, sendEach frameSize' id (forwarded (routes id)) =
        .done (frames'.filter fun f => f.channel = id)) →
      ∃ r, Carried rt frames' r ∧
        ∀ id, List.Forall₂ (fun out route => ∃ h, dispatchContent id out = some h ∧
          h.Answers id route.1 route.2) (r.dispatched id) (routes id) := by
  constructor
  · have hsendable : ∀ id, ∀ msg ∈ (publishings id).map fun p => Outgoing.content p.content,
        msg.Sendable frameSize := fun id =>
      List.forall_mem_map.mpr fun p hp => (hpublishings id p hp).1
    obtain ⟨r, hcarried, hdispatched⟩ := carried_messages hframe hsendable hsent
    refine ⟨r, hcarried, fun id => ?_⟩
    rw [hdispatched id, List.map_map]
    rfl
  · intro routes frames' hroutes hforwarded
    have hfits : ∀ id, ∀ route ∈ routes id, route.1.content.Sendable frameSize ∧
        (frameSize' = 0 → route.1.body.length < 2 ^ 32) ∧ route.2.Fits := by
      intro id route hroute
      obtain ⟨⟨source, hsource⟩, hanswer⟩ := hroutes id route hroute
      obtain ⟨hp, hbody⟩ := hpublishings source route.1 hsource
      exact ⟨hp, hbody, hanswer⟩
    obtain ⟨r, hcarried, hdispatched⟩ := carried_messages hframe'
      (fun id => (forwarded_received id (hfits id)).1) hforwarded
    refine ⟨r, hcarried, fun id => ?_⟩
    rw [hdispatched id]
    exact (forwarded_received id (hfits id)).2

/-- A body of three bytes, published on channel 1 in frames of ten bytes and delivered on
channel 2 of a connection without a frame size. -/
theorem published_is_delivered_once :
    let p : Publishing .exact := ⟨[], [107], false, false, { contentType := [116] }, [1, 2, 3],
      by decide, rfl⟩
    let deliver := (Answer.deliver [99] 1 false).method [] [107]
    (∃ r, Carried .exact [.method 1 0 0 (some p.content.method), .header 1 60 0 3 p.properties,
        .body 1 [1, 2], .body 1 [3]] r ∧ r.dispatched 1 = [p.received]) ∧
    ∃ r, Carried .exact [.method 2 0 0 (some deliver), .header 2 60 0 3 p.properties,
        .body 2 [1, 2, 3]] r ∧
      List.Forall₂ (fun out route => ∃ h, dispatchContent 2 out = some h ∧
        h.Answers 2 route.1 route.2) (r.dispatched 2) [(p, .deliver [99] 1 false)] := by
  intro p deliver
  have hheaders : Encodable (.table p.properties.headers) := by
    simp only [p, Encodable, EncodableEntries]
    decide
  have hproperties : p.properties.Encodable := by
    constructor <;> first | exact hheaders | simp [p, Time.zero]
  have hp : p.content.Sendable 10 :=
    ⟨⟨trivial, Nat.zero_le _, (by decide : 1 ≤ 255), trivial, trivial⟩, hproperties,
      fun h => absurd h (by decide)⟩
  have hpublishings : ∀ id : UInt16, ∀ q ∈ (if id = 1 then [p] else []),
      q.content.Sendable 10 ∧ ((0 : ℤ) = 0 → q.body.length < 2 ^ 32) := by
    intro id q hq
    split at hq
    · cases List.mem_singleton.mp hq
      exact ⟨hp, fun _ => by decide⟩
    · cases hq
  have hroutes : ∀ id : UInt16, ∀ route ∈ (if id = 2 then [(p, Answer.deliver [99] 1 false)]
      else []), (∃ source : UInt16, route.1 ∈ if source = 1 then [p] else []) ∧
        route.2.Fits := by
    intro id route hroute
    split at hroute
    · cases List.mem_singleton.mp hroute
      exact ⟨⟨1, List.mem_singleton.mpr rfl⟩, (by decide : 1 ≤ 255)⟩
    · cases hroute
  obtain ⟨⟨r, hcarried, hdispatched⟩, hforwarded⟩ := published_is_delivered 10 0
    ⟨.inr (by decide), by decide⟩ ⟨.inl rfl, by decide⟩ _ hpublishings
    [.method 1 0 0 (some p.content.method), .header 1 60 0 3 p.properties, .body 1 [1, 2],
      .body 1 [3]] (by
    intro id
    by_cases h1 : id = 1
    · subst h1
      rfl
    · simp [h1, Ne.symm h1, Frame.channel, sendEach])
  obtain ⟨r', hcarried', hanswers⟩ := hforwarded _
    [.method 2 0 0 (some deliver), .header 2 60 0 3 p.properties, .body 2 [1, 2, 3]] hroutes (by
    intro id
    by_cases h2 : id = 2
    · subst h2
      rfl
    · simp [h2, Ne.symm h2, Frame.channel, sendEach, forwarded])
  exact ⟨⟨r, hcarried, hdispatched 1⟩, r', hcarried', hanswers 2⟩

end Amqp091

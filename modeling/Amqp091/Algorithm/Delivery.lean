import Amqp091.Algorithm.Channel
import Amqp091.Algorithm.Consumers

/-! # Deliveries and returned messages -/

namespace Amqp091

open ByteCodec

def errDeliveryNotInitialized : GoError := .text "delivery not initialized"

/-- The acknowledger is the channel the delivery arrived on, by its id, or nil. -/
structure Delivery where
  acknowledger : Option UInt16 := none
  headers : Table := []
  contentType : Bytes := []
  contentEncoding : Bytes := []
  deliveryMode : UInt8 := 0
  priority : UInt8 := 0
  correlationId : Bytes := []
  replyTo : Bytes := []
  expiration : Bytes := []
  messageId : Bytes := []
  timestamp : Time := Time.zero
  type : Bytes := []
  userId : Bytes := []
  appId : Bytes := []
  consumerTag : Bytes := []
  messageCount : UInt32 := 0
  deliveryTag : UInt64 := 0
  redelivered : Bool := false
  exchange : Bytes := []
  routingKey : Bytes := []
  body : Bytes := []

def newDelivery (channel : UInt16) (m : Message) (props : Properties) (body : Bytes) :
    Delivery :=
  let delivery : Delivery :=
    { acknowledger := some channel
      headers := props.headers
      contentType := props.contentType
      contentEncoding := props.contentEncoding
      deliveryMode := props.deliveryMode
      priority := props.priority
      correlationId := props.correlationId
      replyTo := props.replyTo
      expiration := props.expiration
      messageId := props.messageId
      timestamp := props.timestamp
      type := props.type
      userId := props.userId
      appId := props.appId
      body := body }
  match m with
  | ⟨.basicDeliver, (consumerTag, deliveryTag, redelivered, exchange, routingKey, _)⟩ =>
      { delivery with
        consumerTag, deliveryTag, exchange, routingKey
        redelivered := redelivered.get ⟨0, Nat.one_pos⟩ }
  | ⟨.basicGetOk, (deliveryTag, redelivered, exchange, routingKey, messageCount, _)⟩ =>
      { delivery with
        messageCount, deliveryTag, exchange, routingKey
        redelivered := redelivered.get ⟨0, Nat.one_pos⟩ }
  | _ => delivery

/-- `newReturn`, from the arguments of a `basicReturn` and its content. -/
def newReturn (args : Args Method.basicReturn.layout) (props : Properties) (body : Bytes) :
    Return :=
  let (replyCode, replyText, exchange, routingKey, _) := args
  { replyCode, replyText, exchange, routingKey, body
    properties :=
      { headers := props.headers
        contentType := props.contentType
        contentEncoding := props.contentEncoding
        deliveryMode := props.deliveryMode
        priority := props.priority
        correlationId := props.correlationId
        replyTo := props.replyTo
        expiration := props.expiration
        messageId := props.messageId
        timestamp := props.timestamp
        type := props.type
        userId := props.userId
        appId := props.appId } }

/-! ## Messages with content on their way to the application -/

/-- What `dispatch` does with a message that carries content: a delivery goes to the consumer
of its tag, a returned message to the listeners, and any other message to the call that waits
for it. -/
inductive Handed where
  | consumer (tag : Bytes) (delivery : Delivery)
  | returned (r : Return)
  | rpc (m : Message) (properties : Properties) (body : Bytes)

def dispatchContent (id : UInt16) : Dispatched → Option Handed
  | .content ⟨.basicReturn, args⟩ props body => some (.returned (newReturn args props body))
  | .content ⟨.basicDeliver, args⟩ props body =>
      some (.consumer args.1 (newDelivery id ⟨.basicDeliver, args⟩ props body))
  | .content m props body => some (.rpc m props body)
  | .method _ => none

/-- The end of `Channel.Get`, once its call was answered with a `basicGetOk`. -/
def getResult (id : UInt16) (args : Args Method.basicGetOk.layout) (props : Properties)
    (body : Bytes) : Delivery × Bool :=
  let deliveryTag : UInt64 := args.1
  if deliveryTag > 0 then (newDelivery id ⟨.basicGetOk, args⟩ props body, true)
  else ({}, false)

/-! ## Acknowledgements -/

variable {rt : GoRuntime}

/-- The channel that is called, with the call made on it, unless the delivery was not received
from a channel. -/
def Delivery.acknowledge (d : Delivery) (call : UInt64 → Call rt) :
    Except GoError (UInt16 × Call rt) :=
  match d.acknowledger with
  | none => .error errDeliveryNotInitialized
  | some channel => .ok (channel, call d.deliveryTag)

def Delivery.ack (d : Delivery) (multiple : Bool) : Except GoError (UInt16 × Call rt) :=
  d.acknowledge fun tag => .ack tag multiple

def Delivery.reject (d : Delivery) (requeue : Bool) : Except GoError (UInt16 × Call rt) :=
  d.acknowledge fun tag => .reject tag requeue

def Delivery.nack (d : Delivery) (multiple requeue : Bool) :
    Except GoError (UInt16 × Call rt) :=
  d.acknowledge fun tag => .nack tag multiple requeue

/-! ## The reader next to the consumers -/

/-- `incoming` is what the reader has still to dispatch on the channel. -/
structure DeliveryFeed where
  incoming : List Dispatched
  subs : Consumers Delivery

namespace DeliveryFeed

/-- The call that `Channel.dispatch` makes to the consumers of the channel. -/
def consumersCall (id : UInt16) : Dispatched → Option (Consumers.Action Delivery)
  | .method (some ⟨.basicCancel, args⟩) => some (.cancel args.1)
  | out =>
      match dispatchContent id out with
      | some (.consumer tag delivery) => some (.send tag delivery)
      | _ => none

/-- The reader dispatches, or somebody else calls a function of the consumers or lets one of
their goroutines go on. -/
inductive Action where
  | dispatch
  | consumers (a : Consumers.Action Delivery)

/-- Only the reader calls `send`, and it is back when it dispatches the next message. -/
def next (id : UInt16) (s : DeliveryFeed) : Action → Option DeliveryFeed
  | .dispatch =>
      match s.incoming, s.subs.mutex with
      | _, some (.send _ _) => none
      | [], _ => none
      | out :: incoming, _ =>
          match consumersCall id out with
          | some a => (s.subs.next a).map fun subs => ⟨incoming, subs⟩
          | none => some ⟨incoming, s.subs⟩
  | .consumers (.send _ _) => none
  | .consumers a => (s.subs.next a).map fun subs => ⟨s.incoming, subs⟩

end DeliveryFeed

end Amqp091

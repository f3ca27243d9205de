import Amqp091.Algorithm.ValidateField
import Amqp091.Model.Method

/-! # Requests of a channel

The methods of a channel that send a request with `call`: what they send, whether they
wait for a reply, and which replies they take. -/

namespace Amqp091

open ByteCodec

/-- `wait` of the generated methods. `confirmSelect` has a field `Nowait`, and the
generator looks for one that is called `NoWait`. -/
def Message.wait : Message → Bool
  | ⟨.exchangeDeclare, (_, _, _, bits, _)⟩ => !Vector.get bits 4
  | ⟨.exchangeDelete, (_, _, bits, _)⟩ => !Vector.get bits 1
  | ⟨.exchangeBind, (_, _, _, _, bits, _)⟩ => !Vector.get bits 0
  | ⟨.exchangeUnbind, (_, _, _, _, bits, _)⟩ => !Vector.get bits 0
  | ⟨.queueDeclare, (_, _, bits, _)⟩ => !Vector.get bits 4
  | ⟨.queueBind, (_, _, _, _, bits, _)⟩ => !Vector.get bits 0
  | ⟨.queuePurge, (_, _, bits, _)⟩ => !Vector.get bits 0
  | ⟨.queueDelete, (_, _, bits, _)⟩ => !Vector.get bits 2
  | ⟨.basicConsume, (_, _, _, bits, _)⟩ => !Vector.get bits 3
  | ⟨.basicCancel, (_, bits, _)⟩ => !Vector.get bits 0
  | ⟨.connectionBlocked, _⟩ | ⟨.connectionUnblocked, _⟩ | ⟨.channelFlowOk, _⟩
  | ⟨.basicPublish, _⟩ | ⟨.basicReturn, _⟩ | ⟨.basicDeliver, _⟩ | ⟨.basicAck, _⟩
  | ⟨.basicReject, _⟩ | ⟨.basicRecoverAsync, _⟩ | ⟨.basicNack, _⟩ => false
  | _ => true

/-- The methods that `dispatch` passes to a waiting call, in the default branch of its
switch. -/
def Method.toRpc : Method → Bool
  | .channelClose | .channelFlow | .basicCancel | .basicReturn | .basicAck | .basicNack
  | .basicDeliver => false
  | _ => true

/-- Calls of the methods. `uniqueTag` is what `uniqueConsumerTag` returns. -/
inductive Request where
  | qos (prefetchCount prefetchSize : Int64) (global : Bool)
  | cancel (consumer : Bytes) (noWait : Bool)
  | queueDeclare (name : Bytes) (durable autoDelete exclusive noWait : Bool) (args : Table)
  | queueDeclarePassive (name : Bytes) (durable autoDelete exclusive noWait : Bool)
      (args : Table)
  | queueInspect (name : Bytes)
  | queueBind (name key exchange : Bytes) (noWait : Bool) (args : Table)
  | queueUnbind (name key exchange : Bytes) (args : Table)
  | queuePurge (name : Bytes) (noWait : Bool)
  | queueDelete (name : Bytes) (ifUnused ifEmpty noWait : Bool)
  | consume (queue consumer uniqueTag : Bytes) (autoAck exclusive noLocal noWait : Bool)
      (args : Table)
  | exchangeDeclare (name kind : Bytes) (durable autoDelete internal noWait : Bool)
      (args : Table)
  | exchangeDeclarePassive (name kind : Bytes) (durable autoDelete internal noWait : Bool)
      (args : Table)
  | exchangeDelete (name : Bytes) (ifUnused noWait : Bool)
  | exchangeBind (destination key source : Bytes) (noWait : Bool) (args : Table)
  | exchangeUnbind (destination key source : Bytes) (noWait : Bool) (args : Table)
  | get (queue : Bytes) (autoAck : Bool)
  | tx
  | txCommit
  | txRollback
  | flow (active : Bool)
  | confirm (noWait : Bool)
  | recover (requeue : Bool)

namespace Request

/-- `if err := args.Validate(); err != nil` in front of a message. -/
def validated (args : Table) (m : Message) : Except ValidateError Message :=
  match args.validate with
  | .ok _ => .ok m
  | .error e => .error e

/-- What the call sends. -/
def message : Request → Except ValidateError Message
  | qos prefetchCount prefetchSize global =>
      .ok ⟨.basicQos, (prefetchSize.toUInt64.toUInt32, prefetchCount.toUInt64.toUInt16,
        #v[global], ())⟩
  | cancel consumer noWait => .ok ⟨.basicCancel, (consumer, #v[noWait], ())⟩
  | queueDeclare name durable autoDelete exclusive noWait args =>
      validated args ⟨.queueDeclare, ((0 : UInt16), name,
        #v[false, durable, exclusive, autoDelete, noWait], args, ())⟩
  | queueDeclarePassive name durable autoDelete exclusive noWait args =>
      validated args ⟨.queueDeclare, ((0 : UInt16), name,
        #v[true, durable, exclusive, autoDelete, noWait], args, ())⟩
  | queueInspect name =>
      .ok ⟨.queueDeclare, ((0 : UInt16), name, #v[true, false, false, false, false], [], ())⟩
  | queueBind name key exchange noWait args =>
      validated args ⟨.queueBind, ((0 : UInt16), name, exchange, key, #v[noWait], args, ())⟩
  | queueUnbind name key exchange args =>
      validated args ⟨.queueUnbind, ((0 : UInt16), name, exchange, key, args, ())⟩
  | queuePurge name noWait => .ok ⟨.queuePurge, ((0 : UInt16), name, #v[noWait], ())⟩
  | queueDelete name ifUnused ifEmpty noWait =>
      .ok ⟨.queueDelete, ((0 : UInt16), name, #v[ifUnused, ifEmpty, noWait], ())⟩
  | consume queue consumer uniqueTag autoAck exclusive noLocal noWait args =>
      validated args ⟨.basicConsume, ((0 : UInt16), queue,
        if consumer = [] then uniqueTag else consumer,
        #v[noLocal, autoAck, exclusive, noWait], args, ())⟩
  | exchangeDeclare name kind durable autoDelete internal noWait args =>
      validated args ⟨.exchangeDeclare, ((0 : UInt16), name, kind,
        #v[false, durable, autoDelete, internal, noWait], args, ())⟩
  | exchangeDeclarePassive name kind durable autoDelete internal noWait args =>
      validated args ⟨.exchangeDeclare, ((0 : UInt16), name, kind,
        #v[true, durable, autoDelete, internal, noWait], args, ())⟩
  | exchangeDelete name ifUnused noWait =>
      .ok ⟨.exchangeDelete, ((0 : UInt16), name, #v[ifUnused, noWait], ())⟩
  | exchangeBind destination key source noWait args =>
      validated args ⟨.exchangeBind, ((0 : UInt16), destination, source, key, #v[noWait],
        args, ())⟩
  | exchangeUnbind destination key source noWait args =>
      validated args ⟨.exchangeUnbind, ((0 : UInt16), destination, source, key, #v[noWait],
        args, ())⟩
  | get queue autoAck => .ok ⟨.basicGet, ((0 : UInt16), queue, #v[autoAck], ())⟩
  | tx => .ok ⟨.txSelect, ()⟩
  | txCommit => .ok ⟨.txCommit, ()⟩
  | txRollback => .ok ⟨.txRollback, ()⟩
  | flow active => .ok ⟨.channelFlow, (#v[active], ())⟩
  | confirm noWait => .ok ⟨.confirmSelect, (#v[noWait], ())⟩
  | recover requeue => .ok ⟨.basicRecover, (#v[requeue], ())⟩

/-- The types that `call` matches a reply against. -/
def results : Request → List Method
  | qos .. => [.basicQosOk]
  | cancel .. => [.basicCancelOk]
  | queueDeclare .. | queueDeclarePassive .. | queueInspect _ => [.queueDeclareOk]
  | queueBind .. => [.queueBindOk]
  | queueUnbind .. => [.queueUnbindOk]
  | queuePurge .. => [.queuePurgeOk]
  | queueDelete .. => [.queueDeleteOk]
  | consume .. => [.basicConsumeOk]
  | exchangeDeclare .. | exchangeDeclarePassive .. => [.exchangeDeclareOk]
  | exchangeDelete .. => [.exchangeDeleteOk]
  | exchangeBind .. => [.exchangeBindOk]
  | exchangeUnbind .. => [.exchangeUnbindOk]
  | get .. => [.basicGetOk, .basicGetEmpty]
  | tx => [.txSelectOk]
  | txCommit => [.txCommitOk]
  | txRollback => [.txRollbackOk]
  | flow _ => [.channelFlowOk]
  | confirm _ => [.confirmSelectOk]
  | recover _ => [.basicRecoverOk]

end Request

end Amqp091

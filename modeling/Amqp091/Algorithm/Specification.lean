import Amqp091.Algorithm.Generator

/-! # The specification and the generated file

What `spec/gen.go` reads of the specification, how it finds the types and the names of the
fields, and the structs that stand in `spec091.go`. -/

namespace Amqp091

structure XmlDomain where
  name : String
  type : String
  deriving DecidableEq, Repr

/-- An attribute that is missing is the empty string. -/
structure XmlField where
  name : String
  domain : String := ""
  type : String := ""
  reserved : Bool := false
  deriving DecidableEq, Repr

structure XmlMethod where
  name : String
  index : UInt16
  synchronous : Bool := false
  content : Bool := false
  fields : List XmlField := []
  deriving DecidableEq, Repr

structure XmlClass where
  name : String
  index : UInt16
  methods : List XmlMethod
  deriving DecidableEq, Repr

/-! ## The document -/

def domains : List XmlDomain :=
  [⟨"class-id", "short"⟩, ⟨"consumer-tag", "shortstr"⟩, ⟨"delivery-tag", "longlong"⟩,
   ⟨"exchange-name", "shortstr"⟩, ⟨"method-id", "short"⟩, ⟨"no-ack", "bit"⟩, ⟨"no-local", "bit"⟩,
   ⟨"no-wait", "bit"⟩, ⟨"path", "shortstr"⟩, ⟨"peer-properties", "table"⟩,
   ⟨"queue-name", "shortstr"⟩, ⟨"redelivered", "bit"⟩, ⟨"message-count", "long"⟩,
   ⟨"reply-code", "short"⟩, ⟨"reply-text", "shortstr"⟩, ⟨"bit", "bit"⟩, ⟨"octet", "octet"⟩,
   ⟨"short", "short"⟩, ⟨"long", "long"⟩, ⟨"longlong", "longlong"⟩, ⟨"shortstr", "shortstr"⟩,
   ⟨"longstr", "longstr"⟩, ⟨"timestamp", "timestamp"⟩, ⟨"table", "table"⟩]

def connectionClass : XmlClass where
  name := "connection"
  index := 10
  methods :=
    [{ name := "start", index := 10, synchronous := true,
       fields :=
         [{ name := "version-major", domain := "octet" },
          { name := "version-minor", domain := "octet" },
          { name := "server-properties", domain := "peer-properties" },
          { name := "mechanisms", domain := "longstr" },
          { name := "locales", domain := "longstr" }] },
     { name := "start-ok", index := 11, synchronous := true,
       fields :=
         [{ name := "client-properties", domain := "peer-properties" },
          { name := "mechanism", domain := "shortstr" },
          { name := "response", domain := "longstr" },
          { name := "locale", domain := "shortstr" }] },
     { name := "secure", index := 20, synchronous := true,
       fields :=
         [{ name := "challenge", domain := "longstr" }] },
     { name := "secure-ok", index := 21, synchronous := true,
       fields :=
         [{ name := "response", domain := "longstr" }] },
     { name := "tune", index := 30, synchronous := true,
       fields :=
         [{ name := "channel-max", domain := "short" },
          { name := "frame-max", domain := "long" },
          { name := "heartbeat", domain := "short" }] },
     { name := "tune-ok", index := 31, synchronous := true,
       fields :=
         [{ name := "channel-max", domain := "short" },
          { name := "frame-max", domain := "long" },
          { name := "heartbeat", domain := "short" }] },
     { name := "open", index := 40, synchronous := true,
       fields :=
         [{ name := "virtual-host", domain := "path" },
          { name := "reserved-1", type := "shortstr", reserved := true },
          { name := "reserved-2", type := "bit", reserved := true }] },
     { name := "open-ok", index := 41, synchronous := true,
       fields :=
         [{ name := "reserved-1", type := "shortstr", reserved := true }] },
     { name := "close", index := 50, synchronous := true,
       fields :=
         [{ name := "reply-code", domain := "reply-code" },
          { name := "reply-text", domain := "reply-text" },
          { name := "class-id", domain := "class-id" },
          { name := "method-id", domain := "method-id" }] },
     { name := "close-ok", index := 51, synchronous := true },
     { name := "blocked", index := 60,
       fields :=
         [{ name := "reason", domain := "shortstr" }] },
     { name := "unblocked", index := 61 },
     { name := "update-secret", index := 70, synchronous := true,
       fields :=
         [{ name := "new-secret", domain := "longstr" },
          { name := "reason", domain := "shortstr" }] },
     { name := "update-secret-ok", index := 71, synchronous := true }]

def channelClass : XmlClass where
  name := "channel"
  index := 20
  methods :=
    [{ name := "open", index := 10, synchronous := true,
       fields :=
         [{ name := "reserved-1", type := "shortstr", reserved := true }] },
     { name := "open-ok", index := 11, synchronous := true,
       fields :=
         [{ name := "reserved-1", type := "longstr", reserved := true }] },
     { name := "flow", index := 20, synchronous := true,
       fields :=
         [{ name := "active", domain := "bit" }] },
     { name := "flow-ok", index := 21,
       fields :=
         [{ name := "active", domain := "bit" }] },
     { name := "close", index := 40, synchronous := true,
       fields :=
         [{ name := "reply-code", domain := "reply-code" },
          { name := "reply-text", domain := "reply-text" },
          { name := "class-id", domain := "class-id" },
          { name := "method-id", domain := "method-id" }] },
     { name := "close-ok", index := 41, synchronous := true }]

def exchangeClass : XmlClass where
  name := "exchange"
  index := 40
  methods :=
    [{ name := "declare", index := 10, synchronous := true,
       fields :=
         [{ name := "reserved-1", type := "short", reserved := true },
          { name := "exchange", domain := "exchange-name" },
          { name := "type", domain := "shortstr" },
          { name := "passive", domain := "bit" },
          { name := "durable", domain := "bit" },
          { name := "auto-delete", domain := "bit" },
          { name := "internal", domain := "bit" },
          { name := "no-wait", domain := "no-wait" },
          { name := "arguments", domain := "table" }] },
     { name := "declare-ok", index := 11, synchronous := true },
     { name := "delete", index := 20, synchronous := true,
       fields :=
         [{ name := "reserved-1", type := "short", reserved := true },
          { name := "exchange", domain := "exchange-name" },
          { name := "if-unused", domain := "bit" },
          { name := "no-wait", domain := "no-wait" }] },
     { name := "delete-ok", index := 21, synchronous := true },
     { name := "bind", index := 30, synchronous := true,
       fields :=
         [{ name := "reserved-1", type := "short", reserved := true },
          { name := "destination", domain := "exchange-name" },
          { name := "source", domain := "exchange-name" },
          { name := "routing-key", domain := "shortstr" },
          { name := "no-wait", domain := "no-wait" },
          { name := "arguments", domain := "table" }] },
     { name := "bind-ok", index := 31, synchronous := true },
     { name := "unbind", index := 40, synchronous := true,
       fields :=
         [{ name := "reserved-1", type := "short", reserved := true },
          { name := "destination", domain := "exchange-name" },
          { name := "source", domain := "exchange-name" },
          { name := "routing-key", domain := "shortstr" },
          { name := "no-wait", domain := "no-wait" },
          { name := "arguments", domain := "table" }] },
     { name := "unbind-ok", index := 51, synchronous := true }]

def queueClass : XmlClass where
  name := "queue"
  index := 50
  methods :=
    [{ name := "declare", index := 10, synchronous := true,
       fields :=
         [{ name := "reserved-1", type := "short", reserved := true },
          { name := "queue", domain := "queue-name" },
          { name := "passive", domain := "bit" },
          { name := "durable", domain := "bit" },
          { name := "exclusive", domain := "bit" },
          { name := "auto-delete", domain := "bit" },
          { name := "no-wait", domain := "no-wait" },
          { name := "arguments", domain := "table" }] },
     { name := "declare-ok", index := 11, synchronous := true,
       fields :=
         [{ name := "queue", domain := "queue-name" },
          { name := "message-count", domain := "message-count" },
          { name := "consumer-count", domain := "long" }] },
     { name := "bind", index := 20, synchronous := true,
       fields :=
         [{ name := "reserved-1", type := "short", reserved := true },
          { name := "queue", domain := "queue-name" },
          { name := "exchange", domain := "exchange-name" },
          { name := "routing-key", domain := "shortstr" },
          { name := "no-wait", domain := "no-wait" },
          { name := "arguments", domain := "table" }] },
     { name := "bind-ok", index := 21, synchronous := true },
     { name := "unbind", index := 50, synchronous := true,
       fields :=
         [{ name := "reserved-1", type := "short", reserved := true },
          { name := "queue", domain := "queue-name" },
          { name := "exchange", domain := "exchange-name" },
          { name := "routing-key", domain := "shortstr" },
          { name := "arguments", domain := "table" }] },
     { name := "unbind-ok", index := 51, synchronous := true },
     { name := "purge", index := 30, synchronous := true,
       fields :=
         [{ name := "reserved-1", type := "short", reserved := true },
          { name := "queue", domain := "queue-name" },
          { name := "no-wait", domain := "no-wait" }] },
     { name := "purge-ok", index := 31, synchronous := true,
       fields :=
         [{ name := "message-count", domain := "message-count" }] },
     { name := "delete", index := 40, synchronous := true,
       fields :=
         [{ name := "reserved-1", type := "short", reserved := true },
          { name := "queue", domain := "queue-name" },
          { name := "if-unused", domain := "bit" },
          { name := "if-empty", domain := "bit" },
          { name := "no-wait", domain := "no-wait" }] },
     { name := "delete-ok", index := 41, synchronous := true,
       fields :=
         [{ name := "message-count", domain := "message-count" }] }]

def basicClass : XmlClass where
  name := "basic"
  index := 60
  methods :=
    [{ name := "qos", index := 10, synchronous := true,
       fields :=
         [{ name := "prefetch-size", domain := "long" },
          { name := "prefetch-count", domain := "short" },
          { name := "global", domain := "bit" }] },
     { name := "qos-ok", index := 11, synchronous := true },
     { name := "consume", index := 20, synchronous := true,
       fields :=
         [{ name := "reserved-1", type := "short", reserved := true },
          { name := "queue", domain := "queue-name" },
          { name := "consumer-tag", domain := "consumer-tag" },
          { name := "no-local", domain := "no-local" },
          { name := "no-ack", domain := "no-ack" },
          { name := "exclusive", domain := "bit" },
          { name := "no-wait", domain := "no-wait" },
          { name := "arguments", domain := "table" }] },
     { name := "consume-ok", index := 21, synchronous := true,
       fields :=
         [{ name := "consumer-tag", domain := "consumer-tag" }] },
     { name := "cancel", index := 30, synchronous := true,
       fields :=
         [{ name := "consumer-tag", domain := "consumer-tag" },
          { name := "no-wait", domain := "no-wait" }] },
     { name := "cancel-ok", index := 31, synchronous := true,
       fields :=
         [{ name := "consumer-tag", domain := "consumer-tag" }] },
     { name := "publish", index := 40, content := true,
       fields :=
         [{ name := "reserved-1", type := "short", reserved := true },
          { name := "exchange", domain := "exchange-name" },
          { name := "routing-key", domain := "shortstr" },
          { name := "mandatory", domain := "bit" },
          { name := "immediate", domain := "bit" }] },
     { name := "return", index := 50, content := true,
       fields :=
         [{ name := "reply-code", domain := "reply-code" },
          { name := "reply-text", domain := "reply-text" },
          { name := "exchange", domain := "exchange-name" },
          { name := "routing-key", domain := "shortstr" }] },
     { name := "deliver", index := 60, content := true,
       fields :=
         [{ name := "consumer-tag", domain := "consumer-tag" },
          { name := "delivery-tag", domain := "delivery-tag" },
          { name := "redelivered", domain := "redelivered" },
          { name := "exchange", domain := "exchange-name" },
          { name := "routing-key", domain := "shortstr" }] },
     { name := "get", index := 70, synchronous := true,
       fields :=
         [{ name := "reserved-1", type := "short", reserved := true },
          { name := "queue", domain := "queue-name" },
          { name := "no-ack", domain := "no-ack" }] },
     { name := "get-ok", index := 71, synchronous := true, content := true,
       fields :=
         [{ name := "delivery-tag", domain := "delivery-tag" },
          { name := "redelivered", domain := "redelivered" },
          { name := "exchange", domain := "exchange-name" },
          { name := "routing-key", domain := "shortstr" },
          { name := "message-count", domain := "message-count" }] },
     { name := "get-empty", index := 72, synchronous := true,
       fields :=
         [{ name := "reserved-1", type := "shortstr", reserved := true }] },
     { name := "ack", index := 80,
       fields :=
         [{ name := "delivery-tag", domain := "delivery-tag" },
          { name := "multiple", domain := "bit" }] },
     { name := "reject", index := 90,
       fields :=
         [{ name := "delivery-tag", domain := "delivery-tag" },
          { name := "requeue", domain := "bit" }] },
     { name := "recover-async", index := 100,
       fields :=
         [{ name := "requeue", domain := "bit" }] },
     { name := "recover", index := 110, synchronous := true,
       fields :=
         [{ name := "requeue", domain := "bit" }] },
     { name := "recover-ok", index := 111, synchronous := true },
     { name := "nack", index := 120,
       fields :=
         [{ name := "delivery-tag", domain := "delivery-tag" },
          { name := "multiple", domain := "bit" },
          { name := "requeue", domain := "bit" }] }]

def txClass : XmlClass where
  name := "tx"
  index := 90
  methods :=
    [{ name := "select", index := 10, synchronous := true },
     { name := "select-ok", index := 11, synchronous := true },
     { name := "commit", index := 20, synchronous := true },
     { name := "commit-ok", index := 21, synchronous := true },
     { name := "rollback", index := 30, synchronous := true },
     { name := "rollback-ok", index := 31, synchronous := true }]

def confirmClass : XmlClass where
  name := "confirm"
  index := 85
  methods :=
    [{ name := "select", index := 10, synchronous := true,
       fields :=
         [{ name := "nowait", type := "bit" }] },
     { name := "select-ok", index := 11, synchronous := true }]

def classes : List XmlClass :=
  [connectionClass, channelClass, exchangeClass, queueClass, basicClass, txClass, confirmClass]

/-! ## Types and names of the fields -/

/-- The loop over the domains ends with the last one when none matches. -/
def XmlField.findDomain (field : XmlField) : XmlDomain :=
  match domains.find? fun domain => field.domain = domain.name with
  | some domain => domain
  | none => domains.getLast?.getD ⟨"", ""⟩

def XmlField.fieldType (field : XmlField) : String :=
  if field.type = "" then field.findDomain.type else field.type

/-- The types that have a native one. No field of a method is a timestamp. -/
def amqpType : String → Option AmqpType
  | "bit" => some .bit
  | "octet" => some .octet
  | "shortshort" => some .shortshort
  | "short" => some .short
  | "long" => some .long
  | "longlong" => some .longlong
  | "shortstr" => some .shortstr
  | "longstr" => some .longstr
  | "table" => some .table
  | _ => none

def isWord (c : Char) : Bool := c.isAlphanum || c = '_'

/-- A dash or underscore and the character of a word behind it are replaced by that
character in upper case. -/
def joinWords : List Char → List Char
  | c :: d :: cs =>
      if (c = '-' || c = '_') && isWord d then d.toUpper :: joinWords cs
      else c :: joinWords (d :: cs)
  | cs => cs

/-- `public`, where the first character counts as well. -/
def publicName (name : String) : String :=
  match name.toList with
  | [] => ""
  | c :: cs => String.ofList (if isWord c then c.toUpper :: joinWords cs else joinWords (c :: cs))

def XmlField.fieldName (field : XmlField) : String :=
  if field.reserved then String.ofList ((publicName field.name).toList.map Char.toLower)
  else publicName field.name

def XmlMethod.hasField (method : XmlMethod) (name : String) : Bool :=
  method.fields.any fun field => field.fieldName = name

/-- The members of the struct of a method, `none` for a field of an unknown type. -/
def XmlMethod.members (method : XmlMethod) : Option (List SpecField) :=
  method.fields.mapM fun field =>
    (amqpType field.fieldType).map fun type => ⟨field.fieldName, type⟩

/-- `wait`: whether the method is synchronous, and not told to be otherwise. -/
def XmlMethod.wait (method : XmlMethod) (msg : Record) : Bool :=
  method.synchronous && !(method.hasField "NoWait" && msg ⟨"NoWait", .bit⟩)

def structName (c : XmlClass) (method : XmlMethod) : String := c.name ++ publicName method.name

/-- The two nested switches over the indices. -/
def findMethod (classId methodId : UInt16) : Option (XmlClass × XmlMethod) := do
  let c ← classes.find? fun c => classId = c.index
  let method ← c.methods.find? fun method => methodId = method.index
  return (c, method)

/-! ## The generated structs -/

/-- The members of a method in `spec091.go`, a string with the way in which it is written.
`Properties` and `Body` are left out. -/
def Method.members : Method → List SpecField
  | .connectionStart =>
      [⟨"VersionMajor", .octet⟩, ⟨"VersionMinor", .octet⟩, ⟨"ServerProperties", .table⟩,
       ⟨"Mechanisms", .longstr⟩, ⟨"Locales", .longstr⟩]
  | .connectionStartOk =>
      [⟨"ClientProperties", .table⟩, ⟨"Mechanism", .shortstr⟩, ⟨"Response", .longstr⟩,
       ⟨"Locale", .shortstr⟩]
  | .connectionSecure => [⟨"Challenge", .longstr⟩]
  | .connectionSecureOk => [⟨"Response", .longstr⟩]
  | .connectionTune => [⟨"ChannelMax", .short⟩, ⟨"FrameMax", .long⟩, ⟨"Heartbeat", .short⟩]
  | .connectionTuneOk => [⟨"ChannelMax", .short⟩, ⟨"FrameMax", .long⟩, ⟨"Heartbeat", .short⟩]
  | .connectionOpen => [⟨"VirtualHost", .shortstr⟩, ⟨"reserved1", .shortstr⟩, ⟨"reserved2", .bit⟩]
  | .connectionOpenOk => [⟨"reserved1", .shortstr⟩]
  | .connectionClose =>
      [⟨"ReplyCode", .short⟩, ⟨"ReplyText", .shortstr⟩, ⟨"ClassId", .short⟩, ⟨"MethodId", .short⟩]
  | .connectionCloseOk => []
  | .connectionBlocked => [⟨"Reason", .shortstr⟩]
  | .connectionUnblocked => []
  | .connectionUpdateSecret => [⟨"NewSecret", .longstr⟩, ⟨"Reason", .shortstr⟩]
  | .connectionUpdateSecretOk => []
  | .channelOpen => [⟨"reserved1", .shortstr⟩]
  | .channelOpenOk => [⟨"reserved1", .longstr⟩]
  | .channelFlow => [⟨"Active", .bit⟩]
  | .channelFlowOk => [⟨"Active", .bit⟩]
  | .channelClose =>
      [⟨"ReplyCode", .short⟩, ⟨"ReplyText", .shortstr⟩, ⟨"ClassId", .short⟩, ⟨"MethodId", .short⟩]
  | .channelCloseOk => []
  | .exchangeDeclare =>
      [⟨"reserved1", .short⟩, ⟨"Exchange", .shortstr⟩, ⟨"Type", .shortstr⟩, ⟨"Passive", .bit⟩,
       ⟨"Durable", .bit⟩, ⟨"AutoDelete", .bit⟩, ⟨"Internal", .bit⟩, ⟨"NoWait", .bit⟩,
       ⟨"Arguments", .table⟩]
  | .exchangeDeclareOk => []
  | .exchangeDelete =>
      [⟨"reserved1", .short⟩, ⟨"Exchange", .shortstr⟩, ⟨"IfUnused", .bit⟩, ⟨"NoWait", .bit⟩]
  | .exchangeDeleteOk => []
  | .exchangeBind =>
      [⟨"reserved1", .short⟩, ⟨"Destination", .shortstr⟩, ⟨"Source", .shortstr⟩,
       ⟨"RoutingKey", .shortstr⟩, ⟨"NoWait", .bit⟩, ⟨"Arguments", .table⟩]
  | .exchangeBindOk => []
  | .exchangeUnbind =>
      [⟨"reserved1", .short⟩, ⟨"Destination", .shortstr⟩, ⟨"Source", .shortstr⟩,
       ⟨"RoutingKey", .shortstr⟩, ⟨"NoWait", .bit⟩, ⟨"Arguments", .table⟩]
  | .exchangeUnbindOk => []
  | .queueDeclare =>
      [⟨"reserved1", .short⟩, ⟨"Queue", .shortstr⟩, ⟨"Passive", .bit⟩, ⟨"Durable", .bit⟩,
       ⟨"Exclusive", .bit⟩, ⟨"AutoDelete", .bit⟩, ⟨"NoWait", .bit⟩, ⟨"Arguments", .table⟩]
  | .queueDeclareOk => [⟨"Queue", .shortstr⟩, ⟨"MessageCount", .long⟩, ⟨"ConsumerCount", .long⟩]
  | .queueBind =>
      [⟨"reserved1", .short⟩, ⟨"Queue", .shortstr⟩, ⟨"Exchange", .shortstr⟩,
       ⟨"RoutingKey", .shortstr⟩, ⟨"NoWait", .bit⟩, ⟨"Arguments", .table⟩]
  | .queueBindOk => []
  | .queueUnbind =>
      [⟨"reserved1", .short⟩, ⟨"Queue", .shortstr⟩, ⟨"Exchange", .shortstr⟩,
       ⟨"RoutingKey", .shortstr⟩, ⟨"Arguments", .table⟩]
  | .queueUnbindOk => []
  | .queuePurge => [⟨"reserved1", .short⟩, ⟨"Queue", .shortstr⟩, ⟨"NoWait", .bit⟩]
  | .queuePurgeOk => [⟨"MessageCount", .long⟩]
  | .queueDelete =>
      [⟨"reserved1", .short⟩, ⟨"Queue", .shortstr⟩, ⟨"IfUnused", .bit⟩, ⟨"IfEmpty", .bit⟩,
       ⟨"NoWait", .bit⟩]
  | .queueDeleteOk => [⟨"MessageCount", .long⟩]
  | .basicQos => [⟨"PrefetchSize", .long⟩, ⟨"PrefetchCount", .short⟩, ⟨"Global", .bit⟩]
  | .basicQosOk => []
  | .basicConsume =>
      [⟨"reserved1", .short⟩, ⟨"Queue", .shortstr⟩, ⟨"ConsumerTag", .shortstr⟩, ⟨"NoLocal", .bit⟩,
       ⟨"NoAck", .bit⟩, ⟨"Exclusive", .bit⟩, ⟨"NoWait", .bit⟩, ⟨"Arguments", .table⟩]
  | .basicConsumeOk => [⟨"ConsumerTag", .shortstr⟩]
  | .basicCancel => [⟨"ConsumerTag", .shortstr⟩, ⟨"NoWait", .bit⟩]
  | .basicCancelOk => [⟨"ConsumerTag", .shortstr⟩]
  | .basicPublish =>
      [⟨"reserved1", .short⟩, ⟨"Exchange", .shortstr⟩, ⟨"RoutingKey", .shortstr⟩,
       ⟨"Mandatory", .bit⟩, ⟨"Immediate", .bit⟩]
  | .basicReturn =>
      [⟨"ReplyCode", .short⟩, ⟨"ReplyText", .shortstr⟩, ⟨"Exchange", .shortstr⟩,
       ⟨"RoutingKey", .shortstr⟩]
  | .basicDeliver =>
      [⟨"ConsumerTag", .shortstr⟩, ⟨"DeliveryTag", .longlong⟩, ⟨"Redelivered", .bit⟩,
       ⟨"Exchange", .shortstr⟩, ⟨"RoutingKey", .shortstr⟩]
  | .basicGet => [⟨"reserved1", .short⟩, ⟨"Queue", .shortstr⟩, ⟨"NoAck", .bit⟩]
  | .basicGetOk =>
      [⟨"DeliveryTag", .longlong⟩, ⟨"Redelivered", .bit⟩, ⟨"Exchange", .shortstr⟩,
       ⟨"RoutingKey", .shortstr⟩, ⟨"MessageCount", .long⟩]
  | .basicGetEmpty => [⟨"reserved1", .shortstr⟩]
  | .basicAck => [⟨"DeliveryTag", .longlong⟩, ⟨"Multiple", .bit⟩]
  | .basicReject => [⟨"DeliveryTag", .longlong⟩, ⟨"Requeue", .bit⟩]
  | .basicRecoverAsync => [⟨"Requeue", .bit⟩]
  | .basicRecover => [⟨"Requeue", .bit⟩]
  | .basicRecoverOk => []
  | .basicNack => [⟨"DeliveryTag", .longlong⟩, ⟨"Multiple", .bit⟩, ⟨"Requeue", .bit⟩]
  | .txSelect => []
  | .txSelectOk => []
  | .txCommit => []
  | .txCommitOk => []
  | .txRollback => []
  | .txRollbackOk => []
  | .confirmSelect => [⟨"Nowait", .bit⟩]
  | .confirmSelectOk => []

def Method.structName : Method → String
  | .connectionStart => "connectionStart"
  | .connectionStartOk => "connectionStartOk"
  | .connectionSecure => "connectionSecure"
  | .connectionSecureOk => "connectionSecureOk"
  | .connectionTune => "connectionTune"
  | .connectionTuneOk => "connectionTuneOk"
  | .connectionOpen => "connectionOpen"
  | .connectionOpenOk => "connectionOpenOk"
  | .connectionClose => "connectionClose"
  | .connectionCloseOk => "connectionCloseOk"
  | .connectionBlocked => "connectionBlocked"
  | .connectionUnblocked => "connectionUnblocked"
  | .connectionUpdateSecret => "connectionUpdateSecret"
  | .connectionUpdateSecretOk => "connectionUpdateSecretOk"
  | .channelOpen => "channelOpen"
  | .channelOpenOk => "channelOpenOk"
  | .channelFlow => "channelFlow"
  | .channelFlowOk => "channelFlowOk"
  | .channelClose => "channelClose"
  | .channelCloseOk => "channelCloseOk"
  | .exchangeDeclare => "exchangeDeclare"
  | .exchangeDeclareOk => "exchangeDeclareOk"
  | .exchangeDelete => "exchangeDelete"
  | .exchangeDeleteOk => "exchangeDeleteOk"
  | .exchangeBind => "exchangeBind"
  | .exchangeBindOk => "exchangeBindOk"
  | .exchangeUnbind => "exchangeUnbind"
  | .exchangeUnbindOk => "exchangeUnbindOk"
  | .queueDeclare => "queueDeclare"
  | .queueDeclareOk => "queueDeclareOk"
  | .queueBind => "queueBind"
  | .queueBindOk => "queueBindOk"
  | .queueUnbind => "queueUnbind"
  | .queueUnbindOk => "queueUnbindOk"
  | .queuePurge => "queuePurge"
  | .queuePurgeOk => "queuePurgeOk"
  | .queueDelete => "queueDelete"
  | .queueDeleteOk => "queueDeleteOk"
  | .basicQos => "basicQos"
  | .basicQosOk => "basicQosOk"
  | .basicConsume => "basicConsume"
  | .basicConsumeOk => "basicConsumeOk"
  | .basicCancel => "basicCancel"
  | .basicCancelOk => "basicCancelOk"
  | .basicPublish => "basicPublish"
  | .basicReturn => "basicReturn"
  | .basicDeliver => "basicDeliver"
  | .basicGet => "basicGet"
  | .basicGetOk => "basicGetOk"
  | .basicGetEmpty => "basicGetEmpty"
  | .basicAck => "basicAck"
  | .basicReject => "basicReject"
  | .basicRecoverAsync => "basicRecoverAsync"
  | .basicRecover => "basicRecover"
  | .basicRecoverOk => "basicRecoverOk"
  | .basicNack => "basicNack"
  | .txSelect => "txSelect"
  | .txSelectOk => "txSelectOk"
  | .txCommit => "txCommit"
  | .txCommitOk => "txCommitOk"
  | .txRollback => "txRollback"
  | .txRollbackOk => "txRollbackOk"
  | .confirmSelect => "confirmSelect"
  | .confirmSelectOk => "confirmSelectOk"

end Amqp091

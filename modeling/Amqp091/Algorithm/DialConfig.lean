import Amqp091.Algorithm.Uri

/-! # What is dialled

`DialConfig` up to the call of the dialer: the URI completes the configuration. -/

namespace Amqp091

open ByteCodec Url

/-! ## Authentication -/

def URI.plainAuth (uri : URI) : Authentication := .plainAuth uri.username uri.password

def URI.amqPlainAuth (uri : URI) : Authentication := .amqPlainAuth uri.username uri.password

/-- `strings.ToUpper` as far as the result is ASCII: the letters, the dotless `i` and the
long `s`. -/
def toUpper : Bytes → Bytes
  | [] => []
  | [c] => [upper c]
  | c :: d :: s =>
      if c = 0xc4 ∧ d = 0xb1 then 'I'.toUInt8 :: toUpper s
      else if c = 0xc5 ∧ d = 0xbf then 'S'.toUInt8 :: toUpper s
      else upper c :: toUpper (d :: s)
where
  upper (c : UInt8) : UInt8 := if 'a'.toUInt8 ≤ c && c ≤ 'z'.toUInt8 then c - 32 else c

inductive DialError where
  | uri (e : URIError)
  | unsupportedMechanism (identifier : Bytes)
  deriving DecidableEq, Repr

def URI.authentication (uri : URI) (identifier : Bytes) : Except DialError Authentication :=
  if toUpper identifier = ascii "PLAIN" then .ok uri.plainAuth
  else if toUpper identifier = ascii "AMQPLAIN" then .ok uri.amqPlainAuth
  else if toUpper identifier = ascii "EXTERNAL" then .ok .externalAuth
  else .error (.unsupportedMechanism identifier)

/-- The URI has the mechanisms of a configuration without any. -/
def Config.saslOr (config : Config) (uri : URI) : Except DialError (List Authentication) :=
  match config.sasl with
  | some sasl => .ok sasl
  | none =>
      if uri.authMechanism ≠ [] then uri.authMechanism.mapM uri.authentication
      else .ok [uri.plainAuth]

/-! ## Dialling -/

/-- `time.Millisecond`. -/
def millisecond : Int64 := 1000000

def defaultConnectionTimeout : Int64 := 30 * second

/-- What is known when the dialer is called. -/
structure DialRequest where
  uri : URI
  config : Config
  connectionTimeout : Int64
  addr : Bytes
  deriving DecidableEq, Repr

/-- The heartbeat of the URI takes precedence. -/
def Config.heartbeatOr (config : Config) (heartbeat : HeartbeatDuration) : Int64 :=
  if heartbeat.hasValue then heartbeat.value
  else if config.heartbeat = 0 then defaultHeartbeat
  else config.heartbeat

def dialConfig (url : Bytes) (config : Config) : Except DialError DialRequest := do
  let uri ← (parseURI url).mapError .uri
  let sasl ← config.saslOr uri
  return {
    uri := uri
    config := { config with
      sasl := some sasl
      vhost := if config.vhost = [] then uri.vhost else config.vhost
      heartbeat := config.heartbeatOr uri.heartbeat
      channelMax := if config.channelMax = 0 then uri.channelMax else config.channelMax }
    connectionTimeout :=
      if uri.connectionTimeout ≠ 0 then uri.connectionTimeout * millisecond
      else defaultConnectionTimeout
    addr := joinHostPort uri.host (Decimal.formatInt uri.port) }

end Amqp091

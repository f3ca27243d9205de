import Amqp091.Model.Config
import Amqp091.Shared.Url

/-! # AMQP URIs -/

namespace Amqp091

open ByteCodec Url

structure HeartbeatDuration where
  value : Int64 := 0
  hasValue : Bool := false
  deriving DecidableEq, Repr

def newHeartbeatDurationFromSeconds (s : Int64) : HeartbeatDuration where
  value := s * second
  hasValue := true

/-- `authMechanism` is nil when it is empty. -/
structure URI where
  scheme : Bytes
  host : Bytes
  port : ℤ
  username : Bytes
  password : Bytes
  vhost : Bytes
  certFile : Bytes := []
  caCertFile : Bytes := []
  keyFile : Bytes := []
  serverName : Bytes := []
  authMechanism : List Bytes := []
  heartbeat : HeartbeatDuration := {}
  connectionTimeout : Int64 := 0
  channelMax : UInt16 := 0
  deriving DecidableEq, Repr

/-- `schemePorts`. -/
def schemePort (scheme : Bytes) : Option ℤ :=
  if scheme = ascii "amqp" then some 5672
  else if scheme = ascii "amqps" then some 5671
  else none

def defaultURI : URI where
  scheme := ascii "amqp"
  host := ascii "localhost"
  port := 5672
  username := ascii "guest"
  password := ascii "guest"
  vhost := ascii "/"

inductive URIError where
  | text (message : String)
  | url (e : Url.Error)
  | number (context : String) (e : Decimal.NumError)
  deriving DecidableEq, Repr

def errURIScheme : URIError := .text "AMQP scheme must be either 'amqp://' or 'amqps://'"

def errURIWhitespace : URIError := .text "URI must not contain whitespace"

end Amqp091

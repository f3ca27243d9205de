import Amqp091.Model.Uri

/-! # Parsing and printing of AMQP URIs -/

namespace Amqp091

open ByteCodec Url

/-! ## Parsing -/

def uriPort (port : Bytes) (defaultPort : ℤ) : Except URIError ℤ :=
  if port ≠ [] then (Decimal.parseInt port 32).mapError (.number "")
  else .ok defaultPort

/-- The user and the password. -/
def uriCredentials (user : Option Userinfo) : Bytes × Bytes :=
  match user with
  | none => (defaultURI.username, defaultURI.password)
  | some user =>
      (user.username, if user.passwordSet then user.password else defaultURI.password)

/-- `net/url` leaves the empty authority of `amqp:///` to the scheme. -/
def uriVhost (u : URL) : Bytes :=
  if u.path = [] then defaultURI.vhost
  else if (ascii "/").isPrefixOf u.path then
    if u.host = [] ∧ (ascii "///").isPrefixOf u.path then
      if u.path.length > 3 then u.path.drop 3 else defaultURI.vhost
    else if u.path.length > 1 then u.path.drop 1
    else defaultURI.vhost
  else u.path

def heartbeatParameter (params : Values) : Except URIError (Option Int64) :=
  if params.has (ascii "heartbeat") then
    ((Decimal.parseInt (params.get (ascii "heartbeat")) 64).mapError
      (.number "heartbeat is not an integer: ")).map fun n => some (.ofInt n)
  else .ok none

def connectionTimeoutParameter (params : Values) : Except URIError Int64 :=
  if params.has (ascii "connection_timeout") then
    ((Decimal.parseInt (params.get (ascii "connection_timeout")) 64).mapError
      (.number "connection_timeout is not an integer: ")).map Int64.ofInt
  else .ok 0

def channelMaxParameter (params : Values) : Except URIError UInt16 :=
  if params.has (ascii "channel_max") then
    ((Decimal.parseUint (params.get (ascii "channel_max")) 16).mapError
      (.number "channel_max is not an uint16: ")).map UInt16.ofNat
  else .ok 0

/-- What `ParseURI` takes from the parsed URL. -/
def uriOfURL (u : URL) : Except URIError URI := do
  match schemePort u.scheme with
  | none => throw errURIScheme
  | some defaultPort =>
      let port ← uriPort u.port defaultPort
      let params := u.query
      let heartbeat ← heartbeatParameter params
      let connectionTimeout ← connectionTimeoutParameter params
      let channelMax ← channelMaxParameter params
      return {
        scheme := u.scheme
        host := if u.hostname ≠ [] then u.hostname else defaultURI.host
        port := port
        username := (uriCredentials u.user).1
        password := (uriCredentials u.user).2
        vhost := uriVhost u
        certFile := params.get (ascii "certfile")
        caCertFile := params.get (ascii "cacertfile")
        keyFile := params.get (ascii "keyfile")
        serverName := params.get (ascii "server_name_indication")
        authMechanism := params.all (ascii "auth_mechanism")
        heartbeat := (heartbeat.map newHeartbeatDurationFromSeconds).getD {}
        connectionTimeout := connectionTimeout
        channelMax := channelMax }

def parseURI (uri : Bytes) : Except URIError URI :=
  if uri.contains ' '.toUInt8 then .error errURIWhitespace
  else
    match Url.parse uri with
    | .error e => .error (.url e)
    | .ok u => uriOfURL u

/-! ## Printing -/

def URI.user (uri : URI) : Option Userinfo :=
  if uri.username ≠ defaultURI.username ∨ uri.password ≠ defaultURI.password then
    if uri.password ≠ defaultURI.password then some (userPassword uri.username uri.password)
    else some (Url.user uri.username)
  else none

/-- `strings.TrimSuffix` takes the colon of an empty port away. -/
def URI.authorityHost (uri : URI) : Bytes :=
  if schemePort uri.scheme ≠ some uri.port then
    joinHostPort uri.host (Decimal.formatInt uri.port)
  else
    let host := joinHostPort uri.host []
    if host.getLast? = some ':'.toUInt8 then host.dropLast else host

/-- The TLS parameters, as they are. -/
def URI.rawQuery (uri : URI) : Bytes :=
  (if uri.certFile ≠ [] then ascii "certfile=" ++ uri.certFile ++ ascii "&" else []) ++
  (if uri.keyFile ≠ [] then ascii "keyfile=" ++ uri.keyFile ++ ascii "&" else []) ++
  (if uri.caCertFile ≠ [] then ascii "cacertfile=" ++ uri.caCertFile ++ ascii "&" else []) ++
  (if uri.serverName ≠ [] then ascii "server_name_indication=" ++ uri.serverName else [])

/-- `url.Parse` of the empty string is the empty URL. -/
def URI.authority (uri : URI) : URL where
  scheme := uri.scheme
  user := uri.user
  host := uri.authorityHost
  path := if uri.vhost ≠ defaultURI.vhost then uri.vhost else ascii "/"
  rawPath := if uri.vhost ≠ defaultURI.vhost then escape uri.vhost .queryComponent else []
  rawQuery := uri.rawQuery

def URI.string (uri : URI) : Bytes := uri.authority.string

end Amqp091

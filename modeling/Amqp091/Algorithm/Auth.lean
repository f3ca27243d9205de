import Amqp091.Algorithm.WriteField
import Amqp091.Model.Config
import Amqp091.Model.Method
import Amqp091.Shared.Url

/-! # SASL mechanisms

`range` gives the order in which the entries of a map are visited. -/

namespace Amqp091

open ByteCodec Url

def Authentication.mechanism : Authentication → Bytes
  | .plainAuth _ _ => ascii "PLAIN"
  | .amqPlainAuth _ _ => ascii "AMQPLAIN"
  | .externalAuth => ascii "EXTERNAL"
  | .other mechanism _ => mechanism

/-- The map of `AMQPlainAuth`. -/
def loginTable (username password : Bytes) : Table :=
  [(ascii "LOGIN", .string username), (ascii "PASSWORD", .string password)]

/-- `AMQPlainAuth` writes its map and leaves the size out. -/
def Authentication.response (range : Table → Table) : Authentication → Bytes
  | .plainAuth username password => 0 :: username ++ 0 :: password
  | .amqPlainAuth username password =>
      let table := writeTable (range (loginTable username password))
      match table.result with
      | .ok _ => table.out.drop 4
      | .error _ => []
  | .externalAuth => [0, '*'.toUInt8, 0, '*'.toUInt8]
  | .other _ response => response

/-- The first mechanism of the client that the server has. -/
def pickSASLMechanism (client : List Authentication) (serverMechanisms : List Bytes) :
    Option Authentication :=
  client.find? fun auth => serverMechanisms.contains auth.mechanism

/-- `Mechanisms` of a `connection.start`, split at the spaces. -/
def startMechanisms (m : Message) : List Bytes :=
  match m with
  | ⟨.connectionStart, (_, _, _, mechanisms, _)⟩ => List.splitOn ' '.toUInt8 mechanisms
  | _ => []

end Amqp091

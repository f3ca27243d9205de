import Amqp091.Algorithm.Auth
import Amqp091.Algorithm.OpenTune
import Amqp091.Model.Frame

/-! # What the client says while a connection is opened

The requests of `openTune` and `openVhost`, after the protocol header. Maps are written in
the order `range` gives. -/

namespace Amqp091

open ByteCodec Url

def newConnectionProperties : Table :=
  [(ascii "product", .string (ascii "AMQP 0.9.1 Client")),
   (ascii "version", .string (ascii "1.10.0")),
   (ascii "platform", .string (ascii "golang"))]

def capabilities : Table :=
  [(ascii "connection.blocked", .bool true), (ascii "consumer_cancel_notify", .bool true),
   (ascii "basic.nack", .bool true), (ascii "publisher_confirms", .bool true)]

/-- `Properties` of the configuration with the capabilities, whatever it says about them. -/
def clientProperties (range : Table → Table) (properties : Table) : Table :=
  let properties := if properties.length = 0 then newConnectionProperties else properties
  properties.set (ascii "capabilities") (.table (range capabilities))

def startOk (range : Table → Table) (properties : Table) (locale : Bytes)
    (auth : Authentication) : Message :=
  ⟨.connectionStartOk, (range (clientProperties range properties), auth.mechanism,
    auth.response range, locale, ())⟩

/-- The reserved arguments have their zero values. -/
def openVhost (config : Config) : Message :=
  ⟨.connectionOpen, (config.vhost, [], Vector.replicate 1 false, ())⟩

/-- The frames of an opening that succeeds. -/
def openingFrames (range : Table → Table) (config : Config) (properties : Table)
    (locale : Bytes) (auth : Authentication) (tune : ConnectionTune) : List Frame :=
  [.method 0 0 0 (some (startOk range properties locale auth)),
   .method 0 0 0 (some (openTune config tune).tuneOk.message),
   .method 0 0 0 (some (openVhost config))]

end Amqp091

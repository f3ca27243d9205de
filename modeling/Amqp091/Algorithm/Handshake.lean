import Amqp091.Algorithm.Auth
import Amqp091.Algorithm.DialConfig
import Amqp091.Algorithm.Rpc

/-! # Opening a connection

`DialConfig` and `Open` next to the reader of the connection: the transport is dialled, may
be given to TLS, and then five functions call each other up to `connection.open-ok`. A run
ends when the caller gets its result. -/

namespace Amqp091

open ByteCodec

/-- What `call` returns. -/
def CallResult.error : CallResult → Option GoError
  | .ok _ => none
  | .commandInvalid _ => some errCommandInvalid
  | .sendError e => some e
  | .shutdownError e => some (.amqp e)
  | .errClosed => some Amqp091.errClosed

/-- What the caller gives: the configuration, whether it has a `Dial` and a
`TLSClientConfig`, and whether the URI asks for TLS. -/
structure OpenPlan where
  config : Config
  hasDial : Bool := false
  hasTLS : Bool := false
  amqps : Bool := false

/-- Where the caller is, named after what it does next. `picking` has the number of the
`connection.start`. -/
inductive OpenPhase where
  | dialing
  | settingDeadline
  | connected
  | securing
  | opening
  | sendingHeader
  | awaitingStart
  | picking (k : ℕ)
  | sendingStartOk
  | awaitingTune
  | sendingTuneOk
  | sendingOpen
  | awaitingOpenOk
  | returned (result : Option GoError)
  deriving DecidableEq, Repr

/-- The transport is `established` once it is dialled; `closed` says that `DialConfig` has
closed it again. The connection exists from the beginning of `Open` on. -/
structure Handshake where
  plan : OpenPlan
  phase : OpenPhase
  established : Bool
  closed : Bool
  link : Option RpcLink

inductive OpenAction where
  | dial (failure : Option String)
  | setDeadline (failure : Option String)
  | tlsConfig (failure : Option String)
  | tlsHandshake (failure : Option String)
  | create
  | send (failure : Option String)
  | select (c : RpcLink.Case)
  | pick
  | link (a : RpcAction)

namespace Handshake

/-- `DialConfig` with what it makes of the URI and the configuration. -/
def dial (request : DialRequest) (hasDial hasTLS : Bool) : Handshake where
  plan :=
    { config := request.config
      hasDial := hasDial
      hasTLS := hasTLS
      amqps := request.uri.scheme = Url.ascii "amqps" }
  phase := .dialing
  established := false
  closed := false
  link := none

/-- `Open` is given a transport. -/
def openWith (config : Config) : Handshake where
  plan := { config := config }
  phase := .opening
  established := true
  closed := false
  link := none

/-- The caller fails or goes on. -/
def afterFailure (failure : Option String) (phase : OpenPhase) : OpenPhase :=
  match failure with
  | some reason => .returned (some (.text reason))
  | none => phase

/-- What a `send` leads to: `openTune` and `openVhost` hide the errors of their calls. -/
def afterSend (phase : OpenPhase) (e : Option GoError) : Option OpenPhase :=
  match phase, e with
  | .sendingHeader, none => some .awaitingStart
  | .sendingHeader, some e => some (.returned (some e))
  | .sendingStartOk, none => some .awaitingTune
  | .sendingStartOk, some _ => some (.returned (some errCredentials))
  | .sendingTuneOk, none => some .sendingOpen
  | .sendingTuneOk, some e => some (.returned (some e))
  | .sendingOpen, none => some .awaitingOpenOk
  | .sendingOpen, some _ => some (.returned (some errVhost))
  | _, _ => none

/-- The method that a call waits for. -/
def expected : OpenPhase → Option Method
  | .awaitingStart => some .connectionStart
  | .awaitingTune => some .connectionTune
  | .awaitingOpenOk => some .connectionOpenOk
  | _ => none

/-- What the result of a call leads to. -/
def afterCall (phase : OpenPhase) (r : CallResult) : OpenPhase :=
  match phase, r with
  | .awaitingStart, .ok k => .picking k
  | .awaitingTune, .ok _ => .sendingTuneOk
  | .awaitingOpenOk, .ok _ => .returned none
  | .awaitingTune, _ => .returned (some errCredentials)
  | .awaitingOpenOk, _ => .returned (some errVhost)
  | _, r => .returned r.error

/-- The mechanism for the `connection.start` with the number `k`. -/
def mechanism (s : Handshake) (l : RpcLink) (k : ℕ) : Option Authentication :=
  (l.received[k]?).bind fun m =>
    pickSASLMechanism (s.plan.config.sasl.getD []) (startMechanisms m)

/-- During the handshake nobody calls `shutdown` but the reader and failed writes. -/
def isForeign : RpcAction → Bool
  | .shutdown _ => true
  | _ => false

def next (s : Handshake) : OpenAction → Option Handshake
  | .dial failure =>
      match s.phase with
      | .dialing =>
          some { s with
            established := failure.isNone
            phase := afterFailure failure
              (if s.plan.hasDial then .connected else .settingDeadline) }
      | _ => none
  | .setDeadline failure =>
      match s.phase with
      | .settingDeadline => some { s with phase := afterFailure failure .connected }
      | _ => none
  -- without `amqps` the transport is used as it is
  | .tlsConfig failure =>
      match s.phase, s.plan.amqps, s.plan.hasTLS with
      | .connected, true, false => some { s with phase := afterFailure failure .securing }
      | .connected, true, true => some { s with phase := .securing }
      | .connected, false, _ => some { s with phase := .opening }
      | _, _, _ => none
  | .tlsHandshake failure =>
      match s.phase with
      | .securing =>
          some { s with phase := afterFailure failure .opening, closed := failure.isSome }
      | _ => none
  | .create =>
      match s.phase with
      | .opening => some { s with phase := .sendingHeader, link := some .start }
      | _ => none
  | .send failure =>
      match s.link with
      | some l =>
          (afterSend s.phase (l.send failure).2).map fun phase =>
            { s with phase := phase, link := some (l.send failure).1 }
      | none => none
  | .select c =>
      match s.link, expected s.phase with
      | some l, some m =>
          (l.select c).map fun p =>
            { s with phase := afterCall s.phase (p.1.result [m] p.2), link := some p.1 }
      | _, _ => none
  | .pick =>
      match s.link, s.phase with
      | some l, .picking k =>
          some { s with
            phase := if (s.mechanism l k).isSome then .sendingStartOk
              else .returned (some errSASL) }
      | _, _ => none
  | .link a =>
      match s.link, s.phase with
      | _, .returned _ => none
      | some l, _ => if isForeign a then none else (l.next a).map fun l => { s with link := some l }
      | none, _ => none

end Handshake

end Amqp091

import Amqp091.Algorithm.DialConfig
import Amqp091.Shared.Fallible
import Amqp091.Verification.Handshake.Tuning

/-! # The heartbeat of the URI

A heartbeat in the URI replaces the configured one. A zero there reaches the tuning, where
it stands for no limit of the client: the server's interval is taken. -/

namespace Amqp091

open ByteCodec Url Fallible

variable {url : Bytes} {config : Config} {request : DialRequest} {tune : ConnectionTune}

/-- The seconds in the heartbeat parameter of a URI. -/
def uriHeartbeat (url : Bytes) : Option Int64 :=
  match Url.parse url with
  | .error _ => none
  | .ok u =>
      match heartbeatParameter u.query with
      | .error _ => none
      | .ok seconds => seconds

theorem heartbeat_of_parseURI {uri : URI} (h : parseURI url = .ok uri) :
    uri.heartbeat = ((uriHeartbeat url).map newHeartbeatDurationFromSeconds).getD {} := by
  rw [parseURI] at h
  split at h
  · cases h
  · rw [uriHeartbeat]
    split at h
    · cases h
    · rename_i u hu
      rw [hu, uriOfURL] at *
      split at h
      · cases h
      · obtain ⟨port, -, h⟩ := bind_eq_ok.mp h
        obtain ⟨heartbeat, hheartbeat, h⟩ := bind_eq_ok.mp h
        obtain ⟨timeout, -, h⟩ := bind_eq_ok.mp h
        obtain ⟨channelMax, -, h⟩ := bind_eq_ok.mp h
        cases h
        simp only [hheartbeat]

theorem heartbeat_of_dialConfig (h : dialConfig url config = .ok request) :
    request.config.heartbeat =
      config.heartbeatOr (((uriHeartbeat url).map newHeartbeatDurationFromSeconds).getD {}) := by
  obtain ⟨uri, huri, h⟩ := bind_eq_ok.mp h
  obtain ⟨sasl, -, h⟩ := bind_eq_ok.mp h
  rw [← heartbeat_of_parseURI (mapError_eq_ok.mp huri)]
  cases h
  rfl

/-- A parameter in the URI leaves nothing of the configured value. -/
theorem heartbeat_of_parameter (h : dialConfig url config = .ok request) {seconds : Int64}
    (hseconds : uriHeartbeat url = some seconds) :
    request.config.heartbeat = seconds * second := by
  rw [heartbeat_of_dialConfig h, hseconds]
  rfl

theorem toInt_heartbeat_of_zero (h : dialConfig url config = .ok request)
    (hzero : uriHeartbeat url = some 0) (tune : ConnectionTune) :
    (openTune request.config tune).heartbeat.toInt = tune.heartbeat.toNat * 10 ^ 9 := by
  have hconfig : request.config.heartbeat = 0 := heartbeat_of_parameter h hzero
  change (tunedHeartbeat request.config.heartbeat tune.heartbeat).toInt = _
  rw [hconfig, toInt_tunedHeartbeat (by decide), smallerLimit, if_pos (.inl (by decide))]
  have hmax : max ((0 : Int64).toInt / 10 ^ 9) (tune.heartbeat.toNat : ℤ) =
      tune.heartbeat.toNat := max_eq_right (by simp)
  rw [hmax]

/-- The URI decides: its zero turns heartbeats off, its other values replace the configured
one. -/
structure UriHeartbeatGoverns (url : Bytes) (tune : ConnectionTune)
    (request : DialRequest) : Prop where
  disabled : uriHeartbeat url = some 0 →
    (openTune request.config tune).heartbeat = 0 ∧
      (openTune request.config tune).tuneOk.heartbeat = 0
  precedence : ∀ seconds, uriHeartbeat url = some seconds → seconds ≠ 0 →
    ∀ config' request', dialConfig url config' = .ok request' →
      (openTune request'.config tune).heartbeat = (openTune request.config tune).heartbeat

theorem heartbeat_eq_zero_iff (h : dialConfig url config = .ok request)
    (hzero : uriHeartbeat url = some 0) :
    (openTune request.config tune).heartbeat = 0 ↔ tune.heartbeat = 0 := by
  have hint := toInt_heartbeat_of_zero h hzero tune
  rw [← Int64.toInt_inj, ← UInt16.toNat_inj, hint, Int64.toInt_zero]
  simp

/-- The parameter keeps its promise exactly when, should it be zero, the server does not
propose an interval. -/
theorem uriHeartbeat_governs_iff (url : Bytes) (config : Config) (tune : ConnectionTune)
    (request : DialRequest) (h : dialConfig url config = .ok request) :
    UriHeartbeatGoverns url tune request ↔ (uriHeartbeat url = some 0 → tune.heartbeat = 0) := by
  constructor
  · intro hgoverns hzero
    exact (heartbeat_eq_zero_iff h hzero).mp (hgoverns.disabled hzero).1
  · intro hserver
    refine ⟨fun hzero => ?_, fun seconds hseconds _ config' request' h' => ?_⟩
    · have heartbeat := (heartbeat_eq_zero_iff h hzero).mpr (hserver hzero)
      refine ⟨heartbeat, ?_⟩
      change ((openTune request.config tune).heartbeat / second).toUInt64.toUInt16 = 0
      rw [heartbeat]
      decide
    · have hsame : request'.config.heartbeat = request.config.heartbeat := by
        rw [heartbeat_of_parameter h hseconds, heartbeat_of_parameter h' hseconds]
      rw [openTune, openTune, hsame]

/-- What is dialled for a URI that has nothing but a heartbeat of zero, whatever the
configured heartbeat is. -/
def requestOfZero : DialRequest :=
  let uri := { defaultURI with heartbeat := newHeartbeatDurationFromSeconds 0 }
  { uri := uri
    config := { sasl := some [uri.plainAuth], vhost := uri.vhost }
    connectionTimeout := defaultConnectionTimeout
    addr := ascii "localhost:5672" }

/-- A server without an interval of its own leaves heartbeats off. -/
theorem uriHeartbeat_governs_of_no_proposal :
    dialConfig (ascii "amqp://localhost/?heartbeat=0") { heartbeat := 30 * second } =
        .ok requestOfZero ∧
      UriHeartbeatGoverns (ascii "amqp://localhost/?heartbeat=0") ⟨0, 0, 0⟩ requestOfZero :=
  have h : dialConfig (ascii "amqp://localhost/?heartbeat=0") { heartbeat := 30 * second } =
      .ok requestOfZero := by decide +kernel
  ⟨h, (uriHeartbeat_governs_iff _ _ _ _ h).mpr fun _ => rfl⟩

/-- A server that proposes a minute gets a minute. -/
theorem uriHeartbeat_zero_not_disabled :
    uriHeartbeat (ascii "amqp://localhost/?heartbeat=0") = some 0 ∧
      dialConfig (ascii "amqp://localhost/?heartbeat=0") {} = .ok requestOfZero ∧
      (openTune requestOfZero.config ⟨0, 0, 60⟩).heartbeat = 60 * second ∧
      (openTune requestOfZero.config ⟨0, 0, 60⟩).tuneOk.heartbeat = 60 := by
  decide +kernel

end Amqp091

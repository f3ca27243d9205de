import Amqp091.Algorithm.Uri
import Amqp091.Shared.Url.Host
import Amqp091.Shared.Url.Parse

/-! # What is read from a URL

The fields that a successful `ParseURI` takes from the parsed URL, and what always holds of
them. -/

namespace Amqp091

open ByteCodec Url Fallible

variable {u : URL} {uri : URI}

/-- The fields that printing looks at. -/
structure URI.ReadFrom (uri : URI) (u : URL) : Prop where
  scheme : uri.scheme = u.scheme
  port : ∃ defaultPort, schemePort u.scheme = some defaultPort ∧
    uriPort u.port defaultPort = .ok uri.port
  host : uri.host = if u.hostname ≠ [] then u.hostname else defaultURI.host
  username : uri.username = (uriCredentials u.user).1
  password : uri.password = (uriCredentials u.user).2
  vhost : uri.vhost = uriVhost u
  certFile : uri.certFile = u.query.get (ascii "certfile")
  caCertFile : uri.caCertFile = u.query.get (ascii "cacertfile")
  keyFile : uri.keyFile = u.query.get (ascii "keyfile")
  serverName : uri.serverName = u.query.get (ascii "server_name_indication")

theorem readFrom_of_uriOfURL (h : uriOfURL u = .ok uri) : uri.ReadFrom u := by
  rw [uriOfURL] at h
  split at h
  · cases h
  · rename_i defaultPort hscheme
    obtain ⟨port, hport, h⟩ := bind_eq_ok.mp h
    obtain ⟨heartbeat, -, h⟩ := bind_eq_ok.mp h
    obtain ⟨timeout, -, h⟩ := bind_eq_ok.mp h
    obtain ⟨channelMax, -, h⟩ := bind_eq_ok.mp h
    cases h
    exact ⟨rfl, ⟨defaultPort, hscheme, hport⟩, rfl, rfl, rfl, rfl, rfl, rfl, rfl, rfl⟩

/-- A URL without one of the parameters that may be refused. -/
theorem exists_uriOfURL {port defaultPort : ℤ} (hscheme : schemePort u.scheme = some defaultPort)
    (hport : uriPort u.port defaultPort = .ok port)
    (hquery : ∀ p ∈ u.query, p.1 ≠ ascii "heartbeat" ∧ p.1 ≠ ascii "connection_timeout" ∧
      p.1 ≠ ascii "channel_max") :
    ∃ uri, uriOfURL u = .ok uri := by
  have hhas : ∀ key, (∀ p ∈ u.query, p.1 ≠ key) → u.query.has key = false := by
    intro key hkey
    rw [Values.has, List.any_eq_false]
    exact fun p hp htrue => hkey p hp (of_decide_eq_true htrue)
  have hheartbeat : heartbeatParameter u.query = .ok none := by
    rw [heartbeatParameter, hhas _ fun p hp => (hquery p hp).1]
    rfl
  have htimeout : connectionTimeoutParameter u.query = .ok 0 := by
    rw [connectionTimeoutParameter, hhas _ fun p hp => (hquery p hp).2.1]
    rfl
  have hchannelMax : channelMaxParameter u.query = .ok 0 := by
    rw [channelMaxParameter, hhas _ fun p hp => (hquery p hp).2.2]
    rfl
  rw [uriOfURL, hscheme]
  simp only [hport, hheartbeat, htimeout, hchannelMax, ok_bind]
  exact ⟨_, rfl⟩

theorem parseURI_eq_ok {s : Bytes} :
    parseURI s = .ok uri ↔
      ' '.toUInt8 ∉ s ∧ ∃ u, Url.parse s = .ok u ∧ uriOfURL u = .ok uri := by
  rw [parseURI]
  split
  · rename_i hspace
    rw [List.contains_iff_mem] at hspace
    exact iff_of_false (fun h => by cases h) fun h => h.1 hspace
  · rename_i hspace
    rw [List.contains_iff_mem] at hspace
    cases hparse : Url.parse s with
    | error e =>
        refine iff_of_false (fun h => by cases h) ?_
        rintro ⟨-, u, hu, -⟩
        cases hu
    | ok u =>
        constructor
        · intro h
          exact ⟨hspace, u, rfl, h⟩
        · rintro ⟨-, u', hu, h⟩
          cases hu
          exact h

/-! ## What holds of every accepted URI -/

structure URI.Regular (uri : URI) : Prop where
  scheme : ∃ defaultPort, schemePort uri.scheme = some defaultPort
  host : HostText uri.host
  nonempty : uri.host ≠ []
  port : ∃ n : ℕ, uri.port = n ∧ n < 2 ^ (32 - 1)
  vhost : uri.vhost ≠ []

theorem eq_of_schemePort {scheme : Bytes} {port : ℤ} (h : schemePort scheme = some port) :
    (scheme = ascii "amqp" ∧ port = 5672) ∨ (scheme = ascii "amqps" ∧ port = 5671) := by
  rw [schemePort] at h
  split at h
  · rename_i hscheme
    exact .inl ⟨hscheme, (Option.some.inj h).symm⟩
  · split at h
    · rename_i hscheme
      exact .inr ⟨hscheme, (Option.some.inj h).symm⟩
    · cases h

theorem uriVhost_ne_nil (u : URL) : uriVhost u ≠ [] := by
  have hdefault : defaultURI.vhost ≠ [] := by decide
  have hdrop : ∀ n, u.path.length > n → u.path.drop n ≠ [] := by
    intro n hn hnil
    have hle := List.drop_eq_nil_iff.mp hnil
    omega
  rw [uriVhost]
  split
  · exact hdefault
  · rename_i hpath
    split
    · split
      · split
        exacts [hdrop 3 (by assumption), hdefault]
      · split
        exacts [hdrop 1 (by assumption), hdefault]
    · exact hpath

theorem exists_nat_of_uriPort {port defaultPort : ℤ}
    (hscheme : schemePort uri.scheme = some defaultPort)
    (h : uriPort u.port defaultPort = .ok port) : ∃ n : ℕ, port = n ∧ n < 2 ^ (32 - 1) := by
  rw [uriPort] at h
  split at h
  · exact Decimal.exists_nat_of_parseInt (isDigit_of_splitHostPort u.host) (mapError_eq_ok.mp h)
  · cases h
    rcases eq_of_schemePort hscheme with ⟨-, rfl⟩ | ⟨-, rfl⟩
    exacts [⟨5672, rfl, by norm_num⟩, ⟨5671, rfl, by norm_num⟩]

theorem hostText_default : HostText defaultURI.host := by
  have hread : unescape defaultURI.host .host = .ok defaultURI.host := by decide +kernel
  exact (PlainHost.of_unescape (by decide) hread).hostText

theorem regular_of_parseURI {s : Bytes} (h : parseURI s = .ok uri) : uri.Regular := by
  obtain ⟨-, u, hparse, huri⟩ := parseURI_eq_ok.mp h
  have hread := readFrom_of_uriOfURL huri
  obtain ⟨defaultPort, hscheme, hport⟩ := hread.port
  rw [← hread.scheme] at hscheme
  refine ⟨⟨defaultPort, hscheme⟩, ?_, ?_, exists_nat_of_uriPort hscheme hport,
    hread.vhost ▸ uriVhost_ne_nil u⟩
  · rw [hread.host]
    split
    · rename_i hne
      rcases host_of_parse hparse with hhost | ⟨text, htext⟩
      · rw [URL.hostname, hhost] at hne
        exact absurd rfl hne
      · exact hostText_of_parseHost htext
    · exact hostText_default
  · rw [hread.host]
    split
    · assumption
    · exact List.cons_ne_nil _ _

end Amqp091

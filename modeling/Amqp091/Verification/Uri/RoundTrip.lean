import Amqp091.Verification.Uri.Printing

/-! # Printed URIs are read back

The TLS parameters are printed as they are, a virtual host that has a space keeps its
slashes, and a host that has a colon is put in brackets, where only an address may stand.
Where none of this does any harm the text of a URI stands for the same URI. -/

namespace Amqp091

open ByteCodec Url Fallible

namespace URI

variable {uri uri' : URI} {u : URL}

/-- The same server, the same credentials and the same TLS parameters. -/
structure Same (uri uri' : URI) : Prop where
  scheme : uri'.scheme = uri.scheme
  host : uri'.host = uri.host
  port : uri'.port = uri.port
  username : uri'.username = uri.username
  password : uri'.password = uri.password
  vhost : uri'.vhost = uri.vhost
  certFile : uri'.certFile = uri.certFile
  keyFile : uri'.keyFile = uri.keyFile
  caCertFile : uri'.caCertFile = uri.caCertFile
  serverName : uri'.serverName = uri.serverName

/-- A byte that may stand in a query as it is. -/
def isParameterByte (c : UInt8) : Bool := isQueryByte c && c ≠ ' '.toUInt8 && !isControl c

structure Printable (uri : URI) : Prop where
  host : hostReadsBack uri.host = true
  vhost : ¬ (uri.vhost.head? = some '/'.toUInt8 ∧ ' '.toUInt8 ∈ uri.vhost)
  parameters : ∀ f ∈ uri.tlsFields, ∀ c ∈ f.2, isParameterByte c = true

/-! ## The parts -/

theorem Regular.front (h : uri.Regular) :
    Front uri.scheme (userText uri.user ++ escape uri.authorityHost .host) uri.pathText := by
  obtain ⟨port, hport⟩ := h.scheme
  have hscheme : uri.scheme ∈ [ascii "amqp", ascii "amqps"] := by
    rcases eq_of_schemePort hport with ⟨heq, -⟩ | ⟨heq, -⟩ <;> simp [heq]
  have hall : ∀ scheme ∈ [ascii "amqp", ascii "amqps"],
      scheme ≠ [] ∧ ∀ c ∈ scheme, isAlpha c = true ∧ toLower c = c := by decide +kernel
  exact ⟨(hall _ hscheme).1, (hall _ hscheme).2, fun c hc => (authority_bytes _ _ c hc).1,
    fun c hc => (pathText_bytes uri c hc).1⟩

theorem uriVhost_rooted {path : Bytes} (hhost : u.host ≠ [])
    (hpath : u.path = '/'.toUInt8 :: path) :
    uriVhost u = if path = [] then defaultURI.vhost else path := by
  have hslash : (ascii "/").isPrefixOf ('/'.toUInt8 :: path) = true :=
    List.isPrefixOf_iff_prefix.mpr ⟨path, rfl⟩
  rw [uriVhost, hpath, if_neg (List.cons_ne_nil _ _), if_pos hslash,
    if_neg (fun h => hhost h.1)]
  cases path with
  | nil => rfl
  | cons c path => exact if_pos (by simp)

/-- The virtual host is read back unless a slash is lost. -/
theorem vhost_iff (h : uri.vhost ≠ []) (hhost : u.host ≠ [])
    (hpath : u.path = '/'.toUInt8 :: uri.pathValue) :
    uriVhost u = uri.vhost ↔
      ¬ (uri.vhost.head? = some '/'.toUInt8 ∧ ' '.toUInt8 ∈ uri.vhost) := by
  rw [uriVhost_rooted hhost hpath, pathValue]
  by_cases hdefault : uri.vhost = defaultURI.vhost
  · rw [if_pos hdefault, if_pos rfl, hdefault]
    exact iff_of_true rfl (by decide)
  · rw [if_neg hdefault]
    by_cases hlost : ' '.toUInt8 ∈ uri.vhost ∧ uri.vhost.head? = some '/'.toUInt8
    · obtain ⟨rest, hrest⟩ := List.head?_eq_some_iff.mp hlost.2
      have htail : rest ≠ [] := by
        rintro rfl
        exact hdefault hrest
      rw [if_pos hlost, hrest, List.tail_cons, if_neg htail]
      refine iff_of_false (fun heq => ?_) (fun hnot => hnot ⟨rfl, hrest ▸ hlost.1⟩)
      have hlength := congrArg List.length heq
      rw [List.length_cons] at hlength
      omega
    · rw [if_neg hlost, if_neg h]
      exact iff_of_true rfl fun hnot => hlost hnot.symm

/-- The host that is found is the one that was printed, and with it the port. -/
theorem Regular.parseHost_iff (h : uri.Regular) {out : Bytes} :
    parseHost (escape uri.authorityHost .host) = .ok out ↔
      hostReadsBack uri.host = true ∧ out = uri.authorityHost := by
  rw [authorityHost_eq]
  exact parseHost_withPort_iff h.host h.portText

theorem Regular.splitHostPort (h : uri.Regular) :
    splitHostPort uri.authorityHost = (uri.host, uri.portDigits) := by
  rw [authorityHost_eq]
  exact splitHostPort_withPort h.host h.portText

/-! ## The parameters -/

/-- All parameters are recovered from a query. -/
def Recovers (uri : URI) (params : Values) : Prop :=
  ∀ f ∈ uri.tlsFields, params.get f.1 = f.2

theorem ReadFrom.recovers (hread : uri'.ReadFrom u) (hsame : uri.Same uri') :
    uri.Recovers u.query := by
  rw [Recovers, tlsFields]
  simp only [List.forall_mem_cons]
  exact ⟨hread.certFile ▸ hsame.certFile, hread.keyFile ▸ hsame.keyFile,
    hread.caCertFile ▸ hsame.caCertFile, hread.serverName ▸ hsame.serverName,
    fun f hf => absurd hf List.not_mem_nil⟩

theorem isQueryByte_of_recovers
    (h : uri.Recovers (parseQuery (cut '#'.toUInt8 uri.rawQuery).1)) :
    ∀ f ∈ uri.tlsFields, ∀ c ∈ f.2, isQueryByte c = true := by
  rw [← forall_printedFields]
  refine (get_printQuery_iff (fun f hf => isName_of_mem_printedFields hf)
    (nodup_printedFields uri)).mp fun f hf => ?_
  rw [← parseQuery_rawQuery]
  exact h f (mem_printedFields.mp hf).1

theorem parseQuery_rawQuery_eq (uri : URI)
    (h : ∀ f ∈ uri.tlsFields, ∀ c ∈ f.2, isQueryByte c = true) :
    parseQuery (cut '#'.toUInt8 uri.rawQuery).1 = uri.printedFields := by
  have hnames : ∀ f ∈ uri.printedFields, isName f.1 = true :=
    fun f hf => isName_of_mem_printedFields hf
  rw [← forall_printedFields] at h
  rw [parseQuery_rawQuery, cut_of_not_mem (not_mem_printQuery hnames h),
    parseQuery_printQuery hnames h]

theorem recovers_printedFields (uri : URI) : uri.Recovers uri.printedFields := by
  intro f hf
  by_cases hempty : f.2 = []
  · by_contra hget
    rw [hempty] at hget
    obtain ⟨hmem, hne⟩ := mem_printedFields.mp (mem_of_get_ne_nil hget)
    have heq := List.inj_on_of_nodup_map (nodup_tlsFields uri) hmem hf rfl
    exact hne ((congrArg Prod.snd heq).trans hempty)
  · exact get_of_mem (nodup_printedFields uri) (mem_printedFields.mpr ⟨hf, hempty⟩)

theorem mem_queryText {query : Bytes} {c : UInt8} (h : c ∈ query) : c ∈ queryText query := by
  rw [queryText, if_neg (List.ne_nil_of_mem h)]
  exact List.mem_cons_of_mem _ h

/-- A space is refused anywhere in the text, a control byte up to a number sign. -/
theorem isParameterByte_of_recovers
    (h : uri.Recovers (parseQuery (cut '#'.toUInt8 uri.rawQuery).1))
    (hspace : ' '.toUInt8 ∉ uri.rawQuery)
    (hcontrol : (cut '#'.toUInt8 uri.rawQuery).1.any isControl = false) :
    ∀ f ∈ uri.tlsFields, ∀ c ∈ f.2, isParameterByte c = true := by
  have hquery := isQueryByte_of_recovers h
  have hhash : ∀ c ∈ uri.rawQuery, c ≠ '#'.toUInt8 := by
    refine (forall_mem_rawQuery (by decide) (by decide) (by decide +kernel)).mpr ?_
    exact fun f hf c hc =>
      ne_of_mem_of_not_mem hc (not_mem_of_isQueryByte (hquery f hf) (by decide))
  rw [cut_of_not_mem (fun hmem => hhash _ hmem rfl), List.any_eq_false] at hcontrol
  have hspace' := (forall_mem_rawQuery (by decide) (by decide) (by decide +kernel)).mp
    fun c hc => ne_of_mem_of_not_mem hc hspace
  have hcontrol' := (forall_mem_rawQuery (by decide) (by decide) (by decide +kernel)).mp hcontrol
  intro f hf c hc
  rw [isParameterByte, hquery f hf c hc, decide_eq_true (hspace' f hf c hc),
    Bool.eq_false_iff.mpr (hcontrol' f hf c hc)]
  rfl

/-! ## There and back -/

theorem Regular.printable_of_parseURI (h : uri.Regular) (hparse : parseURI uri.string = .ok uri')
    (hsame : uri.Same uri') : uri.Printable := by
  obtain ⟨hspace, u, hurl, hread⟩ := parseURI_eq_ok.mp hparse
  replace hread := readFrom_of_uriOfURL hread
  rw [h.string_eq] at hspace hurl
  obtain ⟨hcontrol, ⟨user, out⟩, path, hauth, hpath, hparts⟩ := h.front.parts_of_parse hurl
  rw [parseAuthority_printed uri.user_proper] at hauth
  obtain ⟨out', hhost, heq⟩ := map_eq_ok.mp hauth
  cases heq
  rw [unescape_pathText] at hpath
  cases hpath
  obtain ⟨hreads, rfl⟩ := h.parseHost_iff.mp hhost
  refine ⟨hreads, ?_, ?_⟩
  · refine (vhost_iff h.vhost ?_ hparts.path).mp (hread.vhost.symm.trans hsame.vhost)
    rw [hparts.host]
    exact authorityHost_ne_nil h.nonempty
  · have hrecovers := hread.recovers hsame
    rw [URL.query, hparts.rawQuery] at hrecovers
    exact isParameterByte_of_recovers hrecovers
      (fun hmem => hspace (List.mem_append_right _ (mem_queryText hmem))) hcontrol

/-- The text has no spaces but those of its parameters. -/
theorem Regular.space_not_mem (h : uri.Regular) (hquery : ' '.toUInt8 ∉ uri.rawQuery) :
    ' '.toUInt8 ∉ uri.string := by
  have hcolon : ' '.toUInt8 ≠ ':'.toUInt8 := by decide
  have hslash : ' '.toUInt8 ≠ '/'.toUInt8 := by decide
  rw [h.string_eq, frontText, queryText]
  intro hmem
  simp only [List.mem_append, List.mem_cons, hcolon, hslash, false_or] at hmem
  rcases hmem with (hmem | (hmem | hmem) | hmem) | hmem
  · exact absurd (h.front.scheme _ hmem).1 (by decide)
  · exact (authority_bytes uri.user uri.authorityHost _ (List.mem_append_left _ hmem)).2 rfl
  · exact (authority_bytes uri.user uri.authorityHost _ (List.mem_append_right _ hmem)).2 rfl
  · exact (uri.pathText_bytes _ hmem).2 rfl
  · split at hmem
    · exact List.not_mem_nil hmem
    · rcases List.mem_cons.mp hmem with heq | hmem
      · exact absurd heq (by decide)
      · exact hquery hmem

theorem isParameterByte_iff {c : UInt8} :
    isParameterByte c = true ↔ isQueryByte c = true ∧ c ≠ ' '.toUInt8 ∧ isControl c = false := by
  rw [isParameterByte, Bool.and_eq_true, Bool.and_eq_true, decide_eq_true_iff, Bool.not_eq_true',
    and_assoc]

/-- What is read from the parts of a printable URI. -/
theorem Regular.same_of_parts (h : uri.Regular)
    (hvhost : ¬ (uri.vhost.head? = some '/'.toUInt8 ∧ ' '.toUInt8 ∈ uri.vhost))
    (hparts : u.HasParts uri.scheme uri.user uri.authorityHost ('/'.toUInt8 :: uri.pathValue)
      uri.rawQuery)
    (hquery : parseQuery uri.rawQuery = uri.printedFields) (hread : uri'.ReadFrom u) :
    uri.Same uri' := by
  have hhost : u.host ≠ [] := hparts.host ▸ authorityHost_ne_nil h.nonempty
  have hname : u.hostname = uri.host := by rw [URL.hostname, hparts.host, h.splitHostPort]
  have hport : u.port = uri.portDigits := by rw [URL.port, hparts.host, h.splitHostPort]
  have hparams : u.query = uri.printedFields := by rw [URL.query, hparts.rawQuery, hquery]
  have hrecovers := recovers_printedFields uri
  rw [Recovers, tlsFields] at hrecovers
  simp only [List.forall_mem_cons] at hrecovers
  obtain ⟨hcert, hkey, hca, hserver, -⟩ := hrecovers
  obtain ⟨defaultPort, hscheme, hdigits⟩ := hread.port
  rw [hparts.scheme] at hscheme
  rw [hport, h.uriPort hscheme] at hdigits
  have hcredentials := uri.uriCredentials_user
  rw [← hparts.user] at hcredentials
  exact {
    scheme := hread.scheme.trans hparts.scheme
    host := by rw [hread.host, hname, if_pos h.nonempty]
    port := (Except.ok.inj hdigits).symm
    username := by rw [hread.username, hcredentials]
    password := by rw [hread.password, hcredentials]
    vhost := hread.vhost.trans ((vhost_iff h.vhost hhost hparts.path).mpr hvhost)
    certFile := by rw [hread.certFile, hparams, hcert]
    keyFile := by rw [hread.keyFile, hparams, hkey]
    caCertFile := by rw [hread.caCertFile, hparams, hca]
    serverName := by rw [hread.serverName, hparams, hserver] }

theorem Printable.exists_parseURI (hprintable : uri.Printable) (h : uri.Regular) :
    ∃ uri', parseURI uri.string = .ok uri' ∧ uri.Same uri' := by
  have hbytes := fun f hf c hc => isParameterByte_iff.mp (hprintable.parameters f hf c hc)
  have hraw : ∀ c ∈ uri.rawQuery, c ≠ '#'.toUInt8 ∧ c ≠ ' '.toUInt8 ∧ isControl c = false := by
    refine (forall_mem_rawQuery (by decide) (by decide) (by decide +kernel)).mpr
      fun f hf c hc => ⟨?_, (hbytes f hf c hc).2⟩
    rintro rfl
    exact absurd (hbytes f hf _ hc).1 (by decide)
  have hhash : '#'.toUInt8 ∉ uri.rawQuery := fun hmem => (hraw _ hmem).1 rfl
  have hquery : parseQuery uri.rawQuery = uri.printedFields := by
    have heq := parseQuery_rawQuery_eq uri fun f hf c hc => (hbytes f hf c hc).1
    rwa [cut_of_not_mem hhash] at heq
  have hauth : parseAuthority (userText uri.user ++ escape uri.authorityHost .host) =
      .ok (uri.user, uri.authorityHost) := by
    rw [parseAuthority_printed uri.user_proper,
      h.parseHost_iff.mpr ⟨hprintable.host, rfl⟩]
    rfl
  obtain ⟨u, hurl, hparts⟩ := h.front.exists_parse hauth uri.unescape_pathText hhash
    fun c hc => (hraw c hc).2.2
  obtain ⟨defaultPort, hscheme⟩ := h.scheme
  have hport : Amqp091.uriPort u.port defaultPort = .ok uri.port := by
    rw [URL.port, hparts.host, h.splitHostPort, h.uriPort hscheme]
  obtain ⟨uri', huri⟩ := exists_uriOfURL (hparts.scheme ▸ hscheme) hport fun p hp => by
    rw [URL.query, hparts.rawQuery, hquery] at hp
    have hnames : ∀ k ∈ tlsNames, k ≠ ascii "heartbeat" ∧ k ≠ ascii "connection_timeout" ∧
        k ≠ ascii "channel_max" := by decide +kernel
    exact hnames p.1 (name_mem_tlsNames (mem_printedFields.mp hp).1)
  refine ⟨uri', parseURI_eq_ok.mpr ⟨?_, u, h.string_eq ▸ hurl, huri⟩, ?_⟩
  · exact h.space_not_mem fun hmem => (hraw _ hmem).2.1 rfl
  · exact h.same_of_parts hprintable.vhost hparts hquery (readFrom_of_uriOfURL huri)

/-- The text of a parsed URI stands for the same URI exactly when its TLS parameters have
no byte that a query gives a meaning to, no slash of the virtual host is lost and a host
with a colon is an IPv6 address whose zone is written in ASCII and has no bracket. -/
theorem parseURI_string_iff (s : Bytes) (uri : URI) (h : parseURI s = .ok uri) :
    (∃ uri', parseURI uri.string = .ok uri' ∧ uri.Same uri') ↔ uri.Printable := by
  have hregular := regular_of_parseURI h
  constructor
  · rintro ⟨uri', hparse, hsame⟩
    exact hregular.printable_of_parseURI hparse hsame
  · intro hprintable
    exact hprintable.exists_parseURI hregular

/-- An address with a zone, a password with an at sign and a virtual host with a slash. -/
def zoned : URI where
  scheme := ascii "amqps"
  host := ascii "fe80::1%en0"
  port := 1000
  username := ascii "guest"
  password := ascii "p@ss"
  vhost := ascii "/v"
  certFile := ascii "/c.pem"
  serverName := ascii "example"

theorem parseURI_string_of_zoned :
    parseURI (ascii ("amqps://guest:p%40ss@[fe80::1%25en0]:1000/%2Fv?certfile=/c.pem&" ++
        "server_name_indication=example")) = .ok zoned ∧
      ∃ uri', parseURI zoned.string = .ok uri' ∧ zoned.Same uri' :=
  have h : parseURI (ascii ("amqps://guest:p%40ss@[fe80::1%25en0]:1000/%2Fv?certfile=/c.pem&" ++
      "server_name_indication=example")) = .ok zoned := by decide +kernel
  ⟨h, (parseURI_string_iff _ _ h).mpr ⟨by decide +kernel, by decide +kernel, by decide +kernel⟩⟩

/-- A file name with an ampersand is cut off there, a virtual host with a slash and a space
loses the slash, and a host that has a colon but is no address gets brackets. -/
theorem parseURI_string_differs :
    (parseURI (ascii "amqp://localhost/?certfile=a%26b") =
        .ok { defaultURI with certFile := ascii "a&b" } ∧
      ¬ ∃ uri', parseURI { defaultURI with certFile := ascii "a&b" }.string = .ok uri' ∧
        Same { defaultURI with certFile := ascii "a&b" } uri') ∧
    (parseURI (ascii "amqp://localhost/%2Fa%20b") = .ok { defaultURI with vhost := ascii "/a b" } ∧
      ¬ ∃ uri', parseURI { defaultURI with vhost := ascii "/a b" }.string = .ok uri' ∧
        Same { defaultURI with vhost := ascii "/a b" } uri') ∧
    parseURI (ascii "amqp://a::1/") = .ok { defaultURI with host := ascii "a:", port := 1 } ∧
      ¬ ∃ uri', parseURI { defaultURI with host := ascii "a:", port := 1 }.string = .ok uri' ∧
        Same { defaultURI with host := ascii "a:", port := 1 } uri' := by
  have hcert : parseURI { defaultURI with certFile := ascii "a&b" }.string =
      .ok { defaultURI with certFile := ascii "a" } := by decide +kernel
  have hvhost : parseURI { defaultURI with vhost := ascii "/a b" }.string =
      .ok { defaultURI with vhost := ascii "a b" } := by decide +kernel
  have hhost : parseURI { defaultURI with host := ascii "a:", port := 1 }.string =
      .error (.url (.invalidAddress (ascii "a:"))) := by decide +kernel
  refine ⟨⟨by decide +kernel, ?_⟩, ⟨by decide +kernel, ?_⟩, by decide +kernel, ?_⟩
  · rintro ⟨uri', hparse, hsame⟩
    obtain rfl := Except.ok.inj (hcert.symm.trans hparse)
    exact absurd hsame.certFile (by decide)
  · rintro ⟨uri', hparse, hsame⟩
    obtain rfl := Except.ok.inj (hvhost.symm.trans hparse)
    exact absurd hsame.vhost (by decide)
  · rintro ⟨uri', hparse, -⟩
    cases hhost.symm.trans hparse

end URI

end Amqp091

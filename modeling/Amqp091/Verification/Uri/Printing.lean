import Amqp091.Shared.Url.Authority
import Amqp091.Shared.Url.Query
import Amqp091.Verification.Uri.Reading

/-! # What is printed

The text of a URI as a scheme, an authority, a path and a query. -/

namespace Amqp091

open ByteCodec Url Fallible

variable {uri : URI}

namespace URI

/-! ## The authority -/

/-- The port of the scheme is left out. -/
def portText (uri : URI) : Bytes :=
  if schemePort uri.scheme ≠ some uri.port then ':'.toUInt8 :: Decimal.formatInt uri.port else []

theorem dropLast_withPort (host : Bytes) :
    (withPort host [':'.toUInt8]).getLast? = some ':'.toUInt8 ∧
      (withPort host [':'.toUInt8]).dropLast = withPort host [] := by
  rw [withPort, withPort]
  split
  · have hconcat : '['.toUInt8 :: (host ++ [']'.toUInt8, ':'.toUInt8]) =
        '['.toUInt8 :: (host ++ [']'.toUInt8]) ++ [':'.toUInt8] := by simp
    rw [hconcat, List.getLast?_concat, List.dropLast_concat]
    exact ⟨rfl, rfl⟩
  · rw [List.getLast?_concat, List.dropLast_concat, List.append_nil]
    exact ⟨rfl, rfl⟩

theorem authorityHost_eq (uri : URI) : uri.authorityHost = withPort uri.host uri.portText := by
  obtain ⟨hlast, hdrop⟩ := dropLast_withPort uri.host
  rw [authorityHost, portText, joinHostPort_eq, joinHostPort_eq]
  split
  · rfl
  · rw [if_pos hlast, hdrop]

/-- The digits of the port, which are none for the port of the scheme. -/
def portDigits (uri : URI) : Bytes :=
  if schemePort uri.scheme ≠ some uri.port then Decimal.formatInt uri.port else []

theorem Regular.formatInt_port (h : uri.Regular) :
    ∃ n : ℕ, uri.port = n ∧ n < 2 ^ (32 - 1) ∧
      Decimal.formatInt uri.port = Decimal.formatNat n := by
  obtain ⟨n, hn, hlt⟩ := h.port
  refine ⟨n, hn, hlt, ?_⟩
  rw [hn, Decimal.formatInt, if_neg (by omega), Int.natAbs_natCast]

theorem Regular.portText (h : uri.Regular) : PortText uri.portText uri.portDigits := by
  obtain ⟨n, -, -, hformat⟩ := h.formatInt_port
  rw [URI.portText, portDigits, hformat]
  split
  · exact .digits (Decimal.all_isDigit_formatNat n)
  · exact .absent

/-- The port is read back. -/
theorem Regular.uriPort (h : uri.Regular) {defaultPort : ℤ}
    (hscheme : schemePort uri.scheme = some defaultPort) :
    uriPort uri.portDigits defaultPort = .ok uri.port := by
  obtain ⟨n, hn, hlt, hformat⟩ := h.formatInt_port
  rw [Amqp091.uriPort, portDigits, hformat]
  split
  · rw [if_pos (Decimal.formatNat_ne_nil n), Decimal.parseInt_formatNat hlt, hn]
    rfl
  · rename_i hdefault
    rw [not_not, hscheme] at hdefault
    rw [if_neg (fun hne => hne rfl), Option.some.inj hdefault]

theorem user_proper (uri : URI) : ∀ u ∈ uri.user, u.Proper := by
  intro u hu
  rw [URI.user] at hu
  split at hu
  · split at hu
    · cases hu
      intro hset
      cases hset
    · cases hu
      exact fun _ => rfl
  · cases hu

/-- The credentials are read back. -/
theorem uriCredentials_user (uri : URI) :
    uriCredentials uri.user = (uri.username, uri.password) := by
  rw [URI.user]
  split
  · split
    · rfl
    · rename_i hpassword
      rw [uriCredentials]
      simp only [Url.user, Bool.false_eq_true, if_false, not_not.mp hpassword]
  · rename_i hdefault
    rw [not_or, not_not, not_not] at hdefault
    rw [uriCredentials, hdefault.1, hdefault.2]

/-! ## The path -/

/-- What stands behind the slash of the path. A virtual host with a space is not printed in
the form that escapes its slashes, and the first of them is taken for that of the path. -/
def pathText (uri : URI) : Bytes :=
  if uri.vhost = defaultURI.vhost then []
  else if ' '.toUInt8 ∉ uri.vhost then escape uri.vhost .queryComponent
  else if uri.vhost.head? = some '/'.toUInt8 then escape uri.vhost.tail .path
  else escape uri.vhost .path

/-- What is read from it. -/
def pathValue (uri : URI) : Bytes :=
  if uri.vhost = defaultURI.vhost then []
  else if ' '.toUInt8 ∈ uri.vhost ∧ uri.vhost.head? = some '/'.toUInt8 then uri.vhost.tail
  else uri.vhost

theorem unescape_pathText (uri : URI) :
    unescape ('/'.toUInt8 :: uri.pathText) .path = .ok ('/'.toUInt8 :: uri.pathValue) := by
  have hslash : ∀ {s t : Bytes}, unescape s .path = .ok t →
      unescape ('/'.toUInt8 :: s) .path = .ok ('/'.toUInt8 :: t) := by
    intro s t h
    rw [unescape_byte (by decide), h]
    rfl
  have hpath : ∀ s, unescape (escape s .path) .path = .ok s := fun s =>
    unescape_escape_self fun c _ => readsBack_path c
  apply hslash
  rw [pathText, pathValue]
  by_cases hdefault : uri.vhost = defaultURI.vhost
  · rw [if_pos hdefault, if_pos hdefault]
    rfl
  · rw [if_neg hdefault, if_neg hdefault]
    by_cases hspace : ' '.toUInt8 ∈ uri.vhost
    · rw [if_neg (not_not.mpr hspace)]
      by_cases hhead : uri.vhost.head? = some '/'.toUInt8
      · rw [if_pos hhead, if_pos ⟨hspace, hhead⟩, hpath]
      · rw [if_neg hhead, if_neg (fun h => hhead h.2), hpath]
    · rw [if_pos hspace, if_neg (fun h => hspace h.1)]
      exact unescape_escape_self fun c hc =>
        readsBack_query_path c (ne_of_mem_of_not_mem hc hspace)

theorem escapeByte_query : ∀ c, ∀ b ∈ escapeByte .queryComponent c,
    isPlain b = true ∧ b ≠ ' '.toUInt8 ∧ b ≠ '/'.toUInt8 ∧
      validEncoded [b] .path = true :=
  forall_mem_escapeByte (by decide) (by decide) (by decide) (forall_byte (by decide +kernel))

theorem escapeByte_path : ∀ c, ∀ b ∈ escapeByte .path c, isPlain b = true ∧ b ≠ ' '.toUInt8 :=
  forall_mem_escapeByte (by decide) (by decide) (by decide) (forall_byte (by decide +kernel))

theorem pathText_bytes (uri : URI) : ∀ b ∈ uri.pathText, isPlain b = true ∧ b ≠ ' '.toUInt8 := by
  rw [pathText]
  split
  · exact fun b hb => absurd hb List.not_mem_nil
  · split
    · exact forall_mem_escape fun c _ b hb =>
        ⟨(escapeByte_query c b hb).1, (escapeByte_query c b hb).2.1⟩
    · split <;> exact forall_mem_escape fun c _ b hb => escapeByte_path c b hb

theorem validEncoded_query (s : Bytes) : validEncoded (escape s .queryComponent) .path = true := by
  refine List.all_eq_true.mpr (forall_mem_escape fun c _ b hb => ?_)
  exact List.all_eq_true.mp (escapeByte_query c b hb).2.2.2 b (List.mem_singleton_self b)

/-- The escaped form is taken for a virtual host without spaces. -/
theorem isRawForm_query {s : Bytes} (hne : s ≠ []) :
    isRawForm (escape s .queryComponent) s .path = true ↔ ' '.toUInt8 ∉ s := by
  rw [isRawForm, decide_eq_true_iff]
  constructor
  · rintro ⟨-, -, hread⟩ hmem
    -- the first space is written as a plus sign, which is one in a path
    obtain ⟨x, y, rfl, hx⟩ := List.eq_append_cons_of_mem hmem
    rw [escape_append, unescape_escape fun c hc =>
      readsBack_query_path c (ne_of_mem_of_not_mem hc hx)] at hread
    obtain ⟨t, ht, heq⟩ := map_eq_ok.mp hread
    change unescape ('+'.toUInt8 :: escape y .queryComponent) .path = .ok t at ht
    rw [unescape_byte (by decide), if_pos (by decide)] at ht
    obtain ⟨t', -, rfl⟩ := map_eq_ok.mp ht
    exact absurd (List.cons.inj (List.append_cancel_left heq)).1 (by decide)
  · intro hspace
    refine ⟨fun hnil => hne (escape_eq_nil.mp hnil), validEncoded_query s, ?_⟩
    exact unescape_escape_self fun c hc =>
      readsBack_query_path c (ne_of_mem_of_not_mem hc hspace)

theorem escapedPath_authority (hvhost : uri.vhost ≠ []) :
    uri.authority.escapedPath =
      if uri.vhost = defaultURI.vhost then ascii "/"
      else if ' '.toUInt8 ∉ uri.vhost then escape uri.vhost .queryComponent
      else escape uri.vhost .path := by
  rw [URL.escapedPath]
  by_cases hdefault : uri.vhost = defaultURI.vhost
  · simp only [authority, if_pos hdefault, if_neg (not_not.mpr hdefault)]
    decide
  · simp only [authority, if_neg hdefault, if_pos (Ne.intro hdefault), isRawForm_query hvhost]
    by_cases hspace : ' '.toUInt8 ∈ uri.vhost
    · have hstar : uri.vhost ≠ ['*'.toUInt8] := by
        intro hstar
        rw [hstar, List.mem_singleton] at hspace
        exact absurd hspace (by decide)
      rw [if_neg (not_not.mpr hspace), if_neg hstar, if_neg (not_not.mpr hspace)]
    · rw [if_pos hspace, if_pos hspace]

/-- A slash is added to a path without one. -/
theorem pathString_eq {u : URL} {front : Bytes} (hfront : front ≠ []) (hhost : u.host ≠ [])
    (hpath : u.escapedPath ≠ []) :
    u.pathString front =
      if u.escapedPath.head? = some '/'.toUInt8 then u.escapedPath
      else '/'.toUInt8 :: u.escapedPath := by
  rw [URL.pathString]
  by_cases hhead : u.escapedPath.head? = some '/'.toUInt8
  · simp [hhead, hfront]
  · simp [hhead, hfront, hhost, hpath]

theorem head?_escape_query (s : Bytes) : (escape s .queryComponent).head? ≠ some '/'.toUInt8 := by
  intro hhead
  obtain ⟨c, -, hc⟩ := List.mem_flatMap.mp (List.mem_of_mem_head? hhead)
  exact (escapeByte_query c _ hc).2.2.1 rfl

theorem head?_escape_path {s : Bytes} (h : s.head? ≠ some '/'.toUInt8) :
    (escape s .path).head? ≠ some '/'.toUInt8 := by
  have hbyte : ∀ c, c ≠ '/'.toUInt8 → (escapeByte .path c).head? ≠ some '/'.toUInt8 :=
    forall_byte (by decide +kernel)
  have hne : ∀ c, escapeByte .path c ≠ [] := forall_byte (by decide +kernel)
  cases s with
  | nil => exact h
  | cons c s =>
      rw [escape_cons, List.head?_append_of_ne_nil _ (hne c)]
      exact hbyte c fun heq => h (congrArg some heq)

theorem authorityHost_ne_nil (h : uri.host ≠ []) : uri.authorityHost ≠ [] := by
  rw [authorityHost_eq, withPort]
  split
  · exact List.cons_ne_nil _ _
  · exact List.append_ne_nil_of_left_ne_nil h _

/-- The path is printed behind a slash. -/
theorem Regular.pathString (h : uri.Regular) {front : Bytes} (hfront : front ≠ []) :
    uri.authority.pathString front = '/'.toUInt8 :: uri.pathText := by
  have hescaped := escapedPath_authority h.vhost
  have hpath : uri.authority.escapedPath ≠ [] := by
    rw [hescaped]
    split
    · exact List.cons_ne_nil _ _
    · split <;> exact fun hnil => h.vhost (escape_eq_nil.mp hnil)
  rw [pathString_eq hfront (authorityHost_ne_nil h.nonempty) hpath, hescaped, pathText]
  by_cases hdefault : uri.vhost = defaultURI.vhost
  · rw [if_pos hdefault, if_pos hdefault]
    rfl
  · rw [if_neg hdefault, if_neg hdefault]
    by_cases hspace : ' '.toUInt8 ∉ uri.vhost
    · rw [if_pos hspace, if_pos hspace, if_neg (head?_escape_query _)]
    · rw [if_neg hspace, if_neg hspace]
      by_cases hhead : uri.vhost.head? = some '/'.toUInt8
      · obtain ⟨rest, hrest⟩ := List.head?_eq_some_iff.mp hhead
        rw [if_pos hhead, hrest]
        rfl
      · rw [if_neg hhead, if_neg (head?_escape_path hhead)]

/-! ## The query -/

/-- The TLS parameters. -/
def tlsFields (uri : URI) : Values :=
  [(ascii "certfile", uri.certFile), (ascii "keyfile", uri.keyFile),
    (ascii "cacertfile", uri.caCertFile), (ascii "server_name_indication", uri.serverName)]

/-- The ones that are printed. -/
def printedFields (uri : URI) : Values := uri.tlsFields.filter fun f => f.2 ≠ []

theorem printQuery_filter_cons (k v : Bytes) (fields : Values) :
    printQuery (((k, v) :: fields).filter fun f => f.2 ≠ []) =
      (if v ≠ [] then k ++ '='.toUInt8 :: v ++ ['&'.toUInt8] else []) ++
        printQuery (fields.filter fun f => f.2 ≠ []) := by
  by_cases hv : v = []
  · rw [List.filter_cons_of_neg (by simpa using hv), if_neg (not_not.mpr hv), List.nil_append]
  · rw [List.filter_cons_of_pos (by simpa using hv), if_pos hv]
    exact List.flatMap_cons

/-- The last parameter has no ampersand behind it. -/
theorem printQuery_printedFields (uri : URI) :
    printQuery uri.printedFields =
      uri.rawQuery ++ if uri.serverName ≠ [] then ['&'.toUInt8] else [] := by
  have hnil : printQuery (([] : Values).filter fun f => f.2 ≠ []) = [] := rfl
  have hcert : ascii "certfile=" = ascii "certfile" ++ ['='.toUInt8] := rfl
  have hkey : ascii "keyfile=" = ascii "keyfile" ++ ['='.toUInt8] := rfl
  have hcaCert : ascii "cacertfile=" = ascii "cacertfile" ++ ['='.toUInt8] := rfl
  have hampersand : ascii "&" = ['&'.toUInt8] := rfl
  have hlast : (if uri.serverName ≠ [] then
        ascii "server_name_indication" ++ '='.toUInt8 :: uri.serverName ++ ['&'.toUInt8]
      else []) =
      (if uri.serverName ≠ [] then ascii "server_name_indication=" ++ uri.serverName else []) ++
        if uri.serverName ≠ [] then ['&'.toUInt8] else [] := by
    split <;> rfl
  rw [printedFields, tlsFields, printQuery_filter_cons, printQuery_filter_cons,
    printQuery_filter_cons, printQuery_filter_cons, hnil, hlast, rawQuery, List.append_nil,
    hcert, hkey, hcaCert, hampersand]
  simp only [List.append_assoc, List.cons_append, List.nil_append]

theorem parseQuery_rawQuery (uri : URI) :
    parseQuery (cut '#'.toUInt8 uri.rawQuery).1 =
      parseQuery (cut '#'.toUInt8 (printQuery uri.printedFields)).1 := by
  rw [printQuery_printedFields]
  split
  · exact (parseQuery_ampersand uri.rawQuery).symm
  · rw [List.append_nil]

/-- The names of the parameters. -/
def tlsNames : List Bytes :=
  [ascii "certfile", ascii "keyfile", ascii "cacertfile", ascii "server_name_indication"]

theorem name_mem_tlsNames {f : Bytes × Bytes} (h : f ∈ uri.tlsFields) : f.1 ∈ tlsNames :=
  List.mem_map_of_mem h

theorem isName_of_mem : ∀ k ∈ tlsNames, isName k = true := by decide +kernel

theorem nodup_tlsFields (uri : URI) : (uri.tlsFields.map Prod.fst).Nodup := by
  change tlsNames.Nodup
  decide +kernel

theorem nodup_printedFields (uri : URI) : (uri.printedFields.map Prod.fst).Nodup :=
  (nodup_tlsFields uri).sublist (List.filter_sublist.map _)

theorem mem_printedFields {f : Bytes × Bytes} :
    f ∈ uri.printedFields ↔ f ∈ uri.tlsFields ∧ f.2 ≠ [] := by
  rw [printedFields, List.mem_filter, decide_eq_true_iff]

/-- Parameters that are left out have no bytes. -/
theorem forall_printedFields {q : UInt8 → Prop} :
    (∀ f ∈ uri.printedFields, ∀ c ∈ f.2, q c) ↔ ∀ f ∈ uri.tlsFields, ∀ c ∈ f.2, q c := by
  constructor
  · intro hall f hf c hc
    exact hall f (mem_printedFields.mpr ⟨hf, List.ne_nil_of_mem hc⟩) c hc
  · intro hall f hf
    exact hall f (mem_printedFields.mp hf).1

theorem isName_of_mem_printedFields {f : Bytes × Bytes} (h : f ∈ uri.printedFields) :
    isName f.1 = true :=
  isName_of_mem f.1 (name_mem_tlsNames (mem_printedFields.mp h).1)

/-- What holds of the bytes between the values holds of the query when it holds of the
values. -/
theorem forall_mem_rawQuery {q : UInt8 → Prop} (hequals : q '='.toUInt8)
    (hampersand : q '&'.toUInt8) (hnames : ∀ k ∈ tlsNames, ∀ c ∈ k, q c) :
    (∀ c ∈ uri.rawQuery, q c) ↔ ∀ f ∈ uri.tlsFields, ∀ c ∈ f.2, q c := by
  have hprint : (∀ c ∈ printQuery uri.printedFields, q c) ↔
      ∀ f ∈ uri.tlsFields, ∀ c ∈ f.2, q c := by
    rw [← forall_printedFields]
    exact forall_mem_printQuery hequals hampersand fun f hf =>
      hnames f.1 (name_mem_tlsNames (mem_printedFields.mp hf).1)
  rw [← hprint, printQuery_printedFields]
  split
  · rw [List.forall_mem_append, List.forall_mem_singleton, and_iff_left hampersand]
  · rw [List.append_nil]

/-! ## The whole text -/

theorem Regular.string_eq (h : uri.Regular) :
    uri.string = frontText uri.scheme (userText uri.user ++ escape uri.authorityHost .host)
      uri.pathText ++ queryText uri.rawQuery := by
  have hscheme : uri.scheme ≠ [] := by
    obtain ⟨port, hport⟩ := h.scheme
    rcases eq_of_schemePort hport with ⟨heq, -⟩ | ⟨heq, -⟩ <;> rw [heq] <;>
      exact List.cons_ne_nil _ _
  have hhost := authorityHost_ne_nil h.nonempty
  have hauthority : uri.authority.authorityString =
      '/'.toUInt8 :: '/'.toUInt8 :: (userText uri.user ++ escape uri.authorityHost .host) := by
    rw [URL.authorityString, if_pos (.inl hscheme), if_neg (fun h => hhost h.2.1),
      if_pos (.inl hhost)]
    rfl
  have hquery : (if uri.authority.forceQuery ∨ uri.authority.rawQuery ≠ [] then
      '?'.toUInt8 :: uri.authority.rawQuery else []) = queryText uri.rawQuery := by
    rw [queryText]
    by_cases hnil : uri.rawQuery = [] <;> simp [authority, hnil]
  have hempty : uri.authority.fragment = [] ∧ uri.authority.rootless = [] := ⟨rfl, rfl⟩
  have hsame : uri.authority.scheme = uri.scheme := rfl
  rw [URI.string, URL.string]
  simp only [hempty.1, hempty.2, hsame, hquery, if_pos hscheme, ne_eq, not_true_eq_false,
    if_false, List.append_nil]
  rw [hauthority, h.pathString (List.append_ne_nil_of_right_ne_nil _ (List.cons_ne_nil _ _)),
    frontText]
  simp only [List.append_assoc, List.cons_append, List.nil_append]

end URI

end Amqp091

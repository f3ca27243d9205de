import Amqp091.Shared.Url.Escape

/-! # Parsing a printed URL

A text made of a scheme, an authority, a path and a query is taken apart again where it
was put together. -/

namespace Url

open ByteCodec Fallible

variable {scheme auth path query rest s t : Bytes} {u : URL}

/-! ## Cutting the parts off -/

theorem schemeLoop_append {url front : Bytes} {first : Bool} (h : ∀ c ∈ s, isAlpha c = true)
    (hfirst : first = true → s ≠ []) (rest : Bytes) :
    schemeLoop url first front (s ++ ':'.toUInt8 :: rest) = .ok (front ++ s, rest) := by
  induction s generalizing first front with
  | nil =>
      have hnot : ¬ first = true := fun htrue => hfirst htrue rfl
      rw [List.nil_append, List.append_nil, schemeLoop, if_neg (by decide), if_neg (by decide),
        if_pos rfl, if_neg hnot]
  | cons c s ih =>
      obtain ⟨hc, hs⟩ := List.forall_mem_cons.mp h
      rw [List.cons_append, schemeLoop, if_pos hc,
        ih hs (fun hfalse => absurd hfalse Bool.false_ne_true), List.append_assoc]
      rfl

theorem cutQuery_of_not_mem (h : '?'.toUInt8 ∉ s) : cutQuery s = (s, false, []) := by
  rw [cutQuery, if_neg (by rw [List.count_eq_zero_of_not_mem h]; omega), cut_of_not_mem h]
  rfl

theorem cutQuery_append (h : '?'.toUInt8 ∉ s) (query : Bytes) :
    cutQuery (s ++ '?'.toUInt8 :: query) = (s, decide (query = []), query) := by
  rw [cutQuery, List.count_append, List.count_eq_zero_of_not_mem h, List.count_cons_self]
  cases query with
  | nil =>
      rw [if_pos ⟨by simp, rfl⟩]
      simp
  | cons c query =>
      have hnot : ¬ ((s ++ '?'.toUInt8 :: c :: query).getLast? = some '?'.toUInt8 ∧
          0 + ((c :: query).count '?'.toUInt8 + 1) = 1) := by
        rintro ⟨hlast, hcount⟩
        have hmem : '?'.toUInt8 ∈ c :: query := by
          have hne : c :: query ≠ [] := List.cons_ne_nil _ _
          rw [List.getLast?_append_of_ne_nil _ (List.cons_ne_nil _ _),
            List.getLast?_cons_cons] at hlast
          exact List.mem_of_getLast? hlast
        have hpos := List.count_pos_iff.mpr hmem
        omega
      rw [if_neg hnot, cut_append h]
      rfl

/-- The authority ends where the path begins. -/
theorem parseRest_authority (hscheme : u.scheme ≠ []) (hauth : '/'.toUInt8 ∉ auth)
    (path : Bytes) :
    parseRest u ('/'.toUInt8 :: '/'.toUInt8 :: (auth ++ '/'.toUInt8 :: path)) =
      parseAuthority auth >>= fun parsed =>
        setPath { u with user := parsed.1, host := parsed.2 } ('/'.toUInt8 :: path) := by
  rw [parseRest, if_pos ⟨rfl, .inl hscheme⟩]
  simp only [List.drop_succ_cons, List.drop_zero, cut_append hauth]
  rfl

/-! ## A whole text -/

/-- A byte that neither ends a part nor is refused. -/
def isPlain (c : UInt8) : Bool := c ≠ '#'.toUInt8 && c ≠ '?'.toUInt8 && !isControl c

/-- The part of an URL in front of the query. -/
structure Front (scheme auth path : Bytes) : Prop where
  nonempty : scheme ≠ []
  scheme : ∀ c ∈ scheme, isAlpha c = true ∧ toLower c = c
  auth : ∀ c ∈ auth, isPlain c = true ∧ c ≠ '/'.toUInt8
  path : ∀ c ∈ path, isPlain c = true

/-- The text of the parts. -/
def frontText (scheme auth path : Bytes) : Bytes :=
  scheme ++ ':'.toUInt8 :: '/'.toUInt8 :: '/'.toUInt8 :: (auth ++ '/'.toUInt8 :: path)

theorem isPlain_of_isAlpha : ∀ c, isAlpha c = true → isPlain c = true :=
  forall_byte (by decide +kernel)

theorem Front.isPlain_of_mem (h : Front scheme auth path) :
    ∀ c ∈ frontText scheme auth path, isPlain c = true := by
  have hslash : isPlain '/'.toUInt8 = true := by decide
  have hcolon : isPlain ':'.toUInt8 = true := by decide
  intro c hc
  simp only [frontText, List.mem_append, List.mem_cons] at hc
  rcases hc with hc | rfl | rfl | rfl | hc | rfl | hc
  exacts [isPlain_of_isAlpha c (h.scheme c hc).1, hcolon, hslash, hslash, (h.auth c hc).1,
    hslash, h.path c hc]

theorem Front.not_mem (h : Front scheme auth path) {c : UInt8} (hc : isPlain c = false) :
    c ∉ frontText scheme auth path := by
  intro hmem
  rw [h.isPlain_of_mem c hmem] at hc
  cases hc

/-- What is known of a URL from its text in front of the query and the query. -/
theorem Front.parseNoFragment (h : Front scheme auth path) {tail query : Bytes} {force : Bool}
    (htail : ∀ s, '?'.toUInt8 ∉ s → cutQuery (s ++ tail) = (s, force, query)) :
    parseNoFragment (frontText scheme auth path ++ tail) =
      if tail.any isControl then .error .controlCharacter
      else parseAuthority auth >>= fun parsed =>
        setPath { scheme := scheme, user := parsed.1, host := parsed.2, forceQuery := force,
                  rawQuery := query } ('/'.toUInt8 :: path) := by
  have hcontrol : (frontText scheme auth path).any isControl = false := by
    rw [List.any_eq_false]
    intro c hc
    have hplain := h.isPlain_of_mem c hc
    simp only [isPlain, Bool.and_eq_true, Bool.not_eq_true'] at hplain
    rw [hplain.2]
    exact Bool.false_ne_true
  have hstar : frontText scheme auth path ++ tail ≠ ['*'.toUInt8] := by
    intro heq
    have hlength := congrArg List.length heq
    rw [frontText, List.length_append, List.length_append, List.length_cons, List.length_cons,
      List.length_singleton] at hlength
    omega
  have hrest : '?'.toUInt8 ∉
      '/'.toUInt8 :: '/'.toUInt8 :: (auth ++ '/'.toUInt8 :: path) := fun hmem =>
    h.not_mem (by decide) (List.mem_append_right _ (List.mem_cons_of_mem _ hmem))
  have hlower : scheme.map toLower = scheme := by
    conv_rhs => rw [← List.map_id scheme]
    exact List.map_congr_left fun c hc => (h.scheme c hc).2
  have hscheme : getScheme (frontText scheme auth path ++ tail) =
      .ok (scheme, '/'.toUInt8 :: '/'.toUInt8 :: (auth ++ '/'.toUInt8 :: path) ++ tail) := by
    have htext : frontText scheme auth path ++ tail =
        scheme ++ ':'.toUInt8 :: ('/'.toUInt8 :: '/'.toUInt8 :: (auth ++ '/'.toUInt8 :: path) ++
          tail) := by
      rw [frontText, List.append_assoc]
      rfl
    rw [getScheme]
    conv_lhs => rw [htext]
    exact schemeLoop_append (fun c hc => (h.scheme c hc).1) (fun _ => h.nonempty) _
  rw [Url.parseNoFragment, List.any_append, hcontrol, Bool.false_or]
  split
  · rfl
  · rw [hscheme, ok_bind]
    simp only [htail _ hrest, hlower]
    rw [parseHierarchy, if_neg (fun hhead => hhead rfl)]
    exact parseRest_authority h.nonempty (fun hmem => (h.auth _ hmem).2 rfl) path

/-- The parts of a URL that a scheme looks at. -/
structure URL.HasParts (u : URL) (scheme : Bytes) (user : Option Userinfo)
    (host path rawQuery : Bytes) : Prop where
  scheme : u.scheme = scheme
  user : u.user = user
  host : u.host = host
  path : u.path = path
  rawQuery : u.rawQuery = rawQuery

theorem URL.HasParts.withFragment {user : Option Userinfo} {host rawQuery f : Bytes} {u' : URL}
    (h : u.HasParts scheme user host path rawQuery) (hfragment : withFragment u f = .ok u') :
    u'.HasParts scheme user host path rawQuery := by
  rw [Url.withFragment] at hfragment
  split at hfragment
  · cases hfragment
    exact h
  · obtain ⟨fragment, -, hu⟩ := bind_eq_ok.mp hfragment
    cases hu
    exact ⟨h.scheme, h.user, h.host, h.path, h.rawQuery⟩

/-- The text behind the front, for a query that may be empty. -/
def queryText (query : Bytes) : Bytes := if query = [] then [] else '?'.toUInt8 :: query

theorem cut_queryText (query : Bytes) :
    cut '#'.toUInt8 (queryText query) =
      (if query = [] then [] else '?'.toUInt8 :: (cut '#'.toUInt8 query).1,
        (cut '#'.toUInt8 query).2) := by
  rw [queryText]
  split
  · rename_i hquery
    rw [hquery]
    rfl
  · rw [cut, if_neg (by decide)]

/-- The front and the query up to a number sign. -/
theorem Front.parse_eq (h : Front scheme auth path) (query : Bytes) :
    ∃ force, parse (frontText scheme auth path ++ queryText query) =
      if (cut '#'.toUInt8 query).1.any isControl then .error .controlCharacter
      else (parseAuthority auth >>= fun parsed =>
        setPath { scheme := scheme, user := parsed.1, host := parsed.2, forceQuery := force,
                  rawQuery := (cut '#'.toUInt8 query).1 } ('/'.toUInt8 :: path)) >>= fun u =>
          withFragment u ((cut '#'.toUInt8 query).2.getD []) := by
  rw [parse, cut_append_left (h.not_mem (by decide)), cut_queryText]
  by_cases hquery : query = []
  · subst hquery
    refine ⟨false, ?_⟩
    have htail : ∀ s, '?'.toUInt8 ∉ s → cutQuery (s ++ []) = (s, false, []) := by
      intro s hs
      rw [List.append_nil, cutQuery_of_not_mem hs]
    rw [if_pos rfl, h.parseNoFragment htail]
    rfl
  · refine ⟨decide ((cut '#'.toUInt8 query).1 = []), ?_⟩
    rw [if_neg hquery, h.parseNoFragment fun s hs => cutQuery_append hs _, List.any_cons,
      show isControl '?'.toUInt8 = false from by decide, Bool.false_or]
    split <;> rfl

theorem Front.parts_of_parse (h : Front scheme auth path)
    (hparse : parse (frontText scheme auth path ++ queryText query) = .ok u) :
    (cut '#'.toUInt8 query).1.any isControl = false ∧
      ∃ parsed p, parseAuthority auth = .ok parsed ∧
        unescape ('/'.toUInt8 :: path) .path = .ok p ∧
        u.HasParts scheme parsed.1 parsed.2 p (cut '#'.toUInt8 query).1 := by
  obtain ⟨force, heq⟩ := h.parse_eq query
  rw [heq] at hparse
  split at hparse
  · cases hparse
  · rename_i hcontrol
    refine ⟨Bool.eq_false_iff.mpr hcontrol, ?_⟩
    obtain ⟨u', hu', hfragment⟩ := bind_eq_ok.mp hparse
    obtain ⟨parsed, hparsed, hset⟩ := bind_eq_ok.mp hu'
    obtain ⟨p, hp, hset⟩ := bind_eq_ok.mp hset
    cases hset
    refine ⟨parsed, p, hparsed, hp, ?_⟩
    exact URL.HasParts.withFragment ⟨rfl, rfl, rfl, rfl, rfl⟩ hfragment

theorem Front.exists_parse (h : Front scheme auth path) {user : Option Userinfo}
    {host p : Bytes} (hauth : parseAuthority auth = .ok (user, host))
    (hpath : unescape ('/'.toUInt8 :: path) .path = .ok p) (hhash : '#'.toUInt8 ∉ query)
    (hcontrol : ∀ c ∈ query, isControl c = false) :
    ∃ u, parse (frontText scheme auth path ++ queryText query) = .ok u ∧
      u.HasParts scheme user host p query := by
  obtain ⟨force, heq⟩ := h.parse_eq query
  have hany : ¬ query.any isControl = true := by
    rw [List.any_eq_true]
    rintro ⟨c, hc, htrue⟩
    rw [hcontrol c hc] at htrue
    cases htrue
  rw [cut_of_not_mem hhash, if_neg hany, hauth, ok_bind, setPath, hpath] at heq
  exact ⟨_, heq, rfl, rfl, rfl, rfl, rfl⟩

/-! ## The host of a parsed text -/

theorem host_of_setPath {u' : URL} (h : setPath u s = .ok u') : u'.host = u.host := by
  obtain ⟨path, -, h⟩ := bind_eq_ok.mp h
  cases h
  rfl

theorem parseHost_of_parseAuthority {parsed : Option Userinfo × Bytes}
    (h : parseAuthority s = .ok parsed) : ∃ text, parseHost text = .ok parsed.2 := by
  rw [parseAuthority] at h
  split at h
  · obtain ⟨host, hhost, h⟩ := bind_eq_ok.mp h
    cases h
    exact ⟨s, hhost⟩
  · obtain ⟨host, hhost, h⟩ := bind_eq_ok.mp h
    obtain ⟨user, -, h⟩ := bind_eq_ok.mp h
    cases h
    exact ⟨_, hhost⟩

theorem host_of_parseRest {u' : URL} (hhost : u.host = []) (h : parseRest u s = .ok u') :
    u'.host = [] ∨ ∃ text, parseHost text = .ok u'.host := by
  rw [parseRest] at h
  split at h
  · obtain ⟨parsed, hparsed, h⟩ := bind_eq_ok.mp h
    obtain ⟨text, htext⟩ := parseHost_of_parseAuthority hparsed
    have hkeep : u'.host = parsed.2 := host_of_setPath h
    exact .inr ⟨text, hkeep ▸ htext⟩
  · exact .inl ((host_of_setPath h).trans hhost)

theorem host_of_parseHierarchy {u' : URL} (hhost : u.host = [])
    (h : parseHierarchy u s = .ok u') :
    u'.host = [] ∨ ∃ text, parseHost text = .ok u'.host := by
  rw [parseHierarchy] at h
  split at h
  · split at h
    · cases h
      exact .inl hhost
    · split at h
      · cases h
      · exact host_of_parseRest hhost h
  · exact host_of_parseRest hhost h

/-- A host is empty or was read as one. -/
theorem host_of_parse (h : parse s = .ok u) :
    u.host = [] ∨ ∃ text, parseHost text = .ok u.host := by
  obtain ⟨u', hu', hfragment⟩ := bind_eq_ok.mp h
  have hkeep : u.host = u'.host :=
    (URL.HasParts.withFragment ⟨rfl, rfl, rfl, rfl, rfl⟩ hfragment).host
  rw [hkeep]
  rw [parseNoFragment] at hu'
  split at hu'
  · cases hu'
  · split at hu'
    · cases hu'
      exact .inl rfl
    · obtain ⟨⟨scheme, rest⟩, -, hu'⟩ := bind_eq_ok.mp hu'
      exact host_of_parseHierarchy rfl hu'

end Url

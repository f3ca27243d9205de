import Amqp091.Shared.Url.Escape

/-! # Hosts and ports

Which hosts are read back from the authority they are printed in. A host that has a colon
gets brackets, where only an IPv6 address may stand, and what may be written in its zone
depends on its first percent sign. -/

namespace Url

open ByteCodec Fallible
open Decimal (isDigit)

variable {host port s t : Bytes} {c : UInt8}

/-! ## Hosts that are read -/

/-- Bytes of hosts and zones, with spaces in a zone only. A host without a colon has
neither a zone nor brackets. -/
structure HostText (host : Bytes) : Prop where
  bytes : ∀ c ∈ host, isHostByte c = true ∨ c = '%'.toUInt8 ∨ c = ' '.toUInt8
  spaces : ∀ x y, host = x ++ ' '.toUInt8 :: y → '%'.toUInt8 ∈ x
  plain : ':'.toUInt8 ∉ host → ' '.toUInt8 ∉ host ∧ '['.toUInt8 ∉ host

/-- A host that was not read in brackets. -/
structure PlainHost (host : Bytes) : Prop where
  bytes : ∀ c ∈ host, isHostByte c = true ∨ c = '%'.toUInt8
  bracket : '['.toUInt8 ∉ host

theorem not_mem_space_of_bytes (h : ∀ c ∈ host, isHostByte c = true ∨ c = '%'.toUInt8) :
    ' '.toUInt8 ∉ host := by
  intro hmem
  rcases h _ hmem with hbyte | hpercent
  · exact absurd hbyte (by decide)
  · exact absurd hpercent (by decide)

theorem PlainHost.hostText (h : PlainHost host) : HostText host := by
  have hspace := not_mem_space_of_bytes h.bytes
  refine ⟨fun c hc => (h.bytes c hc).imp_right .inl, ?_, fun _ => ⟨hspace, h.bracket⟩⟩
  rintro x y rfl
  exact absurd (List.mem_append_right x List.mem_cons_self) hspace

theorem PlainHost.of_unescape (hbracket : '['.toUInt8 ∉ s) (h : unescape s .host = .ok t) :
    PlainHost t := by
  have hreads := Reads.of_unescape h
  exact ⟨hreads.host, hreads.not_mem_host (by decide) (by decide) hbracket⟩

theorem PlainHost.of_append (h : PlainHost (s ++ t)) : PlainHost s :=
  ⟨fun c hc => h.bytes c (List.mem_append_left t hc),
    fun hmem => h.bracket (List.mem_append_left t hmem)⟩

theorem cutZone_eq_some {x y : Bytes} (h : cutZone s = some (x, y)) :
    ∃ z, y = '%'.toUInt8 :: '2'.toUInt8 :: '5'.toUInt8 :: z := by
  induction s generalizing x with
  | nil => cases h
  | cons b s ih =>
      rw [cutZone] at h
      split at h
      · rename_i hpre
        cases h
        obtain ⟨z, hz⟩ := List.isPrefixOf_iff_prefix.mp hpre
        exact ⟨z, hz.symm⟩
      · obtain ⟨⟨x', y'⟩, hcut, heq⟩ := Option.map_eq_some_iff.mp h
        cases heq
        exact ih hcut

/-- What a zone begins with. -/
theorem percent_of_zone {z : Bytes}
    (h : unescape ('%'.toUInt8 :: '2'.toUInt8 :: '5'.toUInt8 :: z) .zone = .ok t) :
    ∃ t', t = '%'.toUInt8 :: t' := by
  rw [unescape_percent, if_pos (by decide)] at h
  obtain ⟨t', -, rfl⟩ := map_eq_ok.mp h
  exact ⟨t', rfl⟩

theorem HostText.of_zone {front zone : Bytes} (h1 : unescape s .host = .ok front)
    (h2 : unescape t .zone = .ok ('%'.toUInt8 :: zone))
    (hcolon : ':'.toUInt8 ∈ front ++ '%'.toUInt8 :: zone) :
    HostText (front ++ '%'.toUInt8 :: zone) := by
  have hfront := (Reads.of_unescape h1).host
  refine ⟨fun c hc => ?_, fun x y heq => ?_, fun hnot => absurd hcolon hnot⟩
  · rcases List.mem_append.mp hc with hc | hc
    · exact (hfront c hc).imp_right .inl
    · exact (Reads.of_unescape h2).zone c hc
  · -- the space stands behind the percent sign, since there is none in front of it
    rcases List.append_eq_append_iff.mp heq with ⟨w, rfl, htail⟩ | ⟨w, rfl, htail⟩
    · cases w with
      | nil => exact absurd (List.cons.inj htail).1 (by decide)
      | cons b w =>
          obtain ⟨rfl, -⟩ := List.cons.inj htail
          exact List.mem_append_right _ List.mem_cons_self
    · cases w with
      | nil => exact absurd (List.cons.inj htail).1 (by decide)
      | cons b w =>
          obtain ⟨rfl, -⟩ := List.cons.inj htail
          exact absurd (List.mem_append_right x List.mem_cons_self)
            (not_mem_space_of_bytes hfront)

/-- The text of an address in brackets. -/
theorem HostText.of_literal (h : unescapeLiteral s = .ok host) (hcolon : ':'.toUInt8 ∈ host) :
    HostText host := by
  rw [unescapeLiteral] at h
  split at h
  · rename_i front zone hzone
    obtain ⟨z, rfl⟩ := cutZone_eq_some hzone
    obtain ⟨host1, h1, h⟩ := bind_eq_ok.mp h
    obtain ⟨host2, h2, h⟩ := bind_eq_ok.mp h
    cases h
    obtain ⟨zone, rfl⟩ := percent_of_zone h2
    exact .of_zone h1 h2 hcolon
  · have hbytes := (Reads.of_unescape h).host
    refine ⟨fun c hc => (hbytes c hc).imp_right .inl, ?_, fun hnot => absurd hcolon hnot⟩
    rintro x y rfl
    exact absurd (List.mem_append_right x List.mem_cons_self) (not_mem_space_of_bytes hbytes)

/-! ## Splitting a port off -/

/-- The port and the colon before it, as they stand behind a host. -/
theorem validOptionalPort_cons : validOptionalPort (':'.toUInt8 :: port) = port.all isDigit := by
  simp [validOptionalPort]

theorem not_mem_of_isDigit (h : port.all isDigit = true) (hc : isDigit c = false) : c ∉ port := by
  intro hmem
  have hdigit := List.all_eq_true.mp h c hmem
  rw [hc] at hdigit
  cases hdigit

/-- The text of a port behind a host: nothing, or a colon and digits. -/
inductive PortText : Bytes → Bytes → Prop
  | absent : PortText [] []
  | digits {port : Bytes} (h : port.all isDigit = true) : PortText (':'.toUInt8 :: port) port

theorem PortText.valid (h : PortText t port) : validOptionalPort t = true := by
  cases h with
  | absent => rfl
  | digits h => rwa [validOptionalPort_cons]

theorem PortText.not_mem (h : PortText t port) (hcolon : c ≠ ':'.toUInt8)
    (hc : isDigit c = false) : c ∉ t := by
  cases h with
  | absent => exact List.not_mem_nil
  | digits h => exact List.not_mem_cons_of_ne_of_not_mem hcolon (not_mem_of_isDigit h hc)

theorem PortText.of_valid (h : validOptionalPort t = true) : ∃ port, PortText t port := by
  cases t with
  | nil => exact ⟨[], .absent⟩
  | cons c port =>
      rw [validOptionalPort, Bool.and_eq_true, decide_eq_true_iff] at h
      obtain ⟨rfl, hport⟩ := h
      exact ⟨port, .digits hport⟩

theorem cutPort_append (host : Bytes) (h : port.all isDigit = true) :
    cutPort (host ++ ':'.toUInt8 :: port) = (host, port) := by
  rw [cutPort, cutLast_append host (not_mem_of_isDigit h (by decide))]
  exact if_pos (validOptionalPort_cons.trans h)

theorem cutPort_of_not_mem (h : ':'.toUInt8 ∉ host) : cutPort host = (host, []) := by
  rw [cutPort, cutLast_of_not_mem h]

/-- A text that does not end in a colon and digits has no port. -/
theorem cutPort_of_last (h : host.getLast? = some c) (hcolon : c ≠ ':'.toUInt8)
    (hc : isDigit c = false) : cutPort host = (host, []) := by
  rw [cutPort]
  rcases cutLast_cases ':'.toUInt8 host with ⟨-, hcut⟩ | ⟨x, y, -, rfl, hcut⟩
  · rw [hcut]
  · rw [hcut]
    refine if_neg fun hvalid => ?_
    rw [validOptionalPort_cons] at hvalid
    rw [List.getLast?_append_of_ne_nil _ (List.cons_ne_nil _ _)] at h
    rcases List.mem_cons.mp (List.mem_of_getLast? h) with heq | hmem
    · exact hcolon heq
    · exact not_mem_of_isDigit hvalid hc hmem

theorem cutPort_cases (s : Bytes) :
    (∃ host port, port.all isDigit = true ∧ s = host ++ ':'.toUInt8 :: port ∧
      cutPort s = (host, port)) ∨ cutPort s = (s, []) := by
  rcases cutLast_cases ':'.toUInt8 s with ⟨-, hcut⟩ | ⟨x, y, -, rfl, hcut⟩
  · right
    rw [cutPort, hcut]
  · by_cases hvalid : y.all isDigit = true
    · exact .inl ⟨x, y, hvalid, rfl, cutPort_append x hvalid⟩
    · right
      rw [cutPort, hcut]
      exact if_neg (by rwa [validOptionalPort_cons])

theorem isDigit_of_splitHostPort (s : Bytes) : (splitHostPort s).2.all isDigit = true := by
  rw [splitHostPort]
  rcases cutPort_cases s with ⟨host, port, hport, -, hcut⟩ | hcut
  · rw [hcut]
    exact hport
  · rw [hcut]
    rfl

/-- Without brackets the port starts at the only colon. -/
theorem splitHostPort_plain (hcolon : ':'.toUInt8 ∉ host) (ht : PortText t port) :
    splitHostPort (host ++ t) = (unbracket host, port) := by
  rw [splitHostPort]
  cases ht with
  | absent => rw [List.append_nil, cutPort_of_not_mem hcolon]
  | digits h => rw [cutPort_append host h]

theorem getLast?_bracketed (host : Bytes) :
    ('['.toUInt8 :: (host ++ [']'.toUInt8])).getLast? = some ']'.toUInt8 := by
  rw [← List.cons_append, List.getLast?_concat]

theorem unbracket_bracketed (host : Bytes) :
    unbracket ('['.toUInt8 :: (host ++ [']'.toUInt8])) = host := by
  rw [unbracket, if_pos ⟨rfl, getLast?_bracketed host⟩, List.tail_cons, List.dropLast_concat]

/-- In brackets the host may have colons. -/
theorem splitHostPort_bracketed (host : Bytes) (ht : PortText t port) :
    splitHostPort ('['.toUInt8 :: (host ++ ']'.toUInt8 :: t)) = (host, port) := by
  have hsplit : '['.toUInt8 :: (host ++ ']'.toUInt8 :: t) =
      '['.toUInt8 :: (host ++ [']'.toUInt8]) ++ t := by simp
  rw [hsplit, splitHostPort]
  cases ht with
  | absent =>
      rw [List.append_nil, cutPort_of_last (getLast?_bracketed host) (by decide) (by decide),
        unbracket_bracketed]
  | digits h => rw [cutPort_append _ h, unbracket_bracketed]

theorem PlainHost.unbracket (h : PlainHost host) : unbracket host = host := by
  refine if_neg fun hbrackets => h.bracket ?_
  exact List.mem_of_mem_head? hbrackets.1

/-- A plain host without its port. -/
theorem PlainHost.hostname (h : PlainHost s) : PlainHost (splitHostPort s).1 := by
  rw [splitHostPort]
  rcases cutPort_cases s with ⟨host, port, -, rfl, hcut⟩ | hcut
  · rw [hcut, h.of_append.unbracket]
    exact h.of_append
  · rw [hcut, h.unbracket]
    exact h

/-! ## Reading a printed host -/

theorem PortText.plain (h : PortText t port) : ∀ c ∈ t, shouldEscape c .host = false := by
  have hcolon : shouldEscape ':'.toUInt8 .host = false := by decide
  have hdigit : ∀ c, isDigit c = true → shouldEscape c .host = false :=
    forall_byte (by decide +kernel)
  cases h with
  | absent => exact fun c hc => absurd hc List.not_mem_nil
  | digits h =>
      exact List.forall_mem_cons.mpr ⟨hcolon, fun c hc => hdigit c (List.all_eq_true.mp h c hc)⟩

theorem readsBack_of_plain (c : UInt8) (h : shouldEscape c .host = false) :
    readsBack .host .host c = true := by
  rw [readsBack_host, isHostByte, h]
  simp

theorem readsBack_zone_of_plain (c : UInt8) (h : shouldEscape c .host = false) :
    readsBack .host .zone c = true := by
  rw [readsBack_zone, h]
  rfl

/-- A byte is read in a host unless it is a space. -/
theorem HostText.readsBack_iff (h : HostText host) (hc : c ∈ host) :
    readsBack .host .host c = true ↔ c ≠ ' '.toUInt8 := by
  rw [readsBack_host, Bool.or_eq_true, decide_eq_true_eq]
  constructor
  · rintro (hbyte | hpercent) rfl
    · exact absurd hbyte (by decide)
    · exact absurd hpercent (by decide)
  · intro hspace
    exact (or_assoc.mpr (h.bytes c hc)).resolve_right hspace

/-- A byte is read in a zone if it is ASCII. -/
theorem HostText.readsBack_zone_iff (h : HostText host) (hc : c ∈ host) :
    readsBack .host .zone c = true ↔ c < 0x80 := by
  -- what needs no escape is ASCII
  have hascii : ∀ c, shouldEscape c .host = false → c < 0x80 := forall_byte (by decide +kernel)
  rw [readsBack_zone, Bool.or_eq_true, Bool.or_eq_true, decide_eq_true_eq, decide_eq_true_eq,
    Bool.not_eq_true']
  constructor
  · rintro ((hplain | rfl) | rfl)
    · exact hascii c hplain
    · decide
    · decide
  · intro hlt
    rcases h.bytes c hc with hbyte | hpercent | hspace
    · rw [isHostByte, Bool.or_eq_true, decide_eq_true_eq, Bool.not_eq_true'] at hbyte
      exact .inl (.inl (hbyte.resolve_left (UInt8.not_le.mpr hlt)))
    · exact .inl (.inr hpercent)
    · exact .inr hspace

theorem PortText.unescape (h : PortText t port) : unescape t .host = .ok t := by
  have hread := unescape_escape_self fun c hc => readsBack_of_plain c (h.plain c hc)
  rwa [escape_of_plain h.plain] at hread

/-! ### Literals -/

theorem parseHost_bracket (s : Bytes) :
    parseHost ('['.toUInt8 :: s) =
      if '['.toUInt8 ∈ s then .error .invalidLiteral else parseLiteral s := by
  rw [parseHost]
  rcases cutLast_cases '['.toUInt8 s with ⟨hs, -⟩ | ⟨x, y, hy, rfl, -⟩
  · have hcut : cutLast '['.toUInt8 ('['.toUInt8 :: s) = some ([], s) := cutLast_append [] hs
    rw [hcut, if_neg hs]
  · have hcut : cutLast '['.toUInt8 ('['.toUInt8 :: (x ++ '['.toUInt8 :: y)) =
        some ('['.toUInt8 :: x, y) := cutLast_append ('['.toUInt8 :: x) hy
    rw [hcut, if_pos (List.mem_append_right x List.mem_cons_self)]

theorem parseLiteral_eq_ok (ht : PortText t port) {out : Bytes} :
    parseLiteral (s ++ ']'.toUInt8 :: t) = .ok out ↔
      ∃ address, unescapeLiteral s = .ok address ∧ Netip.parseAddr address = some .v6 ∧
        out = '['.toUInt8 :: (address ++ ']'.toUInt8 :: t) := by
  rw [parseLiteral, cutLast_append s (ht.not_mem (by decide) (by decide))]
  simp only [ht.valid, Bool.not_true, Bool.false_eq_true, if_false]
  rw [ht.unescape, ok_bind]
  constructor
  · intro h
    obtain ⟨address, haddress, h⟩ := bind_eq_ok.mp h
    split at h
    · cases h
    · cases h
    · rename_i hv6
      exact ⟨address, haddress, hv6, (Except.ok.inj h).symm⟩
  · rintro ⟨address, haddress, hv6, rfl⟩
    rw [haddress, ok_bind, hv6]
    rfl

/-- A host that is read is plain or an address in brackets. -/
theorem hostText_of_parseHost (h : parseHost s = .ok host) : HostText (splitHostPort host).1 := by
  rcases cutLast_cases '['.toUInt8 s with ⟨hs, hcut⟩ | ⟨x, literal, -, -, hcut⟩
  · have hplain : unescape s .host = .ok host := by
      simp only [parseHost, hcut] at h
      split at h
      · split at h
        · cases h
        · exact h
      · exact h
    exact (PlainHost.of_unescape hs hplain).hostname.hostText
  · cases x with
    | cons b x =>
        rw [parseHost, hcut] at h
        cases h
    | nil =>
        simp only [parseHost, hcut] at h
        rcases cutLast_cases ']'.toUInt8 literal with ⟨-, hnone⟩ | ⟨hostname, t, -, rfl, hcut⟩
        · rw [parseLiteral, hnone] at h
          cases h
        · have hvalid : validOptionalPort t = true := by
            by_contra hnot
            simp only [parseLiteral, hcut, Bool.eq_false_iff.mpr hnot, Bool.not_false,
              if_true] at h
            cases h
          obtain ⟨port, ht⟩ := PortText.of_valid hvalid
          obtain ⟨address, haddress, hv6, rfl⟩ := (parseLiteral_eq_ok ht).mp h
          rw [splitHostPort_bracketed address ht]
          exact .of_literal haddress (Netip.colon_mem_of_parseAddr hv6)

/-! ### Zones -/

theorem hex_ne_percent (c : UInt8) :
    upperhex (c >>> 4) ≠ '%'.toUInt8 ∧ upperhex (c &&& 15) ≠ '%'.toUInt8 ∧
      (c ≠ '%'.toUInt8 →
        ¬ (upperhex (c >>> 4) = '2'.toUInt8 ∧ upperhex (c &&& 15) = '5'.toUInt8)) := by
  revert c
  exact forall_byte (by decide +kernel)

theorem cutZone_cons (h : c ≠ '%'.toUInt8) (s : Bytes) :
    cutZone (c :: s) = (cutZone s).map fun p => (c :: p.1, p.2) := by
  rw [cutZone, if_neg]
  simp [Ne.symm h]

theorem cutZone_escapeByte (h : c ≠ '%'.toUInt8) (s : Bytes) :
    cutZone (escapeByte .host c ++ s) =
      (cutZone s).map fun p => (escapeByte .host c ++ p.1, p.2) := by
  obtain ⟨hhigh, hlow, hpair⟩ := hex_ne_percent c
  rw [escapeByte]
  split
  · rw [if_neg (by simp)]
    have hnot : ¬ ['%'.toUInt8, '2'.toUInt8, '5'.toUInt8].isPrefixOf
        ('%'.toUInt8 :: upperhex (c >>> 4) :: upperhex (c &&& 15) :: s) = true := by
      intro hpre
      obtain ⟨-, h2, h5, -⟩ := by
        simpa only [List.cons_prefix_cons] using List.isPrefixOf_iff_prefix.mp hpre
      exact hpair h ⟨h2.symm, h5.symm⟩
    change cutZone ('%'.toUInt8 :: upperhex (c >>> 4) :: upperhex (c &&& 15) :: s) = _
    rw [cutZone, if_neg hnot, cutZone_cons hhigh, cutZone_cons hlow]
    cases cutZone s <;> rfl
  · exact cutZone_cons h s

/-- The zone of a printed host begins at its first percent sign. -/
theorem cutZone_escape (s : Bytes) :
    cutZone (escape s .host) =
      (cut '%'.toUInt8 s).2.map fun zone =>
        (escape (cut '%'.toUInt8 s).1 .host, escape ('%'.toUInt8 :: zone) .host) := by
  induction s with
  | nil => rfl
  | cons c s ih =>
      by_cases hc : c = '%'.toUInt8
      · subst hc
        rw [cut, if_pos rfl, escape_cons]
        rfl
      · rw [cut, if_neg hc, escape_cons, cutZone_escapeByte hc, ih, Option.map_map]
        rfl

/-- The bytes of a zone are ASCII. -/
def asciiZone (host : Bytes) : Bool := ((cut '%'.toUInt8 host).2.getD []).all fun c => c < 0x80

/-- The part of a host in front of its zone has no spaces. -/
theorem HostText.front {x y : Bytes} (h : HostText (x ++ '%'.toUInt8 :: y))
    (hx : '%'.toUInt8 ∉ x) : ' '.toUInt8 ∉ x := by
  intro hmem
  obtain ⟨a, b, rfl, -⟩ := List.eq_append_cons_of_mem hmem
  have hpercent := h.spaces a (b ++ '%'.toUInt8 :: y) (by simp)
  exact hx (List.mem_append_left _ hpercent)

theorem HostText.not_mem_space (h : HostText host) (hpercent : '%'.toUInt8 ∉ host) :
    ' '.toUInt8 ∉ host := by
  intro hmem
  obtain ⟨a, b, rfl, -⟩ := List.eq_append_cons_of_mem hmem
  exact hpercent (List.mem_append_left _ (h.spaces a b rfl))

/-- What stands in brackets is read when its zone is ASCII. -/
theorem unescapeLiteral_escape_iff (h : HostText host) {out : Bytes} :
    unescapeLiteral (escape host .host) = .ok out ↔ asciiZone host = true ∧ out = host := by
  rw [unescapeLiteral, cutZone_escape, asciiZone]
  rcases cut_cases '%'.toUInt8 host with ⟨hpercent, hcut⟩ | ⟨x, zone, hx, rfl, hcut⟩
  · have hread : ∀ c ∈ host, readsBack .host .host c = true := fun c hc =>
      (h.readsBack_iff hc).mpr (ne_of_mem_of_not_mem hc (h.not_mem_space hpercent))
    simp only [hcut, Option.map_none, unescape_escape_self hread]
    exact ⟨fun hout => ⟨rfl, (Except.ok.inj hout).symm⟩, fun hout => congrArg _ hout.2.symm⟩
  · have hfront : ∀ c ∈ x, readsBack .host .host c = true := fun c hc =>
      (h.readsBack_iff (List.mem_append_left _ hc)).mpr (ne_of_mem_of_not_mem hc (h.front hx))
    have hzone : (∀ c ∈ '%'.toUInt8 :: zone, readsBack .host .zone c = true) ↔
        zone.all (fun c => c < 0x80) = true := by
      rw [List.all_eq_true, List.forall_mem_cons, and_iff_right (by decide)]
      refine forall₂_congr fun c hc => ?_
      rw [h.readsBack_zone_iff (List.mem_append_right _ (List.mem_cons_of_mem _ hc)),
        decide_eq_true_iff]
    simp only [hcut, Option.map_some, Option.getD_some, unescape_escape_self hfront, ok_bind]
    rw [← hzone]
    constructor
    · intro hout
      obtain ⟨zonePart, h2, hout⟩ := bind_eq_ok.mp hout
      obtain ⟨hread, rfl⟩ :=
        (unescape_escape_iff (by decide) readsBack_zone_of_plain).mp h2
      exact ⟨hread, (Except.ok.inj hout).symm⟩
    · rintro ⟨hread, rfl⟩
      rw [unescape_escape_self hread]
      rfl

/-! ### Hosts and what stands behind them -/

theorem mem_escape_host_iff (hc : ∀ b, c ∈ escapeByte .host b ↔ b = c) :
    c ∈ escape s .host ↔ c ∈ s := by
  rw [escape, List.mem_flatMap]
  constructor
  · rintro ⟨b, hb, hmem⟩
    exact (hc b).mp hmem ▸ hb
  · intro hmem
    exact ⟨c, hmem, (hc c).mpr rfl⟩

theorem colon_mem_escapeByte : ∀ b, ':'.toUInt8 ∈ escapeByte .host b ↔ b = ':'.toUInt8 :=
  forall_byte (by decide +kernel)

theorem bracket_mem_escapeByte : ∀ b, '['.toUInt8 ∈ escapeByte .host b ↔ b = '['.toUInt8 :=
  forall_byte (by decide +kernel)

/-- The addresses that are read back. -/
def literalReadsBack (host : Bytes) : Bool :=
  Netip.parseAddr host = some .v6 && asciiZone host && !host.contains '['.toUInt8

theorem literalReadsBack_iff :
    literalReadsBack host = true ↔
      Netip.parseAddr host = some .v6 ∧ asciiZone host = true ∧ '['.toUInt8 ∉ host := by
  rw [literalReadsBack, Bool.and_eq_true, Bool.and_eq_true, decide_eq_true_iff, and_assoc,
    Bool.not_eq_true', ← Bool.not_eq_true, List.contains_iff_mem]

/-- A host in brackets is read when it is an address. -/
theorem parseHost_bracketed_iff (h : HostText host) (ht : PortText t port) {out : Bytes} :
    parseHost ('['.toUInt8 :: (escape host .host ++ ']'.toUInt8 :: t)) = .ok out ↔
      literalReadsBack host = true ∧ out = '['.toUInt8 :: (host ++ ']'.toUInt8 :: t) := by
  have hbracket : '['.toUInt8 ∈ escape host .host ++ ']'.toUInt8 :: t ↔ '['.toUInt8 ∈ host := by
    have hport : '['.toUInt8 ∉ ']'.toUInt8 :: t :=
      List.not_mem_cons_of_ne_of_not_mem (by decide) (ht.not_mem (by decide) (by decide))
    rw [List.mem_append, or_iff_left hport, mem_escape_host_iff bracket_mem_escapeByte]
  rw [parseHost_bracket, literalReadsBack_iff]
  by_cases hmem : '['.toUInt8 ∈ host
  · rw [if_pos (hbracket.mpr hmem)]
    exact iff_of_false (fun hout => by cases hout) fun hout => hout.1.2.2 hmem
  · rw [if_neg (hbracket.not.mpr hmem), parseLiteral_eq_ok ht]
    constructor
    · rintro ⟨address, haddress, hv6, rfl⟩
      obtain ⟨hzone, rfl⟩ := (unescapeLiteral_escape_iff h).mp haddress
      exact ⟨⟨hv6, hzone, hmem⟩, rfl⟩
    · rintro ⟨⟨hv6, hzone, -⟩, rfl⟩
      exact ⟨host, (unescapeLiteral_escape_iff h).mpr ⟨hzone, rfl⟩, hv6, rfl⟩

theorem escape_host_port (host : Bytes) (ht : PortText t port) :
    escape (host ++ t) .host = escape host .host ++ t := by
  rw [escape_append, escape_of_plain ht.plain]

/-- A host without a colon is read as it is. -/
theorem parseHost_plain (h : HostText host) (ht : PortText t port) (hcolon : ':'.toUInt8 ∉ host) :
    parseHost (escape (host ++ t) .host) = .ok (host ++ t) := by
  obtain ⟨hspace, hbracket⟩ := h.plain hcolon
  have hread : unescape (escape (host ++ t) .host) .host = .ok (host ++ t) := by
    refine unescape_escape_self fun c hc => ?_
    rcases List.mem_append.mp hc with hc | hc
    · exact (h.readsBack_iff hc).mpr (ne_of_mem_of_not_mem hc hspace)
    · exact readsBack_of_plain c (ht.plain c hc)
  have hopen : '['.toUInt8 ∉ escape host .host ++ t := by
    rw [List.mem_append, mem_escape_host_iff bracket_mem_escapeByte]
    exact not_or.mpr ⟨hbracket, ht.not_mem (by decide) (by decide)⟩
  have hescaped := (mem_escape_host_iff colon_mem_escapeByte).not.mpr hcolon
  rw [escape_host_port host ht] at hread ⊢
  rw [parseHost, cutLast_of_not_mem hopen]
  cases ht with
  | absent =>
      rw [List.append_nil] at hread ⊢
      rw [cutLast_of_not_mem hescaped, hread]
  | digits hport =>
      rw [cutLast_append _ (not_mem_of_isDigit hport (by decide))]
      simp only [validOptionalPort_cons, hport, Bool.not_true, Bool.false_eq_true, if_false]
      exact hread

/-- A host with a colon gets brackets. -/
def withPort (host t : Bytes) : Bytes :=
  if host.contains ':'.toUInt8 then '['.toUInt8 :: (host ++ ']'.toUInt8 :: t) else host ++ t

theorem joinHostPort_eq (host port : Bytes) :
    joinHostPort host port = withPort host (':'.toUInt8 :: port) := by
  rw [joinHostPort, withPort]
  split
  · simp
  · rfl

/-- The hosts that are read back: those without a colon, and addresses. -/
def hostReadsBack (host : Bytes) : Bool := !host.contains ':'.toUInt8 || literalReadsBack host

theorem withPort_of_mem (h : ':'.toUInt8 ∈ host) (ht : PortText t port) :
    escape (withPort host t) .host =
      '['.toUInt8 :: (escape host .host ++ ']'.toUInt8 :: t) := by
  have hclose : escape (']'.toUInt8 :: t) .host = ']'.toUInt8 :: t := by
    rw [escape_cons, escape_of_plain ht.plain]
    rfl
  rw [withPort, if_pos (List.contains_iff_mem.mpr h), escape_cons, escape_append, hclose]
  rfl

theorem withPort_of_not_mem (h : ':'.toUInt8 ∉ host) (t : Bytes) :
    withPort host t = host ++ t :=
  if_neg (fun hmem => h (List.contains_iff_mem.mp hmem))

theorem hostReadsBack_of_mem (h : ':'.toUInt8 ∈ host) :
    hostReadsBack host = literalReadsBack host := by
  rw [hostReadsBack, List.contains_iff_mem.mpr h, Bool.not_true, Bool.false_or]

theorem hostReadsBack_of_not_mem (h : ':'.toUInt8 ∉ host) : hostReadsBack host = true := by
  have hnot : host.contains ':'.toUInt8 = false :=
    Bool.eq_false_iff.mpr fun hmem => h (List.contains_iff_mem.mp hmem)
  rw [hostReadsBack, hnot, Bool.not_false, Bool.true_or]

/-- A printed host is read as itself or refused. -/
theorem parseHost_withPort_iff (h : HostText host) (ht : PortText t port) {out : Bytes} :
    parseHost (escape (withPort host t) .host) = .ok out ↔
      hostReadsBack host = true ∧ out = withPort host t := by
  by_cases hcolon : ':'.toUInt8 ∈ host
  · rw [withPort_of_mem hcolon ht, parseHost_bracketed_iff h ht, hostReadsBack_of_mem hcolon,
      withPort, if_pos (List.contains_iff_mem.mpr hcolon)]
  · rw [withPort_of_not_mem hcolon, parseHost_plain h ht hcolon, Except.ok.injEq, eq_comm,
      and_iff_right (hostReadsBack_of_not_mem hcolon)]

theorem splitHostPort_withPort (h : HostText host) (ht : PortText t port) :
    splitHostPort (withPort host t) = (host, port) := by
  by_cases hcolon : ':'.toUInt8 ∈ host
  · rw [withPort, if_pos (List.contains_iff_mem.mpr hcolon), splitHostPort_bracketed host ht]
  · have hplain : unbracket host = host :=
      if_neg fun hbrackets => (h.plain hcolon).2 (List.mem_of_mem_head? hbrackets.1)
    rw [withPort_of_not_mem hcolon, splitHostPort_plain hcolon ht, hplain]

end Url

import Amqp091.Shared.Fallible
import Amqp091.Shared.Url
import Mathlib.Data.List.Basic

/-! # Escaping and cutting

When an escaped text is read back, in the mode it was escaped for or in another one, and
how texts fall apart at a separator. -/

namespace Url

open ByteCodec Fallible

/-- A fact about bytes is checked for each of them. -/
theorem forall_byte {p : UInt8 → Prop} (h : ∀ n < 256, p (UInt8.ofNat n)) (c : UInt8) : p c := by
  have hc := h c.toNat c.toNat_lt
  rwa [UInt8.ofNat_toNat] at hc

/-! ## Cutting -/

variable {c : UInt8} {s t x y : Bytes}

theorem cut_of_not_mem (h : c ∉ s) : cut c s = (s, none) := by
  induction s with
  | nil => rfl
  | cons b s ih =>
      obtain ⟨hb, hs⟩ := List.ne_and_not_mem_of_not_mem_cons h
      rw [cut, if_neg (Ne.symm hb), ih hs]

theorem cut_append (h : c ∉ s) (t : Bytes) : cut c (s ++ c :: t) = (s, some t) := by
  induction s with
  | nil => exact if_pos rfl
  | cons b s ih =>
      obtain ⟨hb, hs⟩ := List.ne_and_not_mem_of_not_mem_cons h
      rw [List.cons_append, cut, if_neg (Ne.symm hb), ih hs]

/-- A text without the separator, and one that is cut at its first one. -/
theorem cut_cases (c : UInt8) (s : Bytes) :
    (c ∉ s ∧ cut c s = (s, none)) ∨
      ∃ x y, c ∉ x ∧ s = x ++ c :: y ∧ cut c s = (x, some y) := by
  by_cases h : c ∈ s
  · obtain ⟨x, y, rfl, hx⟩ := List.eq_append_cons_of_mem h
    exact .inr ⟨x, y, hx, rfl, cut_append hx y⟩
  · exact .inl ⟨h, cut_of_not_mem h⟩

theorem cut_append_left (h : c ∉ s) (t : Bytes) :
    cut c (s ++ t) = (s ++ (cut c t).1, (cut c t).2) := by
  induction s with
  | nil => rfl
  | cons b s ih =>
      obtain ⟨hb, hs⟩ := List.ne_and_not_mem_of_not_mem_cons h
      rw [List.cons_append, cut, if_neg (Ne.symm hb), ih hs]
      rfl

theorem cutLast_of_not_mem (h : c ∉ s) : cutLast c s = none := by
  induction s with
  | nil => rfl
  | cons b s ih =>
      obtain ⟨hb, hs⟩ := List.ne_and_not_mem_of_not_mem_cons h
      rw [cutLast, ih hs]
      exact if_neg (Ne.symm hb)

theorem cutLast_append (s : Bytes) (h : c ∉ t) : cutLast c (s ++ c :: t) = some (s, t) := by
  induction s with
  | nil =>
      rw [List.nil_append, cutLast, cutLast_of_not_mem h]
      exact if_pos rfl
  | cons b s ih => rw [List.cons_append, cutLast, ih]

/-- A text without the separator, and one that is cut at its last one. -/
theorem cutLast_cases (c : UInt8) (s : Bytes) :
    (c ∉ s ∧ cutLast c s = none) ∨
      ∃ x y, c ∉ y ∧ s = x ++ c :: y ∧ cutLast c s = some (x, y) := by
  by_cases h : c ∈ s
  · obtain ⟨y, x, hs, hy⟩ := List.eq_append_cons_of_mem (List.mem_reverse.mpr h)
    have heq : s = x.reverse ++ c :: y.reverse := by
      rw [← List.reverse_reverse s, hs]
      simp
    have hnot : c ∉ y.reverse := fun hmem => hy (List.mem_reverse.mp hmem)
    exact .inr ⟨x.reverse, y.reverse, hnot, heq, heq ▸ cutLast_append x.reverse hnot⟩
  · exact .inl ⟨h, cutLast_of_not_mem h⟩

/-! ## Escaping -/

theorem escape_append (s t : Bytes) (mode : Encoding) :
    escape (s ++ t) mode = escape s mode ++ escape t mode :=
  List.flatMap_append

theorem escape_cons (c : UInt8) (s : Bytes) (mode : Encoding) :
    escape (c :: s) mode = escapeByte mode c ++ escape s mode := rfl

/-- A byte is written as it is, as a plus sign or as a percent sign and two digits. -/
theorem forall_mem_escapeByte {p : UInt8 → Prop} {mode : Encoding} (hplus : p '+'.toUInt8)
    (hpercent : p '%'.toUInt8) (hhex : ∀ n < 16, p (upperhex (UInt8.ofNat n)))
    (hplain : ∀ c, shouldEscape c mode = false → p c) (c : UInt8) :
    ∀ b ∈ escapeByte mode c, p b := by
  have hdigit : ∀ n : UInt8, n < 16 → p (upperhex n) := by
    intro n hn
    have hp := hhex n.toNat (UInt8.lt_iff_toNat_lt.mp hn)
    rwa [UInt8.ofNat_toNat] at hp
  have hnibbles : ∀ c : UInt8, c >>> 4 < 16 ∧ c &&& 15 < 16 := forall_byte (by decide +kernel)
  have hbytes : ∀ b ∈ ['%'.toUInt8, upperhex (c >>> 4), upperhex (c &&& 15)], p b := by
    simpa using ⟨hpercent, hdigit _ (hnibbles c).1, hdigit _ (hnibbles c).2⟩
  rw [escapeByte]
  by_cases hescape : shouldEscape c mode = true
  · rw [if_pos hescape]
    split
    · simpa using hplus
    · exact hbytes
  · rw [if_neg hescape]
    simpa using hplain c (Bool.eq_false_iff.mpr hescape)

/-- What holds of each byte of the escape of a byte holds in an escaped text. -/
theorem forall_mem_escape {p : UInt8 → Prop} {mode : Encoding} {s : Bytes}
    (h : ∀ c ∈ s, ∀ b ∈ escapeByte mode c, p b) : ∀ b ∈ escape s mode, p b := by
  intro b hb
  obtain ⟨c, hc, hb⟩ := List.mem_flatMap.mp hb
  exact h c hc b hb

theorem escape_eq_nil {mode : Encoding} : escape s mode = [] ↔ s = [] := by
  cases s with
  | nil => exact iff_of_true rfl rfl
  | cons c s =>
      refine iff_of_false (fun h => ?_) (List.cons_ne_nil _ _)
      rw [escape_cons] at h
      have hnil := (List.append_eq_nil_iff.mp h).1
      rw [escapeByte] at hnil
      split at hnil
      · split at hnil <;> cases hnil
      · cases hnil

/-- Text without a byte to escape. -/
theorem escape_of_plain {mode : Encoding} (h : ∀ c ∈ s, shouldEscape c mode = false) :
    escape s mode = s := by
  induction s with
  | nil => rfl
  | cons c s ih =>
      obtain ⟨hc, hs⟩ := List.forall_mem_cons.mp h
      have hbyte : escapeByte mode c = [c] := if_neg (by rw [hc]; exact Bool.false_ne_true)
      rw [escape_cons, ih hs, hbyte]
      rfl

/-! ## Reading back -/

/-- A byte escaped for `mode` is itself again when it is read in `mode'`. -/
def readsBack (mode mode' : Encoding) (c : UInt8) : Bool :=
  if shouldEscape c mode then
    !(c = ' '.toUInt8 && mode = .queryComponent) &&
      mayUnescape mode' (upperhex (c >>> 4)) (upperhex (c &&& 15))
  else c ≠ '%'.toUInt8 && mayStand mode' c && unescapeByte mode' c = c

theorem hex_upperhex (c : UInt8) :
    ishex (upperhex (c >>> 4)) = true ∧ ishex (upperhex (c &&& 15)) = true ∧
      unhex (upperhex (c >>> 4)) <<< 4 ||| unhex (upperhex (c &&& 15)) = c := by
  revert c
  exact forall_byte (by decide +kernel)

theorem unescape_percent {a b : UInt8} (rest : Bytes) (mode : Encoding) :
    unescape ('%'.toUInt8 :: a :: b :: rest) mode =
      if ishex a && ishex b && mayUnescape mode a b then
        (unescape rest mode).map ((unhex a <<< 4 ||| unhex b) :: ·)
      else .error (.escape ['%'.toUInt8, a, b]) := by
  rw [unescape]
  exact if_pos rfl

theorem unescape_byte (h : c ≠ '%'.toUInt8) (rest : Bytes) (mode : Encoding) :
    unescape (c :: rest) mode =
      if mayStand mode c then (unescape rest mode).map (unescapeByte mode c :: ·)
      else .error (.invalidHost c) := by
  conv_lhs => unfold unescape
  exact if_neg h

theorem unescape_escapeByte {mode mode' : Encoding} (h : readsBack mode mode' c = true)
    (rest : Bytes) :
    unescape (escapeByte mode c ++ rest) mode' = (unescape rest mode').map (c :: ·) := by
  obtain ⟨hhigh, hlow, hvalue⟩ := hex_upperhex c
  rw [readsBack] at h
  rw [escapeByte]
  by_cases hescape : shouldEscape c mode = true
  · rw [if_pos hescape, Bool.and_eq_true] at h
    have hspace : (c = ' '.toUInt8 && mode = .queryComponent : Bool) ≠ true := by
      rw [(Bool.not_eq_true' _).mp h.1]
      exact Bool.false_ne_true
    rw [if_pos hescape, if_neg hspace]
    change unescape ('%'.toUInt8 :: upperhex (c >>> 4) :: upperhex (c &&& 15) :: rest) mode' = _
    rw [unescape_percent, hhigh, hlow, h.2, hvalue]
    rfl
  · rw [if_neg hescape, Bool.and_eq_true, Bool.and_eq_true] at h
    obtain ⟨⟨hpercent, hstand⟩, hsame⟩ := h
    rw [if_neg hescape]
    change unescape (c :: rest) mode' = _
    rw [unescape_byte (of_decide_eq_true hpercent), hstand, of_decide_eq_true hsame]
    exact if_pos rfl

/-- An escaped text is read back when each of its bytes is. -/
theorem unescape_escape {mode mode' : Encoding} (h : ∀ c ∈ s, readsBack mode mode' c = true)
    (rest : Bytes) :
    unescape (escape s mode ++ rest) mode' = (unescape rest mode').map (s ++ ·) := by
  induction s with
  | nil => cases h : unescape rest mode' <;> simp [escape, h, Except.map]
  | cons c s ih =>
      obtain ⟨hc, hs⟩ := List.forall_mem_cons.mp h
      rw [escape_cons, List.append_assoc, unescape_escapeByte hc, ih hs]
      cases unescape rest mode' <;> rfl

/-- In a mode that leaves a byte as it is or writes it as a percent triple, only a triple
may be refused. -/
theorem forall_readsBack_of_unescape {mode mode' : Encoding} (hmode : mode ≠ .queryComponent)
    (hplain : ∀ c, shouldEscape c mode = false → readsBack mode mode' c = true)
    (h : unescape (escape s mode ++ t) mode' = .ok x) : ∀ c ∈ s, readsBack mode mode' c = true := by
  induction s generalizing x with
  | nil => exact fun c hc => absurd hc List.not_mem_nil
  | cons c s ih =>
      rw [escape_cons, List.append_assoc] at h
      have hc : readsBack mode mode' c = true := by
        by_contra hreads
        have hescape : shouldEscape c mode = true := by
          by_contra hnot
          exact hreads (hplain c (Bool.eq_false_iff.mpr hnot))
        have htriple : escapeByte mode c =
            ['%'.toUInt8, upperhex (c >>> 4), upperhex (c &&& 15)] := by
          simp [escapeByte, hescape, hmode]
        rw [readsBack, if_pos hescape] at hreads
        rw [htriple] at h
        change unescape ('%'.toUInt8 :: _ :: _ :: (escape s mode ++ t)) mode' = _ at h
        rw [unescape_percent] at h
        simp_all
      rw [unescape_escapeByte hc] at h
      obtain ⟨y, hy, -⟩ := map_eq_ok.mp h
      exact List.forall_mem_cons.mpr ⟨hc, ih hy⟩

theorem unescape_escape_self {mode mode' : Encoding}
    (h : ∀ c ∈ s, readsBack mode mode' c = true) : unescape (escape s mode) mode' = .ok s := by
  have hread := unescape_escape h []
  rw [List.append_nil] at hread
  rw [hread]
  exact congrArg Except.ok (List.append_nil s)

/-- An escaped text is read as nothing else than itself. -/
theorem unescape_escape_iff {mode mode' : Encoding} (hmode : mode ≠ .queryComponent)
    (hplain : ∀ c, shouldEscape c mode = false → readsBack mode mode' c = true) :
    unescape (escape s mode) mode' = .ok t ↔
      (∀ c ∈ s, readsBack mode mode' c = true) ∧ t = s := by
  constructor
  · intro h
    have hall : ∀ c ∈ s, readsBack mode mode' c = true := by
      rw [← List.append_nil (escape s mode)] at h
      exact forall_readsBack_of_unescape hmode hplain h
    rw [unescape_escape_self hall] at h
    exact ⟨hall, (Except.ok.inj h).symm⟩
  · rintro ⟨hall, rfl⟩
    exact unescape_escape_self hall

theorem unescapeByte_of_ne {mode : Encoding} (h : mode ≠ .queryComponent) (c : UInt8) :
    unescapeByte mode c = c := by
  simp [unescapeByte, h]

/-- Where every escape is read and every byte may stand, only the percent sign matters. -/
theorem readsBack_of_free {mode mode' : Encoding} (hmay : ∀ a b, mayUnescape mode' a b = true)
    (hstand : ∀ c, mayStand mode' c = true) (hmode : mode' ≠ .queryComponent)
    (hpercent : shouldEscape '%'.toUInt8 mode = true) {c : UInt8}
    (hspace : mode = .queryComponent → c ≠ ' '.toUInt8) : readsBack mode mode' c = true := by
  rw [readsBack]
  by_cases hescape : shouldEscape c mode = true
  · rw [if_pos hescape, hmay, Bool.and_true]
    by_cases hquery : mode = .queryComponent
    · simp [hspace hquery]
    · simp [hquery]
  · have hne : c ≠ '%'.toUInt8 := by
      rintro rfl
      exact hescape hpercent
    rw [if_neg hescape, hstand, unescapeByte_of_ne hmode]
    simp [hne]

theorem readsBack_userPassword (c : UInt8) : readsBack .userPassword .userPassword c = true :=
  readsBack_of_free (fun _ _ => rfl) (fun _ => rfl) (by decide) (by decide) fun h => by cases h

theorem readsBack_path (c : UInt8) : readsBack .path .path c = true :=
  readsBack_of_free (fun _ _ => rfl) (fun _ => rfl) (by decide) (by decide) fun h => by cases h

/-- What is escaped for a query is read as a path but for the space. -/
theorem readsBack_query_path (c : UInt8) (h : c ≠ ' '.toUInt8) :
    readsBack .queryComponent .path c = true :=
  readsBack_of_free (fun _ _ => rfl) (fun _ => rfl) (by decide) (by decide) fun _ => h

/-! ## What is read -/

/-- How a text is read without an error. -/
inductive Reads (mode : Encoding) : Bytes → Bytes → Prop
  | nil : Reads mode [] []
  | triple {a b : UInt8} {s t : Bytes} (ha : ishex a = true) (hb : ishex b = true)
      (hmay : mayUnescape mode a b = true) (hrest : Reads mode s t) :
      Reads mode ('%'.toUInt8 :: a :: b :: s) ((unhex a <<< 4 ||| unhex b) :: t)
  | byte {c : UInt8} {s t : Bytes} (hc : c ≠ '%'.toUInt8) (hstand : mayStand mode c = true)
      (hrest : Reads mode s t) : Reads mode (c :: s) (unescapeByte mode c :: t)

theorem Reads.of_unescape {mode : Encoding} (h : unescape s mode = .ok t) : Reads mode s t := by
  induction s using unescape.induct mode generalizing t with
  | case1 =>
      cases h
      exact .nil
  | case2 a b rest hmay ih =>
      rw [unescape_percent, if_pos hmay] at h
      obtain ⟨u, hu, rfl⟩ := map_eq_ok.mp h
      rw [Bool.and_eq_true, Bool.and_eq_true] at hmay
      exact .triple hmay.1.1 hmay.1.2 hmay.2 (ih hu)
  | case3 a b rest hmay =>
      rw [unescape_percent, if_neg hmay] at h
      cases h
  | case4 rest hshort =>
      cases rest with
      | nil => cases h
      | cons a rest =>
          cases rest with
          | nil => cases h
          | cons b rest => exact absurd rfl (hshort a b rest)
  | case5 c rest hc hstand ih =>
      rw [unescape_byte hc, if_pos hstand] at h
      obtain ⟨u, hu, rfl⟩ := map_eq_ok.mp h
      exact .byte hc hstand (ih hu)
  | case6 c rest hc hstand =>
      rw [unescape_byte hc, if_neg hstand] at h
      cases h

theorem Reads.length_le {mode : Encoding} (h : Reads mode s t) : t.length ≤ s.length := by
  induction h with
  | nil => exact Nat.le_refl _
  | triple _ _ _ _ ih =>
      simp only [List.length_cons]
      omega
  | byte _ _ _ ih => exact Nat.succ_le_succ ih

/-- Text that is read from a query as it is has no percent and no plus sign. -/
theorem Reads.plain (h : Reads .queryComponent s t) (hsame : s = t) :
    '%'.toUInt8 ∉ s ∧ '+'.toUInt8 ∉ s := by
  induction h with
  | nil => exact ⟨List.not_mem_nil, List.not_mem_nil⟩
  | triple _ _ _ hrest =>
      have hlength := congrArg List.length hsame
      have hle := hrest.length_le
      rw [List.length_cons, List.length_cons, List.length_cons, List.length_cons] at hlength
      omega
  | @byte c s t hc _ _ ih =>
      obtain ⟨hhead, htail⟩ := List.cons.inj hsame
      have hplus : '+'.toUInt8 ≠ c := by
        rintro rfl
        exact absurd hhead (by decide)
      exact ⟨List.not_mem_cons_of_ne_of_not_mem (Ne.symm hc) (ih htail).1,
        List.not_mem_cons_of_ne_of_not_mem hplus (ih htail).2⟩

theorem unescape_of_plain (hpercent : '%'.toUInt8 ∉ s) (hplus : '+'.toUInt8 ∉ s) :
    unescape s .queryComponent = .ok s := by
  induction s with
  | nil => rfl
  | cons c s ih =>
      obtain ⟨hc, hs⟩ := List.ne_and_not_mem_of_not_mem_cons hpercent
      obtain ⟨hc', hs'⟩ := List.ne_and_not_mem_of_not_mem_cons hplus
      have hsame : unescapeByte .queryComponent c = c := by simp [unescapeByte, Ne.symm hc']
      rw [unescape_byte (Ne.symm hc), ih hs hs', hsame]
      rfl

/-! ## Bytes of a host -/

/-- A byte that stands for itself in a host. -/
def isHostByte (c : UInt8) : Bool := 0x80 ≤ c || !shouldEscape c .host

theorem readsBack_host : ∀ c, readsBack .host .host c = (isHostByte c || c = '%'.toUInt8) :=
  forall_byte (by decide +kernel)

theorem readsBack_zone : ∀ c, readsBack .host .zone c =
    (!shouldEscape c .host || c = '%'.toUInt8 || c = ' '.toUInt8) :=
  forall_byte (by decide +kernel)

theorem unhex_lt : ∀ c, ishex c = true → unhex c < 16 := forall_byte (by decide +kernel)

theorem high_of_unhex {a b : UInt8} (ha : ishex a = true) (hb : ishex b = true)
    (h : ¬ unhex a < 8) : (0x80 : UInt8) ≤ unhex a <<< 4 ||| unhex b := by
  have hall : ∀ x < 16, ∀ y < 16, ¬ UInt8.ofNat x < 8 →
      (0x80 : UInt8) ≤ UInt8.ofNat x <<< 4 ||| UInt8.ofNat y := by decide +kernel
  have hx := hall (unhex a).toNat (UInt8.lt_iff_toNat_lt.mp (unhex_lt a ha))
    (unhex b).toNat (UInt8.lt_iff_toNat_lt.mp (unhex_lt b hb))
  rw [UInt8.ofNat_toNat, UInt8.ofNat_toNat] at hx
  exact hx h

/-- What an escape in a host stands for. -/
theorem high_or_percent {a b : UInt8} (ha : ishex a = true) (hb : ishex b = true)
    (hmay : mayUnescape .host a b = true) :
    (0x80 : UInt8) ≤ unhex a <<< 4 ||| unhex b ∨ unhex a <<< 4 ||| unhex b = '%'.toUInt8 := by
  rw [mayUnescape, Bool.or_eq_true] at hmay
  rcases hmay with hhigh | hpercent
  · exact .inl (high_of_unhex ha hb (by simpa using hhigh))
  · obtain ⟨rfl, rfl⟩ := by simpa using hpercent
    exact .inr (by decide)

theorem mayStand_host (c : UInt8) : mayStand .host c = isHostByte c := by
  have hlt : (!decide (c < 0x80)) = decide (0x80 ≤ c) := by
    rw [← decide_not]
    exact decide_eq_decide.mpr UInt8.not_lt
  rw [mayStand, isHostByte, ← hlt, ← Bool.not_and]
  rfl

/-- The same bytes are escaped in a zone. -/
theorem shouldEscape_zone (c : UInt8) : shouldEscape c .zone = shouldEscape c .host := by
  unfold shouldEscape
  cases reservedCharacters.contains c <;> rfl

theorem mayStand_zone (c : UInt8) : mayStand .zone c = isHostByte c := by
  rw [← mayStand_host, mayStand, mayStand, shouldEscape_zone]
  rfl

/-- The bytes of a host as it is read. -/
theorem Reads.host (h : Reads .host s t) : ∀ c ∈ t, isHostByte c = true ∨ c = '%'.toUInt8 := by
  induction h with
  | nil => exact fun c hc => absurd hc List.not_mem_nil
  | triple ha hb hmay _ ih =>
      refine List.forall_mem_cons.mpr ⟨?_, ih⟩
      refine (high_or_percent ha hb hmay).imp_left fun hhigh => ?_
      rw [isHostByte, decide_eq_true hhigh, Bool.true_or]
  | byte _ hstand _ ih =>
      rw [mayStand_host] at hstand
      rw [unescapeByte_of_ne (by decide)]
      exact List.forall_mem_cons.mpr ⟨.inl hstand, ih⟩

/-- An ASCII byte other than the percent sign stands in a host only as itself. -/
theorem Reads.not_mem_host (h : Reads .host s t) (hascii : c < 0x80) (hpercent : c ≠ '%'.toUInt8)
    (hc : c ∉ s) : c ∉ t := by
  induction h with
  | nil => exact List.not_mem_nil
  | triple ha hb hmay _ ih =>
      have hrest := fun hmem => hc (List.mem_cons_of_mem _ (List.mem_cons_of_mem _
        (List.mem_cons_of_mem _ hmem)))
      refine List.not_mem_cons_of_ne_of_not_mem ?_ (ih hrest)
      rcases high_or_percent ha hb hmay with hhigh | heq
      · rintro rfl
        exact absurd hascii (UInt8.not_lt.mpr hhigh)
      · exact heq ▸ hpercent
  | byte _ _ _ ih =>
      obtain ⟨hne, hrest⟩ := List.ne_and_not_mem_of_not_mem_cons hc
      rw [unescapeByte_of_ne (by decide)]
      exact List.not_mem_cons_of_ne_of_not_mem hne (ih hrest)

/-- The bytes of a zone as it is read. -/
theorem Reads.zone (h : Reads .zone s t) :
    ∀ c ∈ t, isHostByte c = true ∨ c = '%'.toUInt8 ∨ c = ' '.toUInt8 := by
  induction h with
  | nil => exact fun c hc => absurd hc List.not_mem_nil
  | triple _ _ hmay _ ih =>
      refine List.forall_mem_cons.mpr ⟨?_, ih⟩
      rw [mayUnescape, Bool.or_eq_true, Bool.or_eq_true] at hmay
      rcases hmay with (hpercent | hspace) | hplain
      · obtain ⟨rfl, rfl⟩ := by simpa using hpercent
        exact .inr (.inl (by decide))
      · exact .inr (.inr (of_decide_eq_true hspace))
      · left
        rw [isHostByte, Bool.or_eq_true]
        exact .inr hplain
  | byte _ hstand _ ih =>
      rw [mayStand_zone] at hstand
      rw [unescapeByte_of_ne (by decide)]
      exact List.forall_mem_cons.mpr ⟨.inl hstand, ih⟩

end Url

import Amqp091.Shared.Url.Escape
import Mathlib.Data.Finset.Max
import Mathlib.Data.List.Infix

/-! # Query parameters

Parameters that are written without escaping are read back exactly when none of their
values holds a byte that a query gives a meaning to. -/

namespace Url

open ByteCodec Fallible

variable {k v s t p : Bytes} {fields : Values}

/-! ## Pieces -/

theorem segments_of_not_mem (h : '&'.toUInt8 ∉ s) : segments s = [s] := by
  induction s with
  | nil => rfl
  | cons c s ih =>
      obtain ⟨hc, hs⟩ := List.ne_and_not_mem_of_not_mem_cons h
      rw [segments, if_neg (Ne.symm hc), ih hs]

theorem segments_ne_nil (s : Bytes) : segments s ≠ [] := by
  cases s with
  | nil => exact List.cons_ne_nil _ _
  | cons c s =>
      rw [segments]
      split
      · exact List.cons_ne_nil _ _
      · split <;> exact List.cons_ne_nil _ _

theorem segments_join (s t : Bytes) :
    segments (s ++ '&'.toUInt8 :: t) = segments s ++ segments t := by
  induction s with
  | nil => exact if_pos rfl
  | cons c s ih =>
      rw [List.cons_append, segments, segments, ih]
      split
      · rfl
      · obtain ⟨x, xs, hs⟩ := List.exists_cons_of_ne_nil (segments_ne_nil s)
        rw [hs]
        rfl

theorem segments_append (h : '&'.toUInt8 ∉ s) (t : Bytes) :
    segments (s ++ '&'.toUInt8 :: t) = s :: segments t := by
  rw [segments_join, segments_of_not_mem h]
  rfl

/-- A text without an ampersand is one piece, another one has the text before the first
ampersand as its first piece. -/
theorem segments_cases (s : Bytes) :
    ('&'.toUInt8 ∉ s ∧ segments s = [s]) ∨
      ∃ x y, '&'.toUInt8 ∉ x ∧ s = x ++ '&'.toUInt8 :: y ∧ segments s = x :: segments y := by
  rcases cut_cases '&'.toUInt8 s with ⟨h, -⟩ | ⟨x, y, hx, rfl, -⟩
  · exact .inl ⟨h, segments_of_not_mem h⟩
  · exact .inr ⟨x, y, hx, rfl, segments_append hx y⟩

theorem isInfix_of_mem_segments (h : p ∈ segments s) : p <:+: s := by
  induction hn : s.length using Nat.strong_induction_on generalizing s with
  | _ n ih =>
      rcases segments_cases s with ⟨-, hs⟩ | ⟨x, y, -, rfl, hs⟩
      · rw [hs, List.mem_singleton] at h
        exact h ▸ List.infix_refl s
      · rw [hs] at h
        rcases List.mem_cons.mp h with rfl | h
        · exact (List.prefix_append _ _).isInfix
        · have hlt : y.length < n := by
            rw [← hn, List.length_append, List.length_cons]
            omega
          exact (ih _ hlt h rfl).trans ((List.suffix_cons _ y).trans
            (List.suffix_append x _)).isInfix

theorem not_mem_field {c : UInt8} (hc : c ≠ '='.toUInt8) (hk : c ∉ k) (hv : c ∉ v) :
    c ∉ k ++ '='.toUInt8 :: v := by
  rw [List.mem_append, List.mem_cons]
  rintro (h | h | h)
  exacts [hk h, hc h, hv h]

/-- The text of a field: its name, which has no ampersand, stays with the first piece of
its value. The other pieces are shorter than the value. -/
theorem piece_of_field (hk : '&'.toUInt8 ∉ k) (h : p ∈ segments (k ++ '='.toUInt8 :: v)) :
    (∃ w, p = k ++ '='.toUInt8 :: w ∧ w <+: v ∧ '&'.toUInt8 ∉ w) ∨
      (p.length < v.length ∧ '&'.toUInt8 ∈ v) := by
  rcases cut_cases '&'.toUInt8 v with ⟨hv, -⟩ | ⟨x, y, hx, rfl, -⟩
  · rw [segments_of_not_mem (not_mem_field (by decide) hk hv), List.mem_singleton] at h
    exact .inl ⟨v, h, List.prefix_refl v, hv⟩
  · rw [← List.cons_append, ← List.append_assoc,
      segments_append (not_mem_field (by decide) hk hx)] at h
    rcases List.mem_cons.mp h with rfl | h
    · exact .inl ⟨x, rfl, List.prefix_append _ _, hx⟩
    · have hle := (isInfix_of_mem_segments h).length_le
      refine .inr ⟨?_, List.mem_append_right _ List.mem_cons_self⟩
      rw [List.length_append, List.length_cons]
      omega

/-! ## Fields -/

/-- The fields one after the other, each with an ampersand behind it and nothing
escaped. -/
def printQuery (fields : Values) : Bytes :=
  fields.flatMap fun f => f.1 ++ '='.toUInt8 :: f.2 ++ ['&'.toUInt8]

/-- A byte without a meaning of its own in a query. -/
def isQueryByte (c : UInt8) : Bool :=
  ['&', '#', ';', '+', '%'].all fun x => c ≠ x.toUInt8

/-- A name that is read as it is. -/
def isName (k : Bytes) : Bool := k.all fun c => isQueryByte c && c ≠ '='.toUInt8

theorem eq_of_not_isQueryByte : ∀ c, isQueryByte c = false →
    c = '&'.toUInt8 ∨ c = '#'.toUInt8 ∨ c = ';'.toUInt8 ∨ c = '+'.toUInt8 ∨ c = '%'.toUInt8 :=
  forall_byte (by decide +kernel)

theorem not_mem_of_isName (h : isName k = true) {c : UInt8}
    (hc : (isQueryByte c && c ≠ '='.toUInt8) = false) : c ∉ k := by
  intro hmem
  have hall := List.all_eq_true.mp h c hmem
  rw [hc] at hall
  cases hall

theorem not_mem_of_isQueryByte (h : ∀ c ∈ v, isQueryByte c = true) {c : UInt8}
    (hc : isQueryByte c = false) : c ∉ v := by
  intro hmem
  rw [h c hmem] at hc
  cases hc

theorem printQuery_cons (k v : Bytes) (fields : Values) :
    printQuery ((k, v) :: fields) =
      k ++ '='.toUInt8 :: v ++ '&'.toUInt8 :: printQuery fields := by
  rw [printQuery, List.flatMap_cons, List.append_assoc]
  rfl

theorem parsePair_field (hk : isName k = true) (hv : ∀ c ∈ v, isQueryByte c = true) :
    parsePair (k ++ '='.toUInt8 :: v) = some (k, v) := by
  have hsemicolon : ';'.toUInt8 ∉ k ++ '='.toUInt8 :: v :=
    not_mem_field (by decide) (not_mem_of_isName hk (by decide))
      (not_mem_of_isQueryByte hv (by decide))
  have hskip : ((k ++ '='.toUInt8 :: v).contains ';'.toUInt8 ||
      (k ++ '='.toUInt8 :: v).isEmpty) = false := by
    simpa using hsemicolon
  rw [parsePair, hskip, if_neg Bool.false_ne_true, cut_append (not_mem_of_isName hk (by decide)),
    unescape_of_plain (not_mem_of_isName hk (by decide)) (not_mem_of_isName hk (by decide)),
    Option.getD_some, unescape_of_plain (not_mem_of_isQueryByte hv (by decide))
      (not_mem_of_isQueryByte hv (by decide))]

/-- Fields of plain bytes are read back. -/
theorem parseQuery_printQuery (hnames : ∀ f ∈ fields, isName f.1 = true)
    (hvalues : ∀ f ∈ fields, ∀ c ∈ f.2, isQueryByte c = true) :
    parseQuery (printQuery fields) = fields := by
  induction fields with
  | nil => rfl
  | cons f fields ih =>
      obtain ⟨k, v⟩ := f
      obtain ⟨hk, hks⟩ := List.forall_mem_cons.mp hnames
      obtain ⟨hv, hvs⟩ := List.forall_mem_cons.mp hvalues
      have hpiece : '&'.toUInt8 ∉ k ++ '='.toUInt8 :: v :=
        not_mem_field (by decide) (not_mem_of_isName hk (by decide))
          (not_mem_of_isQueryByte hv (by decide))
      rw [printQuery_cons, parseQuery, segments_append hpiece,
        List.filterMap_cons_some (parsePair_field hk hv)]
      exact congrArg _ (ih hks hvs)

/-! ## Values that are recovered -/

theorem parsePair_eq_some (h : parsePair p = some (k, v)) :
    ';'.toUInt8 ∉ p ∧ p ≠ [] ∧ unescape (cut '='.toUInt8 p).1 .queryComponent = .ok k ∧
      unescape ((cut '='.toUInt8 p).2.getD []) .queryComponent = .ok v := by
  rw [parsePair] at h
  split at h
  · cases h
  · rename_i hskip
    split at h
    · rename_i hkey hvalue
      cases h
      simp only [Bool.or_eq_true, List.contains_iff_mem, List.isEmpty_iff, not_or] at hskip
      exact ⟨hskip.1, hskip.2, hkey, hvalue⟩
    · cases h

theorem length_cut_le (c : UInt8) (s : Bytes) : ((cut c s).2.getD []).length ≤ s.length := by
  rcases cut_cases c s with ⟨-, hcut⟩ | ⟨x, y, -, rfl, hcut⟩
  · rw [hcut]
    exact Nat.zero_le _
  · rw [hcut, List.length_append, List.length_cons]
    change y.length ≤ _
    omega

/-- Where a piece of the fields comes from, also when they are cut off at a number sign. -/
theorem piece_of_printQuery (hnames : ∀ f ∈ fields, isName f.1 = true)
    (h : p ∈ segments (cut '#'.toUInt8 (printQuery fields)).1) :
    p = [] ∨ ∃ f ∈ fields,
      (∃ w, p = f.1 ++ '='.toUInt8 :: w ∧ w <+: f.2 ∧ '&'.toUInt8 ∉ w ∧ '#'.toUInt8 ∉ w) ∨
        (p.length < f.2.length ∧ '&'.toUInt8 ∈ f.2) := by
  induction fields with
  | nil => exact .inl (List.mem_singleton.mp h)
  | cons f fields ih =>
      obtain ⟨k, v⟩ := f
      obtain ⟨hk, hks⟩ := List.forall_mem_cons.mp hnames
      have hkey : '#'.toUInt8 ∉ k := not_mem_of_isName hk (by decide)
      have hkey' : '&'.toUInt8 ∉ k := not_mem_of_isName hk (by decide)
      rw [printQuery_cons] at h
      rcases cut_cases '#'.toUInt8 v with ⟨hv, -⟩ | ⟨x, y, hx, rfl, -⟩
      · rw [cut_append_left (not_mem_field (by decide) hkey hv), cut, if_neg (by decide),
          segments_join, List.mem_append] at h
        rcases h with h | h
        · refine .inr ⟨(k, v), List.mem_cons_self, ?_⟩
          rcases piece_of_field hkey' h with ⟨w, hw, hpre, hamp⟩ | hinside
          · exact .inl ⟨w, hw, hpre, hamp, fun hmem => hv (hpre.subset hmem)⟩
          · exact .inr hinside
        · rcases ih hks h with hnil | ⟨f, hf, hpiece⟩
          · exact .inl hnil
          · exact .inr ⟨f, List.mem_cons_of_mem _ hf, hpiece⟩
      · have hcut : k ++ '='.toUInt8 :: (x ++ '#'.toUInt8 :: y) ++
            '&'.toUInt8 :: printQuery fields =
            k ++ '='.toUInt8 :: x ++ '#'.toUInt8 :: (y ++ '&'.toUInt8 :: printQuery fields) := by
          simp
        rw [hcut, cut_append (not_mem_field (by decide) hkey hx)] at h
        refine .inr ⟨(k, x ++ '#'.toUInt8 :: y), List.mem_cons_self, ?_⟩
        rcases piece_of_field hkey' h with ⟨w, hw, hpre, hamp⟩ | ⟨hlength, hamp⟩
        · exact .inl ⟨w, hw, hpre.trans (List.prefix_append _ _), hamp,
            fun hmem => hx (hpre.subset hmem)⟩
        · refine .inr ⟨hlength.trans_le ?_, List.mem_append_left _ hamp⟩
          rw [List.length_append]
          omega

theorem mem_of_get_ne_nil {values : Values} (h : values.get k ≠ []) :
    (k, values.get k) ∈ values := by
  rw [Values.get, Values.all] at h ⊢
  cases hfilter : values.filter fun p => p.1 = k with
  | nil =>
      rw [hfilter] at h
      exact absurd rfl h
  | cons f rest =>
      have hmem : f ∈ values.filter fun p => p.1 = k := by
        rw [hfilter]
        exact List.mem_cons_self
      obtain ⟨hf, hkey⟩ := List.mem_filter.mp hmem
      rw [← of_decide_eq_true hkey]
      exact hf

/-- A value with a byte of meaning is found again only within a longer one. -/
theorem exists_longer_of_recovered (hnames : ∀ f ∈ fields, isName f.1 = true)
    (hnodup : (fields.map Prod.fst).Nodup)
    (hget : ∀ f ∈ fields,
      (parseQuery (cut '#'.toUInt8 (printQuery fields)).1).get f.1 = f.2)
    {f : Bytes × Bytes} (hf : f ∈ fields) (hbad : ∃ c ∈ f.2, isQueryByte c = false) :
    ∃ g ∈ fields, (∃ c ∈ g.2, isQueryByte c = false) ∧ f.2.length < g.2.length := by
  obtain ⟨k, v⟩ := f
  obtain ⟨c, hc, hbyte⟩ := hbad
  have hrecovered := hget _ hf
  have hmem := mem_of_get_ne_nil (hrecovered.trans_ne (List.ne_nil_of_mem hc))
  rw [hrecovered] at hmem
  obtain ⟨p, hp, hpair⟩ := List.mem_filterMap.mp hmem
  obtain ⟨hsemicolon, hne, hkey, hvalue⟩ := parsePair_eq_some hpair
  have hlength := (Reads.of_unescape hvalue).length_le
  rcases piece_of_printQuery hnames hp with rfl | ⟨g, hg, ⟨w, rfl, hpre, hamp, hhash⟩ | hinside⟩
  · exact absurd rfl hne
  · -- the piece is the beginning of the field itself, hence all of it
    have hgname := hnames g hg
    rw [cut_append (not_mem_of_isName hgname (by decide)),
      unescape_of_plain (not_mem_of_isName hgname (by decide))
        (not_mem_of_isName hgname (by decide))] at hkey
    obtain rfl : g = (k, v) :=
      List.inj_on_of_nodup_map hnodup hg hf (Except.ok.inj hkey)
    rw [cut_append (not_mem_of_isName hgname (by decide))] at hvalue hlength
    obtain rfl : w = v := hpre.eq_of_length_le hlength
    obtain ⟨hpercent, hplus⟩ := (Reads.of_unescape hvalue).plain rfl
    have hsemicolon' : ';'.toUInt8 ∉ w := fun hmem =>
      hsemicolon (List.mem_append_right _ (List.mem_cons_of_mem _ hmem))
    rcases eq_of_not_isQueryByte c hbyte with rfl | rfl | rfl | rfl | rfl
    exacts [absurd hc hamp, absurd hc hhash, absurd hc hsemicolon', absurd hc hplus,
      absurd hc hpercent]
  · exact ⟨g, hg, ⟨_, hinside.2, by decide⟩,
      (hlength.trans (length_cut_le _ p)).trans_lt hinside.1⟩

theorem get_cons (k' v' : Bytes) (values : Values) (k : Bytes) :
    Values.get ((k', v') :: values) k = if k' = k then v' else values.get k := by
  rw [Values.get, Values.all, List.filter_cons]
  by_cases h : k' = k
  · rw [if_pos (decide_eq_true h), if_pos h]
    rfl
  · rw [if_neg (by simpa using h), if_neg h]
    rfl

theorem get_of_mem {values : Values} (hnodup : (values.map Prod.fst).Nodup)
    (h : (k, v) ∈ values) : values.get k = v := by
  induction values with
  | nil => exact absurd h List.not_mem_nil
  | cons f values ih =>
      obtain ⟨k', v'⟩ := f
      obtain ⟨hk, hrest⟩ := List.nodup_cons.mp hnodup
      rw [get_cons]
      rcases List.mem_cons.mp h with heq | h
      · obtain ⟨rfl, rfl⟩ := Prod.mk.inj heq
        exact if_pos rfl
      · have hne : k' ≠ k := by
          rintro rfl
          exact hk (List.mem_map.mpr ⟨_, h, rfl⟩)
        rw [if_neg hne]
        exact ih hrest h

theorem forall_mem_printQuery {q : UInt8 → Prop} (hequals : q '='.toUInt8)
    (hampersand : q '&'.toUInt8) (hnames : ∀ f ∈ fields, ∀ c ∈ f.1, q c) :
    (∀ c ∈ printQuery fields, q c) ↔ ∀ f ∈ fields, ∀ c ∈ f.2, q c := by
  constructor
  · intro hall f hf c hc
    refine hall c (List.mem_flatMap.mpr ⟨f, hf, ?_⟩)
    exact List.mem_append_left _ (List.mem_append_right _ (List.mem_cons_of_mem _ hc))
  · intro hall c hc
    obtain ⟨f, hf, hc⟩ := List.mem_flatMap.mp hc
    simp only [List.mem_append, List.mem_cons, List.not_mem_nil, or_false] at hc
    rcases hc with (hc | rfl | hc) | rfl
    exacts [hnames f hf c hc, hequals, hall f hf c hc, hampersand]

theorem not_mem_printQuery (hnames : ∀ f ∈ fields, isName f.1 = true)
    (hvalues : ∀ f ∈ fields, ∀ c ∈ f.2, isQueryByte c = true) :
    '#'.toUInt8 ∉ printQuery fields := by
  have hne : ∀ c ∈ printQuery fields, c ≠ '#'.toUInt8 := by
    refine (forall_mem_printQuery (by decide) (by decide) fun f hf c hc => ?_).mpr
      fun f hf c hc => ?_
    · exact ne_of_mem_of_not_mem hc (not_mem_of_isName (hnames f hf) (by decide))
    · exact ne_of_mem_of_not_mem hc (not_mem_of_isQueryByte (hvalues f hf) (by decide))
  exact fun hmem => hne _ hmem rfl

/-- Fields with names are recovered exactly when their values have no byte of meaning: the
longest value with one would be found within a longer one. -/
theorem get_printQuery_iff (hnames : ∀ f ∈ fields, isName f.1 = true)
    (hnodup : (fields.map Prod.fst).Nodup) :
    (∀ f ∈ fields, (parseQuery (cut '#'.toUInt8 (printQuery fields)).1).get f.1 = f.2) ↔
      ∀ f ∈ fields, ∀ c ∈ f.2, isQueryByte c = true := by
  constructor
  · intro hget f hf c hc
    by_contra hbyte
    obtain ⟨g, hg, hmax⟩ := Finset.exists_max_image
      (fields.toFinset.filter fun f => ∃ c ∈ f.2, isQueryByte c = false) (fun f => f.2.length)
      ⟨f, Finset.mem_filter.mpr ⟨List.mem_toFinset.mpr hf, c, hc, Bool.eq_false_iff.mpr hbyte⟩⟩
    obtain ⟨hgmem, hgbad⟩ := Finset.mem_filter.mp hg
    obtain ⟨g', hg', hbad, hlt⟩ :=
      exists_longer_of_recovered hnames hnodup hget (List.mem_toFinset.mp hgmem) hgbad
    have hle := hmax g' (Finset.mem_filter.mpr ⟨List.mem_toFinset.mpr hg', hbad⟩)
    omega
  · intro hvalues f hf
    rw [cut_of_not_mem (not_mem_printQuery hnames hvalues), parseQuery_printQuery hnames hvalues]
    exact get_of_mem hnodup hf

/-- A last ampersand makes no difference. -/
theorem parseQuery_ampersand (query : Bytes) :
    parseQuery (cut '#'.toUInt8 (query ++ ['&'.toUInt8])).1 =
      parseQuery (cut '#'.toUInt8 query).1 := by
  rcases cut_cases '#'.toUInt8 query with ⟨hquery, hcut⟩ | ⟨x, y, hx, rfl, hcut⟩
  · have hempty : ([[]] : List Bytes).filterMap parsePair = [] := rfl
    rw [hcut, cut_append_left hquery, parseQuery, parseQuery]
    change (segments (query ++ '&'.toUInt8 :: [])).filterMap parsePair = _
    rw [segments_join, List.filterMap_append]
    exact (congrArg _ hempty).trans (List.append_nil _)
  · rw [hcut, List.append_assoc, List.cons_append, cut_append hx]

end Url

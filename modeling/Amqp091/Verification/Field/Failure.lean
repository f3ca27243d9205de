import Amqp091.Verification.Field.Calls

/-! # Where an error comes from

An error that a reader of values returns was raised by the reads of one of the calls it
makes, and passed on by all those between. The array loop passes on every error but
`io.EOF`, which it takes for the end of the array. -/

namespace Amqp091

open ByteCodec Reader

/-- The reads that the call makes itself end with the error `e`. -/
def Raises (e : ReadErr) : Site → Prop
  | .table bs => ∃ rest, readLongstr bs = .fail e rest
  | .entries bs => bs ≠ [] ∧ ∃ rest, readShortstr bs = .fail e rest
  | .field [] => e = .eof
  | .field (typ :: bs) => ∃ rest, readLeaf typ bs = .fail e rest
  | .array bs => ∃ rest, (readUInt32 : FieldReader UInt32) bs = .fail e rest
  | _ => False

/-- The call `s` makes the call `s'` and returns the error `e` if that does. -/
def Forwards (e : ReadErr) (s s' : Site) : Prop :=
  Calls s s' ∧ (e = .eof → ∀ bs, s ≠ .elems bs)

/-- The error `e` is raised below the call `s` and passed on to it. -/
def Raised (e : ReadErr) (s : Site) : Prop :=
  ∃ s', Relation.ReflTransGen (Forwards e) s s' ∧ Raises e s'

variable {e : ReadErr} {s s' : Site}

theorem Raises.raised (h : Raises e s) : Raised e s := ⟨s, .refl, h⟩

theorem Raised.head (hforward : Forwards e s s') (h : Raised e s') : Raised e s := by
  obtain ⟨t, hreach, hraises⟩ := h
  exact ⟨t, .head hforward hreach, hraises⟩

/-! ## Every error was raised -/

/-- If the call fails with `e`, then `e` is raised below it. -/
def Traced (e : ReadErr) : Site → Prop
  | .frame _ => True
  | .args _ _ => True
  | .table bs => (∃ rest, readTable bs = .fail e rest) → Raised e (.table bs)
  | .entries bs => ∀ t, (∃ rest, readEntries t bs = .fail e rest) → Raised e (.entries bs)
  | .field bs => (∃ rest, readField bs = .fail e rest) → Raised e (.field bs)
  | .array bs => (∃ rest, readArray bs = .fail e rest) → Raised e (.array bs)
  | .elems bs => ∀ arr, (∃ rest, readElems arr bs = .fail e rest) →
      e ≠ .eof ∧ Raised e (.elems bs)

/-- The array loop fails behind an element or with an error other than `io.EOF`. -/
theorem readElems_eq_fail {arr : List Field} {bs rest : Bytes}
    (h : readElems arr bs = .fail e rest) :
    (∃ v mid, readField bs = .ok v mid ∧ readElems (arr ++ [v]) mid = .fail e rest) ∨
    (e ≠ .eof ∧ readField bs = .fail e rest) := by
  cases hfield : readField bs with
  | ok v mid =>
      rw [readElems_of_ok hfield] at h
      exact .inl ⟨v, mid, rfl, h⟩
  | fail e' mid =>
      rw [readElems_eq, readElemsBody, bind_apply, attempt, hfield] at h
      cases e' with
      | eof => cases h
      | unexpectedEOF =>
          cases h
          exact .inr ⟨by simp, rfl⟩
      | other e' =>
          cases h
          exact .inr ⟨by simp, rfl⟩
  | panic =>
      rw [readElems_eq, readElemsBody, bind_apply, attempt, hfield] at h
      cases h
  | timeout => exact (readField_ne_timeout bs hfield).elim

theorem traced_field (bs : Bytes) (ih : ∀ s', Calls (.field bs) s' → Traced e s') :
    Traced e (.field bs) := by
  have hforward : ∀ s', Calls (.field bs) s' → Forwards e (.field bs) s' :=
    fun s' hcall => ⟨hcall, fun _ _ => by simp⟩
  rintro ⟨rest, h⟩
  cases bs with
  | nil =>
      rw [readField_eq] at h
      cases h
      exact Raises.raised (s := .field []) rfl
  | cons typ tail =>
      by_cases harray : typ = 'A'.toUInt8
      · subst harray
        rw [readField_array, map_eq_fail] at h
        exact (ih _ (.field_array tail) ⟨rest, h⟩).head (hforward _ (.field_array tail))
      by_cases htable : typ = 'F'.toUInt8
      · subst htable
        rw [readField_table, map_eq_fail] at h
        exact (ih _ (.field_table tail) ⟨rest, h⟩).head (hforward _ (.field_table tail))
      · rw [readField_leaf harray htable] at h
        exact Raises.raised (s := .field (typ :: tail)) ⟨rest, h⟩

theorem traced_entries (bs : Bytes) (ih : ∀ s', Calls (.entries bs) s' → Traced e s') :
    Traced e (.entries bs) := by
  have hforward : ∀ s', Calls (.entries bs) s' → Forwards e (.entries bs) s' :=
    fun s' hcall => ⟨hcall, fun _ _ => by simp⟩
  rintro t ⟨rest, h⟩
  by_cases hnil : bs = []
  · subst hnil
    rw [readEntries_nil] at h
    cases h
  rw [readEntries_eq, readEntriesBody, if_neg hnil] at h
  rcases bind_eq_fail.mp h with hkey | ⟨key, mid, hkey, h⟩
  · exact Raises.raised (s := .entries bs) ⟨hnil, rest, hkey⟩
  rcases bind_eq_fail.mp h with hv | ⟨v, next, hv, h⟩
  · exact (ih _ (.entries_field hkey) ⟨rest, hv⟩).head (hforward _ (.entries_field hkey))
  · exact (ih _ (.entries_next hkey hv) _ ⟨rest, h⟩).head (hforward _ (.entries_next hkey hv))

theorem traced_step (s : Site) (ih : ∀ s', Calls s s' → Traced e s') : Traced e s := by
  cases s with
  | frame bs => trivial
  | args kinds bs => trivial
  | field bs => exact traced_field bs ih
  | entries bs => exact traced_entries bs ih
  | table bs =>
      rintro ⟨rest, h⟩
      rw [readTable_eq] at h
      rcases bind_eq_fail.mp h with hbuf | ⟨buf, mid, hbuf, h⟩
      · exact Raises.raised (s := .table bs) ⟨rest, hbuf⟩
      · have hloop := ih _ (.table_entries hbuf) [] (onBuffer_eq_fail.mp ⟨rest, h⟩)
        exact hloop.head ⟨.table_entries hbuf, fun _ _ => by simp⟩
  | array bs =>
      rintro ⟨rest, h⟩
      rw [readArray_eq] at h
      rcases bind_eq_fail.mp h with hsize | ⟨size, tail, hsize, h⟩
      · exact Raises.raised (s := .array bs) ⟨rest, hsize⟩
      · have hloop := limited_eq_fail.mp ⟨rest, h⟩
        obtain rfl := readUInt32_eq_ok.mp hsize
        have hloop := ih _ (.array_elems size tail) [] hloop
        exact hloop.2.head ⟨.array_elems size tail, fun _ _ => by simp⟩
  | elems bs =>
      rintro arr ⟨rest, h⟩
      rcases readElems_eq_fail h with ⟨v, mid, hv, h⟩ | ⟨hne, h⟩
      · obtain ⟨hne, hraised⟩ := ih _ (.elems_next hv) _ ⟨rest, h⟩
        exact ⟨hne, hraised.head ⟨.elems_next hv, fun heof => (hne heof).elim⟩⟩
      · have hraised := ih _ (.elems_field bs) ⟨rest, h⟩
        exact ⟨hne, hraised.head ⟨.elems_field bs, fun heof => (hne heof).elim⟩⟩

theorem traced (e : ReadErr) (s : Site) (hs : s.IsValue) : Traced e s :=
  Site.induction (fun s _ => traced_step s) s hs

/-! ## Every error that is raised is returned -/

/-- The call `s` fails with `e`, a loop round whatever it has accumulated so far. -/
def Fails (e : ReadErr) : Site → Prop
  | .frame _ => False
  | .args _ _ => False
  | .table bs => ∃ rest, readTable bs = .fail e rest
  | .entries bs => ∀ t, ∃ rest, readEntries t bs = .fail e rest
  | .field bs => ∃ rest, readField bs = .fail e rest
  | .array bs => ∃ rest, readArray bs = .fail e rest
  | .elems bs => ∀ arr, ∃ rest, readElems arr bs = .fail e rest

/-- A leaf that fails is not one of the two nested types. -/
theorem readLeaf_fail_ne {typ : UInt8} {bs rest : Bytes} (h : readLeaf typ bs = .fail e rest) :
    typ ≠ 'A'.toUInt8 ∧ typ ≠ 'F'.toUInt8 := by
  constructor
  · rintro rfl
    cases h
  · rintro rfl
    cases h

theorem Raises.fails (h : Raises e s) : Fails e s := by
  cases s with
  | frame bs => exact h
  | args kinds bs => exact h
  | elems bs => exact h.elim
  | table bs =>
      obtain ⟨rest, h⟩ := h
      exact ⟨rest, by rw [readTable_eq]; exact bind_eq_fail.mpr (.inl h)⟩
  | entries bs =>
      obtain ⟨hne, rest, h⟩ := h
      intro t
      refine ⟨rest, ?_⟩
      rw [readEntries_eq, readEntriesBody, if_neg hne]
      exact bind_eq_fail.mpr (.inl h)
  | array bs =>
      obtain ⟨rest, h⟩ := h
      exact ⟨rest, by rw [readArray_eq]; exact bind_eq_fail.mpr (.inl h)⟩
  | field bs =>
      cases bs with
      | nil =>
          obtain rfl : e = .eof := h
          exact ⟨[], by rw [readField_eq]; rfl⟩
      | cons typ tail =>
          obtain ⟨rest, h⟩ := h
          obtain ⟨harray, htable⟩ := readLeaf_fail_ne h
          exact ⟨rest, by rw [readField_leaf harray htable, h]⟩

theorem readElems_of_fail {bs rest : Bytes} (hne : e ≠ .eof) (h : readField bs = .fail e rest)
    (arr : List Field) : readElems arr bs = .fail e rest := by
  rw [readElems_eq, readElemsBody, bind_apply, attempt, h]
  cases e with
  | eof => exact (hne rfl).elim
  | unexpectedEOF => rfl
  | other e => rfl

theorem Forwards.fails (hforward : Forwards e s s') (hs : s.IsValue) (h : Fails e s') :
    Fails e s := by
  obtain ⟨hcall, helems⟩ := hforward
  cases hcall with
  | frame_args _ => exact hs.elim
  | frame_headers _ _ _ => exact hs.elim
  | args_table _ _ => exact hs.elim
  | args_next _ => exact hs.elim
  | table_entries hbuf =>
      obtain ⟨rest, h⟩ := onBuffer_eq_fail.mpr (h [])
      exact ⟨rest, by rw [readTable_eq]; exact bind_eq_fail.mpr (.inr ⟨_, _, hbuf, h⟩)⟩
  | entries_field hkey =>
      obtain ⟨rest, h⟩ := h
      intro t
      refine ⟨rest, ?_⟩
      rw [readEntries_eq, readEntriesBody, if_neg (readShortstr_ne_nil hkey)]
      exact bind_eq_fail.mpr (.inr ⟨_, _, hkey, bind_eq_fail.mpr (.inl h)⟩)
  | entries_next hkey hv =>
      intro t
      rw [readEntries_of_ok hkey hv (readShortstr_ne_nil hkey)]
      exact h _
  | field_array rest =>
      obtain ⟨rest', h⟩ := h
      exact ⟨rest', by rw [readField_array, map_eq_fail, h]⟩
  | field_table rest =>
      obtain ⟨rest', h⟩ := h
      exact ⟨rest', by rw [readField_table, map_eq_fail, h]⟩
  | array_elems size rest =>
      obtain ⟨rest', h⟩ := limited_eq_fail.mpr (h [])
      refine ⟨rest', ?_⟩
      rw [readArray_eq]
      exact bind_eq_fail.mpr (.inr ⟨size, rest, readUInt32_eq_ok.mpr rfl, h⟩)
  | elems_field bs =>
      obtain ⟨rest, h⟩ := h
      intro arr
      exact ⟨rest, readElems_of_fail (fun heof => helems heof bs rfl) h arr⟩
  | elems_next hv =>
      intro arr
      rw [readElems_of_ok hv]
      exact h _

theorem Raised.fails (hs : s.IsValue) (h : Raised e s) : Fails e s := by
  obtain ⟨t, hreach, hraises⟩ := h
  induction hreach using Relation.ReflTransGen.head_induction_on with
  | refl => exact hraises.fails
  | head hforward _ ih => exact hforward.fails hs (ih (hforward.1.weight_lt hs).1)

theorem readField_fails_iff {bs : Bytes} :
    (∃ rest, readField bs = .fail e rest) ↔ Raised e (.field bs) :=
  ⟨traced e (.field bs) trivial, Raised.fails (s := .field bs) trivial⟩

theorem readArray_fails_iff {bs : Bytes} :
    (∃ rest, readArray bs = .fail e rest) ↔ Raised e (.array bs) :=
  ⟨traced e (.array bs) trivial, Raised.fails (s := .array bs) trivial⟩

end Amqp091

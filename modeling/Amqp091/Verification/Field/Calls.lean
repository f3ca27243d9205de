import Amqp091.Shared.Extent
import Amqp091.Verification.Field.Lengths
import Amqp091.Verification.Frame.CrashFreedom

/-! # Induction along the calls of the field readers

Every call that a reader of values makes is on fewer bytes, or is the call for an element
in a round of the array loop. What holds of a call whenever it holds of the calls it
makes therefore holds of all of them. -/

namespace Amqp091

open ByteCodec Reader

namespace Site

/-- The call of a reader of values, not of frames or method arguments. -/
def IsValue : Site → Prop
  | .frame _ => False
  | .args _ _ => False
  | _ => True

def weight : Site → ℕ
  | .frame _ => 0
  | .args _ _ => 0
  | .table bs => 2 * bs.length
  | .entries bs => 2 * bs.length
  | .field bs => 2 * bs.length
  | .array bs => 2 * bs.length
  | .elems bs => 2 * bs.length + 1

end Site

theorem Calls.weight_lt {s s' : Site} (h : Calls s s') (hs : s.IsValue) :
    s'.IsValue ∧ s'.weight < s.weight := by
  cases h with
  | frame_args _ => exact hs.elim
  | frame_headers _ _ _ => exact hs.elim
  | args_table _ _ => exact hs.elim
  | args_next _ => exact hs.elim
  | table_entries hbuf =>
      have hlen := readLongstr_length hbuf
      exact ⟨trivial, by simp only [Site.weight]; omega⟩
  | entries_field hkey =>
      have hmid := (readShortstr_suffix hkey).2
      exact ⟨trivial, by simp only [Site.weight]; omega⟩
  | entries_next hkey hv =>
      have hmid := (readShortstr_suffix hkey).2
      have hrest := (readField_suffix hv).2
      exact ⟨trivial, by simp only [Site.weight]; omega⟩
  | field_array rest => exact ⟨trivial, by simp [Site.weight]⟩
  | field_table rest => exact ⟨trivial, by simp [Site.weight]⟩
  | array_elems size rest =>
      refine ⟨trivial, ?_⟩
      simp only [Site.weight, List.length_append, length_putBE, List.length_take]
      omega
  | elems_field bs => exact ⟨trivial, by simp only [Site.weight]; omega⟩
  | elems_next hv =>
      have hrest := (readField_suffix hv).2
      exact ⟨trivial, by simp only [Site.weight]; omega⟩

/-- Induction along the calls. -/
theorem Site.induction {P : Site → Prop}
    (hstep : ∀ s, s.IsValue → (∀ s', Calls s s' → P s') → P s) (s : Site) (hs : s.IsValue) :
    P s := by
  induction hn : s.weight using Nat.strong_induction_on generalizing s with
  | _ n ih =>
      refine hstep s hs fun s' hcall => ?_
      obtain ⟨hs', hlt⟩ := hcall.weight_lt hs
      exact ih _ (hn ▸ hlt) s' hs' rfl

/-! ## One round of each reader -/

/-- Only two branches of the switch use the readers of nested values. -/
theorem readFieldSwitch_cases (typ : UInt8) :
    typ = 'A'.toUInt8 ∨ typ = 'F'.toUInt8 ∨
      ∀ (a a' : FieldReader (List Field)) (t t' : FieldReader Table),
        readFieldSwitch a t typ = readFieldSwitch a' t' typ := by
  by_cases harray : typ = 'A'.toUInt8
  · exact .inl harray
  by_cases htable : typ = 'F'.toUInt8
  · exact .inr (.inl htable)
  refine .inr (.inr fun a a' t t' => ?_)
  unfold readFieldSwitch
  split
  case h_11 heq => exact (harray (eq_toUInt8 heq)).elim
  case h_13 heq => exact (htable (eq_toUInt8 heq)).elim
  all_goals rfl

/-- The type switch on a value that is not nested. -/
def readLeaf (typ : UInt8) : FieldReader Field := readFieldSwitch panic panic typ

theorem takes_readDecimal : Takes readDecimal 5 :=
  Takes.readUInt8.bind fun _ => Takes.readUInt32.map _

theorem readField_leaf {typ : UInt8} (harray : typ ≠ 'A'.toUInt8) (htable : typ ≠ 'F'.toUInt8)
    (bs : Bytes) : readField (typ :: bs) = readLeaf typ bs := by
  rcases readFieldSwitch_cases typ with h | h | h
  · exact (harray h).elim
  · exact (htable h).elim
  · rw [readField_cons, readLeaf, h _ panic _ panic]

theorem readField_array (bs : Bytes) :
    readField ('A'.toUInt8 :: bs) = (do let v ← readArray; return .array v : FieldReader _) bs :=
  readField_cons _ bs

theorem readField_table (bs : Bytes) :
    readField ('F'.toUInt8 :: bs) = (do let v ← readTable; return .table v : FieldReader _) bs :=
  readField_cons _ bs

/-- A value that was read is not nested, an array or a table. -/
theorem readField_eq_ok {bs rest : Bytes} {v : Field} (h : readField bs = .ok v rest) :
    ∃ typ tail, bs = typ :: tail ∧
      ((typ ≠ 'A'.toUInt8 ∧ typ ≠ 'F'.toUInt8 ∧ readLeaf typ tail = .ok v rest) ∨
      (typ = 'A'.toUInt8 ∧ ∃ arr, v = .array arr ∧ readArray tail = .ok arr rest) ∨
      (typ = 'F'.toUInt8 ∧ ∃ t, v = .table t ∧ readTable tail = .ok t rest)) := by
  cases bs with
  | nil =>
      rw [readField_eq] at h
      cases h
  | cons typ tail =>
      refine ⟨typ, tail, rfl, ?_⟩
      by_cases harray : typ = 'A'.toUInt8
      · subst harray
        rw [readField_array] at h
        obtain ⟨arr, harr, rfl⟩ := map_eq_ok.mp h
        exact .inr (.inl ⟨rfl, arr, rfl, harr⟩)
      by_cases htable : typ = 'F'.toUInt8
      · subst htable
        rw [readField_table] at h
        obtain ⟨t, ht, rfl⟩ := map_eq_ok.mp h
        exact .inr (.inr ⟨rfl, t, rfl, ht⟩)
      · rw [readField_leaf harray htable] at h
        exact .inl ⟨harray, htable, h⟩

theorem readSlice_eq_ok {len : UInt32} {bs value rest : Bytes}
    (h : readSlice len.toInt32 bs = .ok value rest) :
    value.length = len.toNat ∧ value.length ≤ 0x7fffffff ∧ bs = value ++ rest := by
  by_cases hneg : 2 ^ 31 ≤ len.toNat
  · rw [(readSlice_eq_panic bs).mpr hneg] at h
    cases h
  · have hlen := readSlice_of_lt (Nat.not_le.mp hneg)
    rw [UInt32.ofNat_toNat] at hlen
    rw [hlen] at h
    obtain ⟨hvalue, hbs⟩ := readFull_eq_ok.mp h
    exact ⟨hvalue, by omega, hbs⟩

theorem readArray_eq_ok {bs rest : Bytes} {arr : List Field} (h : readArray bs = .ok arr rest) :
    ∃ (size : UInt32) (tail left : Bytes), bs = putBE 4 size.toNat ++ tail ∧
      readElems [] (tail.take size.toNat) = .ok arr left ∧
      rest = left ++ tail.drop size.toNat := by
  rw [readArray_eq] at h
  obtain ⟨size, tail, hsize, h⟩ := bind_eq_ok.mp h
  obtain ⟨left, helems, hrest⟩ := limited_eq_ok h
  exact ⟨size, tail, left, readUInt32_eq_ok.mp hsize, helems, hrest⟩

/-- The array loop goes on behind an element or ends at the first `io.EOF`. -/
theorem readElems_eq_ok {arr arr' : List Field} {bs rest : Bytes}
    (h : readElems arr bs = .ok arr' rest) :
    (∃ v mid, readField bs = .ok v mid ∧ readElems (arr ++ [v]) mid = .ok arr' rest) ∨
    (arr' = arr ∧ readField bs = .fail .eof rest) := by
  cases hfield : readField bs with
  | ok v mid =>
      rw [readElems_of_ok hfield] at h
      exact .inl ⟨v, mid, rfl, h⟩
  | fail e mid =>
      rw [readElems_eq, readElemsBody, bind_apply, attempt, hfield] at h
      cases e with
      | eof =>
          cases h
          exact .inr ⟨rfl, rfl⟩
      | unexpectedEOF => cases h
      | other e => cases h
  | panic =>
      rw [readElems_eq, readElemsBody, bind_apply, attempt, hfield] at h
      cases h
  | timeout => exact (readField_ne_timeout bs hfield).elim

end Amqp091

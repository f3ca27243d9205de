import Amqp091.Shared.Extent
import Amqp091.Verification.Field.Calls

/-! # The grammar of field values

The byte strings that are one value, the elements of an array or the entries of a table,
with every length as it is announced. The readers accept all of them, and consume exactly
the bytes of the value. -/

namespace Amqp091

open ByteCodec Reader

/-- The bytes behind the type of a value of fixed size. -/
def fixedWidth (typ : UInt8) : Option ℕ :=
  match Char.ofUInt8 typ with
  | 't' => some 1
  | 'B' => some 1
  | 'b' => some 1
  | 's' => some 2
  | 'I' => some 4
  | 'l' => some 8
  | 'f' => some 4
  | 'd' => some 8
  | 'D' => some 5
  | 'T' => some 8
  | 'V' => some 0
  | _ => none

mutual

inductive FieldForm : Bytes → Prop
  | fixed {typ : UInt8} {value : Bytes} (h : fixedWidth typ = some value.length) :
      FieldForm (typ :: value)
  | string {str : Bytes} (h : str.length ≤ 0x7fffffff) :
      FieldForm ('S'.toUInt8 :: (putBE 4 str.length ++ str))
  | bytes {value : Bytes} (h : value.length ≤ 0x7fffffff) :
      FieldForm ('x'.toUInt8 :: (putBE 4 value.length ++ value))
  | array {payload : Bytes} (hlen : payload.length < 2 ^ 32) (h : ElemsForm payload) :
      FieldForm ('A'.toUInt8 :: (putBE 4 payload.length ++ payload))
  | table {buf : Bytes} (hlen : buf.length ≤ 0x7fffffff) (h : EntriesForm buf) :
      FieldForm ('F'.toUInt8 :: (putBE 4 buf.length ++ buf))

inductive ElemsForm : Bytes → Prop
  | nil : ElemsForm []
  | cons {enc rest : Bytes} (h : FieldForm enc) (hrest : ElemsForm rest) : ElemsForm (enc ++ rest)

inductive EntriesForm : Bytes → Prop
  | nil : EntriesForm []
  | cons {key enc rest : Bytes} (hkey : key.length ≤ 255) (h : FieldForm enc)
      (hrest : EntriesForm rest) :
      EntriesForm (putBE 1 key.length ++ (key ++ (enc ++ rest)))

end

/-- `bs` starts with a well-formed array. -/
def ArrayForm (bs : Bytes) : Prop :=
  ∃ payload rest, payload.length < 2 ^ 32 ∧
    bs = putBE 4 payload.length ++ (payload ++ rest) ∧ ElemsForm payload

/-- `bs` starts with a well-formed table. -/
def TableForm (bs : Bytes) : Prop :=
  ∃ buf rest, buf.length ≤ 0x7fffffff ∧
    bs = putBE 4 buf.length ++ (buf ++ rest) ∧ EntriesForm buf

/-- The byte strings that `readField` consumes for the successive elements of a list. -/
inductive Elements : Bytes → List Field → Prop
  | nil : Elements [] []
  | cons {enc rest : Bytes} {v : Field} {vs : List Field}
      (h : readField (enc ++ rest) = .ok v rest) (hrest : Elements rest vs) :
      Elements (enc ++ rest) (v :: vs)

/-! ## Values that are not nested -/

/-- A type that is not of fixed size is that of a string, a byte array or a nested value,
or is unknown. -/
theorem readLeaf_cases (typ : UInt8) :
    (∃ n, fixedWidth typ = some n ∧ Takes (readLeaf typ) n) ∨
    typ = 'S'.toUInt8 ∨ typ = 'x'.toUInt8 ∨
    fixedWidth typ = none ∧ ∀ bs v rest, readLeaf typ bs ≠ .ok v rest := by
  generalize hp : readLeaf typ = p
  unfold readLeaf readFieldSwitch at hp
  split at hp <;> subst hp
  case h_10 heq => exact .inr (.inl (eq_toUInt8 heq))
  case h_14 heq => exact .inr (.inr (.inl (eq_toUInt8 heq)))
  case h_11 heq =>
    exact .inr (.inr (.inr ⟨by rw [eq_toUInt8 heq]; rfl, fun _ _ _ h => by cases h⟩))
  case h_13 heq =>
    exact .inr (.inr (.inr ⟨by rw [eq_toUInt8 heq]; rfl, fun _ _ _ h => by cases h⟩))
  case h_16 =>
    refine .inr (.inr (.inr ⟨?_, fun _ _ _ h => by cases h⟩))
    unfold fixedWidth
    split <;> first | rfl | contradiction
  case h_15 heq => exact .inl ⟨0, by rw [eq_toUInt8 heq]; rfl, Takes.pure _⟩
  case h_9 heq => exact .inl ⟨5, by rw [eq_toUInt8 heq]; rfl, takes_readDecimal.map _⟩
  case h_12 heq => exact .inl ⟨8, by rw [eq_toUInt8 heq]; rfl, (Takes.readUInt64.map _).map _⟩
  case h_4 heq => exact .inl ⟨2, by rw [eq_toUInt8 heq]; rfl, Takes.readUInt16.map _⟩
  case h_5 heq => exact .inl ⟨4, by rw [eq_toUInt8 heq]; rfl, Takes.readUInt32.map _⟩
  case h_7 heq => exact .inl ⟨4, by rw [eq_toUInt8 heq]; rfl, Takes.readUInt32.map _⟩
  case h_6 heq => exact .inl ⟨8, by rw [eq_toUInt8 heq]; rfl, Takes.readUInt64.map _⟩
  case h_8 heq => exact .inl ⟨8, by rw [eq_toUInt8 heq]; rfl, Takes.readUInt64.map _⟩
  all_goals
    rename_i heq
    exact .inl ⟨1, by rw [eq_toUInt8 heq]; rfl, Takes.readUInt8.map _⟩

/-! ## Well-formed values are read exactly -/

theorem fixedWidth_ne {typ : UInt8} {n : ℕ} (h : fixedWidth typ = some n) :
    typ ≠ 'S'.toUInt8 ∧ typ ≠ 'x'.toUInt8 ∧ typ ≠ 'A'.toUInt8 ∧ typ ≠ 'F'.toUInt8 := by
  refine ⟨?_, ?_, ?_, ?_⟩
  all_goals
    rintro rfl
    cases h

theorem takes_readLeaf {typ : UInt8} {n : ℕ} (h : fixedWidth typ = some n) :
    Takes (readLeaf typ) n := by
  obtain ⟨hstring, hbytes, -, -⟩ := fixedWidth_ne h
  rcases readLeaf_cases typ with ⟨m, hm, htakes⟩ | hs | hx | ⟨hnone, -⟩
  · rw [h] at hm
    cases hm
    exact htakes
  · exact (hstring hs).elim
  · exact (hbytes hx).elim
  · rw [h] at hnone
    cases hnone

/-- Behind a length that fits an `int32`, that many bytes are read as a byte array. -/
theorem readField_bytes {value : Bytes} (h : value.length ≤ 0x7fffffff) (rest : Bytes) :
    readField ('x'.toUInt8 :: (putBE 4 value.length ++ (value ++ rest))) =
      .ok (.bytes value) rest := by
  have hencodable : Encodable (.bytes value) := by
    simp only [Encodable]
    omega
  obtain ⟨enc, hw, hr⟩ := field_roundTrip (.bytes value) hencodable
  have henc : enc = 'x'.toUInt8 :: putBE 4 value.length ++ value := by
    rw [← hw.out_eq]
    rfl
  have hread : readField (enc ++ rest) = .ok (.bytes value) rest := hr rest
  rw [henc] at hread
  simpa using hread

theorem readField_string {str : Bytes} (h : str.length ≤ 0x7fffffff) (rest : Bytes) :
    readField ('S'.toUInt8 :: (putBE 4 str.length ++ (str ++ rest))) = .ok (.string str) rest := by
  have hread : readLongstr (putBE 4 str.length ++ (str ++ rest)) = .ok str rest := by
    rw [readLongstr_putBE h]
    exact readFull_append str rest
  rw [readField_leaf (by decide) (by decide)]
  exact map_eq_ok (f := Field.string).mpr ⟨str, hread, rfl⟩

theorem readArray_of_elems {payload : Bytes} {arr : List Field} (hlen : payload.length < 2 ^ 32)
    (h : readElems [] payload = .ok arr []) (rest : Bytes) :
    readArray (putBE 4 payload.length ++ (payload ++ rest)) = .ok arr rest := by
  have hread := reads_readArray hlen h rest
  rwa [List.append_assoc] at hread

theorem readTable_of_entries {buf : Bytes} {t : Table} (hlen : buf.length ≤ 0x7fffffff)
    (h : readEntries [] buf = .ok t []) (rest : Bytes) :
    readTable (putBE 4 buf.length ++ (buf ++ rest)) = .ok t rest := by
  have hread := (decodes_readTable (Nat.lt_succ_of_le hlen) h).reads rest
  rwa [List.append_assoc] at hread

mutual

/-- A well-formed value is read, whatever follows it. -/
theorem FieldForm.reads : ∀ {enc : Bytes}, FieldForm enc → ∀ rest,
    ∃ v, readField (enc ++ rest) = .ok v rest
  | _, @FieldForm.fixed typ value h, rest => by
      obtain ⟨-, -, harray, htable⟩ := fixedWidth_ne h
      obtain ⟨v, hv⟩ := (takes_readLeaf h (value ++ rest)).1 (by simp)
      refine ⟨v, ?_⟩
      rw [List.cons_append, readField_leaf harray htable, hv, List.drop_left]
  | _, @FieldForm.string str h, rest =>
      ⟨_, by rw [List.cons_append, List.append_assoc]; exact readField_string h rest⟩
  | _, @FieldForm.bytes value h, rest =>
      ⟨_, by rw [List.cons_append, List.append_assoc]; exact readField_bytes h rest⟩
  | _, @FieldForm.array payload hlen h, rest => by
      obtain ⟨arr, hread, -⟩ := h.reads
      have harray := readArray_of_elems hlen (hread []) rest
      refine ⟨.array arr, ?_⟩
      rw [List.cons_append, List.append_assoc, readField_array]
      exact map_eq_ok (f := Field.array).mpr ⟨arr, harray, rfl⟩
  | _, @FieldForm.table buf hlen h, rest => by
      obtain ⟨t, hread⟩ := h.reads []
      have htable := readTable_of_entries hlen hread rest
      refine ⟨.table t, ?_⟩
      rw [List.cons_append, List.append_assoc, readField_table]
      exact map_eq_ok (f := Field.table).mpr ⟨t, htable, rfl⟩

theorem ElemsForm.reads : ∀ {payload : Bytes}, ElemsForm payload →
    ∃ vs, (∀ arr, readElems arr payload = .ok (arr ++ vs) []) ∧ Elements payload vs
  | _, .nil => ⟨[], fun arr => by rw [readElems_nil, List.append_nil], .nil⟩
  | _, @ElemsForm.cons enc rest h hrest => by
      obtain ⟨v, hv⟩ := h.reads rest
      obtain ⟨vs, hread, hvs⟩ := hrest.reads
      refine ⟨v :: vs, fun arr => ?_, .cons hv hvs⟩
      rw [readElems_of_ok hv, hread, List.append_assoc, List.singleton_append]

theorem EntriesForm.reads : ∀ {buf : Bytes}, EntriesForm buf → ∀ t,
    ∃ t', readEntries t buf = .ok t' []
  | _, .nil, t => ⟨t, readEntries_nil t⟩
  | _, @EntriesForm.cons key enc rest hkey h hrest, t => by
      obtain ⟨v, hv⟩ := h.reads rest
      obtain ⟨t', hread⟩ := hrest.reads (t.set key v)
      have hshort : readShortstr (putBE 1 key.length ++ (key ++ (enc ++ rest))) =
          .ok key (enc ++ rest) :=
        readShortstr_eq_ok.mpr ⟨Nat.lt_succ_of_le hkey, rfl⟩
      exact ⟨t', by rw [readEntries_of_ok hshort hv (readShortstr_ne_nil hshort), hread]⟩

end

end Amqp091

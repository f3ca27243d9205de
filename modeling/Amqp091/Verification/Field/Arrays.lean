import Amqp091.Verification.Field.Failure
import Amqp091.Verification.Field.Grammar

/-! # Arrays and the end of their payload

`readArray` takes any `io.EOF` for the end of the array, and a value that is cut off
where a read finds no byte at all ends with that error too. The array is parsed exactly
if no such place is met, the payload is there in full, and no length is one that the
readers do not honour. -/

namespace Amqp091

open ByteCodec Reader

/-- A malformed input that the call does not report: an element whose bytes end in front
of a read, a payload shorter than its size, a string or a table with a length that is
taken for zero, a byte array with a negative length. -/
def Silent : Site → Prop
  | .elems bs => bs ≠ [] ∧ Raised .eof (.field bs)
  | .array bs => ∃ n tail, n < 2 ^ 32 ∧ bs = putBE 4 n ++ tail ∧ tail.length < n
  | .field bs => (∃ tail, bs = 'S'.toUInt8 :: tail ∧ Oversize tail) ∨ NegativeByteArray bs
  | .table bs => Oversize bs
  | _ => False

/-- Below the call `s` nothing malformed goes unreported. -/
def Sound (s : Site) : Prop := ∀ s', Relation.ReflTransGen Calls s s' → ¬ Silent s'

theorem Sound.calls {s s' : Site} (h : Sound s) (hcall : Calls s s') : Sound s' :=
  fun t hreach => h t (.head hcall hreach)

theorem Sound.not_silent {s : Site} (h : Sound s) : ¬ Silent s := h s .refl

/-! ## Successes without silent faults are well formed -/

/-- A value that is not nested, read with its length honoured. -/
theorem readLeaf_form {typ : UInt8} {bs rest : Bytes} {v : Field}
    (hsound : Sound (.field (typ :: bs))) (h : readLeaf typ bs = .ok v rest) :
    ∃ enc, typ :: bs = enc ++ rest ∧ FieldForm enc := by
  rcases readLeaf_cases typ with ⟨n, hwidth, htakes⟩ | rfl | rfl | ⟨-, hnone⟩
  · obtain ⟨hle, rfl⟩ := htakes.spans _ _ _ h
    refine ⟨typ :: bs.take n, by rw [List.cons_append, List.take_append_drop], .fixed ?_⟩
    rw [hwidth, List.length_take_of_le hle]
  · obtain ⟨str, hstr, rfl⟩ := map_eq_ok.mp h
    have hover : ¬ Oversize bs := fun hover => hsound.not_silent (.inl ⟨bs, rfl, hover⟩)
    obtain ⟨hlen, rfl⟩ := readLongstr_exact hover hstr
    exact ⟨_, by rw [List.cons_append, List.append_assoc], .string hlen⟩
  · obtain ⟨len, mid, hlen, h⟩ := bind_eq_ok.mp h
    obtain ⟨value, hvalue, rfl⟩ := map_eq_ok.mp h
    obtain ⟨hlength, hle, rfl⟩ := readSlice_eq_ok hvalue
    rw [readUInt32_eq_ok.mp hlen, ← hlength]
    exact ⟨_, by rw [List.cons_append, List.append_assoc], .bytes hle⟩
  · exact (hnone bs v rest h).elim

/-- What a success of the call says about its input. -/
def Shaped : Site → Prop
  | .frame _ => True
  | .args _ _ => True
  | .field bs => ∀ v rest, readField bs = .ok v rest → ∃ enc, bs = enc ++ rest ∧ FieldForm enc
  | .array bs => ∀ arr rest, readArray bs = .ok arr rest → ∃ payload, payload.length < 2 ^ 32 ∧
      bs = putBE 4 payload.length ++ (payload ++ rest) ∧ ElemsForm payload
  | .elems bs => ∀ arr arr' rest, readElems arr bs = .ok arr' rest → rest = [] ∧ ElemsForm bs
  | .table bs => ∀ t rest, readTable bs = .ok t rest → ∃ buf, buf.length ≤ 0x7fffffff ∧
      bs = putBE 4 buf.length ++ (buf ++ rest) ∧ EntriesForm buf
  | .entries bs => ∀ t t' rest, readEntries t bs = .ok t' rest → EntriesForm bs

/-- Each call is shaped if the calls it makes are and nothing goes unreported. -/
theorem shaped_step (s : Site) (ih : ∀ s', Calls s s' → Sound s' → Shaped s')
    (hsound : Sound s) : Shaped s := by
  have hcalls : ∀ s', Calls s s' → Shaped s' := fun s' hcall => ih s' hcall (hsound.calls hcall)
  cases s with
  | frame bs => trivial
  | args kinds bs => trivial
  | field bs =>
      intro v rest h
      obtain ⟨typ, tail, rfl, ⟨-, -, hleaf⟩ | ⟨rfl, arr, rfl, harray⟩ | ⟨rfl, t, rfl, htable⟩⟩ :=
        readField_eq_ok h
      · exact readLeaf_form hsound hleaf
      · obtain ⟨payload, hlen, rfl, hform⟩ := hcalls _ (.field_array tail) arr rest harray
        exact ⟨_, by rw [List.cons_append, List.append_assoc], .array hlen hform⟩
      · obtain ⟨buf, hlen, rfl, hform⟩ := hcalls _ (.field_table tail) t rest htable
        exact ⟨_, by rw [List.cons_append, List.append_assoc], .table hlen hform⟩
  | array bs =>
      intro arr rest h
      obtain ⟨size, tail, left, rfl, helems, rfl⟩ := readArray_eq_ok h
      obtain ⟨rfl, hform⟩ := hcalls _ (.array_elems size tail) [] arr left helems
      have hle : size.toNat ≤ tail.length := by
        by_contra hshort
        exact hsound.not_silent ⟨size.toNat, tail, size.toNat_lt, rfl, Nat.not_le.mp hshort⟩
      have hlen : (tail.take size.toNat).length = size.toNat := List.length_take_of_le hle
      refine ⟨tail.take size.toNat, by rw [hlen]; exact size.toNat_lt, ?_, hform⟩
      rw [hlen, List.nil_append, List.take_append_drop]
  | elems bs =>
      intro arr arr' rest h
      rcases readElems_eq_ok h with ⟨v, mid, hv, hnext⟩ | ⟨-, hstop⟩
      · obtain ⟨enc, rfl, hform⟩ := hcalls _ (.elems_field bs) v mid hv
        obtain ⟨rfl, hrest⟩ := hcalls _ (.elems_next hv) _ arr' rest hnext
        exact ⟨rfl, .cons hform hrest⟩
      · have hnil : bs = [] := by
          by_contra hne
          exact hsound.not_silent ⟨hne, readField_fails_iff.mp ⟨rest, hstop⟩⟩
        subst hnil
        exact ⟨List.suffix_nil.mp (readField_fail_suffix hstop), .nil⟩
  | table bs =>
      intro t rest h
      obtain ⟨buf, left, hbuf, hloop⟩ := readTable_eq_ok h
      obtain ⟨hlen, hbs⟩ := readLongstr_exact hsound.not_silent hbuf
      exact ⟨buf, hlen, hbs, hcalls _ (.table_entries hbuf) [] t left hloop⟩
  | entries bs =>
      intro t t' rest h
      by_cases hnil : bs = []
      · subst hnil
        exact .nil
      · obtain ⟨key, mid, v, next, hkey, hv, hnext⟩ := readEntries_cons_ok hnil h
        obtain ⟨enc, rfl, hform⟩ := hcalls _ (.entries_field hkey) v next hv
        have hrest := hcalls _ (.entries_next hkey hv) _ t' rest hnext
        obtain ⟨hlt, rfl⟩ := readShortstr_eq_ok.mp hkey
        exact .cons (Nat.le_of_lt_succ hlt) hform hrest

theorem Sound.shaped {s : Site} (h : Sound s) (hs : s.IsValue) : Shaped s :=
  Site.induction (fun s _ => shaped_step s) s hs h

/-! ## Well-formed inputs meet no silent fault -/

/-- The input of the call is well formed; the array loop ends with a call on no bytes. -/
def Site.WellFormed : Site → Prop
  | .frame _ => False
  | .args _ _ => False
  | .field bs => bs = [] ∨ ∃ enc rest, bs = enc ++ rest ∧ FieldForm enc
  | .array bs => ArrayForm bs
  | .elems bs => ElemsForm bs
  | .table bs => TableForm bs
  | .entries bs => EntriesForm bs

/-- The form of a value of variable size behind its type byte. -/
theorem FieldForm.inv {enc tail rest : Bytes} {typ : UInt8} (h : FieldForm enc)
    (heq : typ :: tail = enc ++ rest) :
    (typ = 'S'.toUInt8 ∨ typ = 'x'.toUInt8 → ∃ str : Bytes, str.length ≤ 0x7fffffff ∧
      tail = putBE 4 str.length ++ (str ++ rest)) ∧
    (typ = 'A'.toUInt8 → ArrayForm tail) ∧ (typ = 'F'.toUInt8 → TableForm tail) := by
  cases h with
  | @fixed typ' value hwidth =>
      rw [List.cons_append, List.cons.injEq] at heq
      obtain ⟨hstring, hbytes, harray, htable⟩ := fixedWidth_ne hwidth
      rw [heq.1]
      exact ⟨fun h => (h.elim hstring hbytes).elim, fun h => (harray h).elim,
        fun h => (htable h).elim⟩
  | @string str hlen =>
      rw [List.cons_append, List.cons.injEq, List.append_assoc] at heq
      rw [heq.1]
      exact ⟨fun _ => ⟨str, hlen, heq.2⟩, fun h => absurd h (by decide),
        fun h => absurd h (by decide)⟩
  | @bytes value hlen =>
      rw [List.cons_append, List.cons.injEq, List.append_assoc] at heq
      rw [heq.1]
      exact ⟨fun _ => ⟨value, hlen, heq.2⟩, fun h => absurd h (by decide),
        fun h => absurd h (by decide)⟩
  | @array payload hlen hform =>
      rw [List.cons_append, List.cons.injEq, List.append_assoc] at heq
      rw [heq.1]
      exact ⟨fun h => absurd h (by decide), fun _ => ⟨payload, rest, hlen, heq.2, hform⟩,
        fun h => absurd h (by decide)⟩
  | @table buf hlen hform =>
      rw [List.cons_append, List.cons.injEq, List.append_assoc] at heq
      rw [heq.1]
      exact ⟨fun h => absurd h (by decide), fun h => absurd h (by decide),
        fun _ => ⟨buf, rest, hlen, heq.2, hform⟩⟩

theorem Site.WellFormed.field_cons {typ : UInt8} {tail : Bytes}
    (h : Site.WellFormed (.field (typ :: tail))) :
    (typ = 'S'.toUInt8 ∨ typ = 'x'.toUInt8 → ∃ str rest : Bytes, str.length ≤ 0x7fffffff ∧
      tail = putBE 4 str.length ++ (str ++ rest)) ∧
    (typ = 'A'.toUInt8 → ArrayForm tail) ∧ (typ = 'F'.toUInt8 → TableForm tail) := by
  obtain hnil | ⟨enc, rest, heq, hform⟩ := h
  · cases hnil
  · obtain ⟨hstring, harray, htable⟩ := hform.inv heq
    refine ⟨fun htyp => ?_, harray, htable⟩
    obtain ⟨str, hlen, htail⟩ := hstring htyp
    exact ⟨str, rest, hlen, htail⟩

/-- The field of an entry, and the entries behind it. -/
theorem EntriesForm.inv {bs key mid : Bytes} (h : EntriesForm bs)
    (hkey : readShortstr bs = .ok key mid) :
    ∃ enc rest, mid = enc ++ rest ∧ FieldForm enc ∧ EntriesForm rest := by
  cases h with
  | nil => exact (readShortstr_ne_nil hkey rfl).elim
  | @cons key' enc rest hlen hform hrest =>
      rw [readShortstr_eq_ok.mpr ⟨Nat.lt_succ_of_le hlen, rfl⟩] at hkey
      cases hkey
      exact ⟨enc, rest, rfl, hform, hrest⟩

/-- What is left behind a well-formed value. -/
theorem FieldForm.rest_eq {enc rest left : Bytes} {v : Field} (h : FieldForm enc)
    (hread : readField (enc ++ rest) = .ok v left) : left = rest := by
  obtain ⟨w, hw⟩ := h.reads rest
  rw [hread] at hw
  cases hw
  rfl

theorem Site.WellFormed.calls {s s' : Site} (h : s.WellFormed) (hcall : Calls s s') :
    s'.WellFormed := by
  cases hcall with
  | frame_args _ => exact h.elim
  | frame_headers _ _ _ => exact h.elim
  | args_table _ _ => exact h.elim
  | args_next _ => exact h.elim
  | table_entries hbuf =>
      obtain ⟨buf, rest, hlen, rfl, hform⟩ := h
      rw [readLongstr_putBE hlen, readFull_append] at hbuf
      cases hbuf
      exact hform
  | entries_field hkey =>
      obtain ⟨enc, rest, rfl, hform, -⟩ := EntriesForm.inv h hkey
      exact .inr ⟨enc, rest, rfl, hform⟩
  | entries_next hkey hv =>
      obtain ⟨enc, rest, rfl, hform, hrest⟩ := EntriesForm.inv h hkey
      rw [hform.rest_eq hv]
      exact hrest
  | field_array rest => exact h.field_cons.2.1 rfl
  | field_table rest => exact h.field_cons.2.2 rfl
  | array_elems size tail =>
      obtain ⟨payload, rest, hlen, heq, hform⟩ := h
      obtain ⟨hsize, rfl⟩ := putBE_append_inj size.toNat_lt hlen heq
      rw [hsize, List.take_left]
      exact hform
  | elems_field bs =>
      cases h with
      | nil => exact .inl rfl
      | cons hform hrest => exact .inr ⟨_, _, rfl, hform⟩
  | elems_next hv =>
      cases h with
      | nil =>
          rw [readField_eq] at hv
          cases hv
      | cons hform hrest =>
          rw [hform.rest_eq hv]
          exact hrest

theorem Site.WellFormed.not_silent {s : Site} (h : s.WellFormed) : ¬ Silent s := by
  cases s with
  | frame bs => exact h.elim
  | args kinds bs => exact h.elim
  | entries bs => exact id
  | elems bs =>
      rintro ⟨hne, hraised⟩
      obtain ⟨left, hfail⟩ := readField_fails_iff.mpr hraised
      cases h with
      | nil => exact hne rfl
      | @cons enc rest hform hrest =>
          obtain ⟨v, hv⟩ := hform.reads rest
          rw [hfail] at hv
          cases hv
  | array bs =>
      rintro ⟨n, tail, hn, rfl, hshort⟩
      obtain ⟨payload, rest, hlen, heq, -⟩ := h
      obtain ⟨rfl, rfl⟩ := putBE_append_inj hn hlen heq
      rw [List.length_append] at hshort
      omega
  | table bs =>
      intro hover
      obtain ⟨buf, rest, hlen, rfl, -⟩ := h
      rw [Silent, oversize_putBE (hlen.trans_lt (by decide))] at hover
      omega
  | field bs =>
      rintro (⟨tail, rfl, hover⟩ | ⟨len, tail, hneg, rfl⟩)
      · obtain ⟨str, rest, hlen, rfl⟩ := h.field_cons.1 (.inl rfl)
        rw [oversize_putBE (hlen.trans_lt (by decide))] at hover
        omega
      · obtain ⟨value, rest, hlen, heq⟩ := h.field_cons.1 (.inr rfl)
        obtain ⟨hlength, -⟩ := putBE_append_inj len.toNat_lt (hlen.trans_lt (by decide)) heq
        omega

theorem Site.WellFormed.sound {s : Site} (h : s.WellFormed) : Sound s := by
  intro s' hreach
  have hs' : s'.WellFormed := by
    induction hreach with
    | refl => exact h
    | tail _ hcall ih => exact ih.calls hcall
  exact hs'.not_silent

/-! ## Arrays -/

/-- A success has consumed the size and the payload, which is what `readField` consumed
for the elements, and whatever is not a well-formed array is reported. -/
structure ParsedExactly (b : Bytes) : Prop where
  exact : ∀ arr rest, readArray b = .ok arr rest → ∃ payload, payload.length < 2 ^ 32 ∧
    b = putBE 4 payload.length ++ (payload ++ rest) ∧ Elements payload arr
  reported : ¬ ArrayForm b → ∃ e rest, readArray b = .fail e rest

/-- An array is parsed exactly if an error is raised below the call and passed on to it,
and otherwise if nothing malformed that is met goes unreported. -/
theorem arrays_parsed_exactly_iff (b : Bytes) :
    ParsedExactly b ↔ (∃ e, Raised e (.array b)) ∨ Sound (.array b) := by
  constructor
  · intro h
    by_cases hform : ArrayForm b
    · exact .inr (Site.WellFormed.sound (s := .array b) hform)
    · obtain ⟨e, hfail⟩ := h.reported hform
      exact .inl ⟨e, readArray_fails_iff.mp hfail⟩
  · rintro (⟨e, hraised⟩ | hsound)
    · obtain ⟨rest, hfail⟩ := readArray_fails_iff.mpr hraised
      refine ⟨fun arr rest' hok => ?_, fun _ => ⟨e, rest, hfail⟩⟩
      rw [hfail] at hok
      cases hok
    · have hshaped := hsound.shaped trivial
      refine ⟨fun arr rest hok => ?_, fun hform => ?_⟩
      · obtain ⟨payload, hlen, rfl, hpayload⟩ := hshaped arr rest hok
        obtain ⟨vs, hread, helements⟩ := hpayload.reads
        rw [readArray_of_elems hlen (hread [])] at hok
        cases hok
        exact ⟨payload, hlen, rfl, helements⟩
      · cases hread : readArray b with
        | ok arr rest =>
            obtain ⟨payload, hlen, hbs, hpayload⟩ := hshaped arr rest hread
            exact (hform ⟨payload, rest, hlen, hbs, hpayload⟩).elim
        | fail e rest => exact ⟨e, rest, rfl⟩
        | panic =>
            obtain ⟨w, hreach, hneg⟩ := (aux_faults _).2.2.2.1 b hread
            exact (hsound _ hreach (.inr hneg)).elim
        | timeout => exact (readArray_ne_timeout b hread).elim

/-- The payload of one byte ends behind the type of a 16-bit number, and is taken for an
empty array. -/
theorem cut_off_array_accepted :
    readArray [0, 0, 0, 1, 115] = .ok [] [] ∧ ¬ ParsedExactly [0, 0, 0, 1, 115] := by
  have hread : readArray [0, 0, 0, 1, 115] = .ok [] [] := by rfl
  refine ⟨hread, fun h => ?_⟩
  obtain ⟨payload, hlen, hbs, helements⟩ := h.exact [] [] hread
  have hpayload := congrArg List.length hbs
  rw [List.length_append, length_putBE, List.append_nil] at hpayload
  cases helements
  cases hpayload

end Amqp091

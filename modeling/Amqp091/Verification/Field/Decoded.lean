import Amqp091.Shared.Extent
import Amqp091.Verification.Field.Calls

/-! # What was decoded can be encoded

Whatever a reader accepts, the value it returns lies in the domain of the writer, is read
back as itself and needs no more bytes than were consumed for it. -/

namespace Amqp091

open ByteCodec Reader

/-- `v` is read back as itself from at most `n` bytes. -/
structure Fits (v : Field) (n : ℕ) : Prop where
  encodable : Encodable v
  asRead_eq : asRead v = v
  length_le : (writeField v).out.length ≤ n

structure FitsElems (vs : List Field) (n : ℕ) : Prop where
  encodable : EncodableElems vs
  asRead_eq : asReadElems vs = vs
  length_le : (writeElems vs).out.length ≤ n

structure FitsEntries (es : Table) (n : ℕ) : Prop where
  nodup : (es.map Prod.fst).Nodup
  encodable : EncodableEntries es
  asRead_eq : asReadEntries es = es
  length_le : (writeEntries es).out.length ≤ n

/-! ## Values that are not nested -/

/-- A value made of a number of `n` bytes behind its type. -/
theorem fits_number {α : Type} {p : FieldReader α} {n : ℕ} (hp : Takes p n)
    {f : α → Field} {bs rest : Bytes} {v : Field}
    (h : (do let x ← p; return f x : FieldReader Field) bs = .ok v rest)
    (hf : ∀ x, Encodable (f x) ∧ asRead (f x) = f x ∧ (writeField (f x)).out.length = n + 1) :
    Fits v (bs.length + 1 - rest.length) := by
  obtain ⟨x, hx, rfl⟩ := map_eq_ok.mp h
  obtain ⟨hencodable, hread, hlen⟩ := hf x
  have hbs := hp.spans.length_eq hx
  exact ⟨hencodable, hread, by omega⟩

/-- A long string takes up its own bytes and the prefix, or the prefix alone. -/
theorem readLongstr_extent {bs str rest : Bytes} (h : readLongstr bs = .ok str rest) :
    str.length ≤ 0x7fffffff ∧ str.length + 4 + rest.length ≤ bs.length := by
  obtain ⟨length, mid, hlen, hbody⟩ := bind_eq_ok.mp h
  have hmid := Takes.readUInt32.spans.length_eq hlen
  split at hbody
  · cases hbody
    exact ⟨Nat.zero_le _, by simp; omega⟩
  · obtain ⟨hstr, rfl⟩ := readFull_eq_ok.mp hbody
    rw [List.length_append] at hmid
    exact ⟨by omega, by omega⟩

/-- The values of the branches of the switch that read a number or a string. -/
theorem readLeaf_fits {typ : UInt8} {bs rest : Bytes} {v : Field}
    (h : readLeaf typ bs = .ok v rest) : Fits v (bs.length + 1 - rest.length) := by
  generalize hp : readLeaf typ = p at h
  unfold readLeaf readFieldSwitch at hp
  split at hp <;> subst hp
  case h_1 => exact fits_number Takes.readUInt8 h fun _ => ⟨trivial, rfl, rfl⟩
  case h_2 => exact fits_number Takes.readUInt8 h fun _ => ⟨trivial, rfl, rfl⟩
  case h_3 => exact fits_number Takes.readUInt8 h fun _ => ⟨trivial, rfl, rfl⟩
  case h_4 => exact fits_number Takes.readUInt16 h fun _ => ⟨trivial, rfl, rfl⟩
  case h_5 => exact fits_number Takes.readUInt32 h fun _ => ⟨trivial, rfl, rfl⟩
  case h_6 => exact fits_number Takes.readUInt64 h fun _ => ⟨trivial, rfl, rfl⟩
  case h_7 => exact fits_number Takes.readUInt32 h fun _ => ⟨trivial, rfl, rfl⟩
  case h_8 => exact fits_number Takes.readUInt64 h fun _ => ⟨trivial, rfl, rfl⟩
  case h_9 => exact fits_number takes_readDecimal h fun _ => ⟨trivial, rfl, rfl⟩
  case h_10 =>
    obtain ⟨str, hstr, rfl⟩ := map_eq_ok.mp h
    obtain ⟨hlt, hlen⟩ := readLongstr_extent hstr
    refine ⟨by simp only [Encodable]; omega, rfl, ?_⟩
    simp only [writeField, Output.emit, List.length_append, List.length_cons, length_putBE]
    omega
  case h_11 => cases h
  case h_12 =>
    obtain ⟨time, htime, rfl⟩ := map_eq_ok.mp h
    obtain ⟨sec, hsec, rfl⟩ := map_eq_ok.mp htime
    have hbs := Takes.readUInt64.spans.length_eq hsec
    refine ⟨rfl, rfl, ?_⟩
    simp only [writeField, Output.emit, List.length_cons, length_putBE]
    omega
  case h_13 => cases h
  case h_14 =>
    obtain ⟨len, mid, hlen, h⟩ := bind_eq_ok.mp h
    obtain ⟨value, hvalue, rfl⟩ := map_eq_ok.mp h
    obtain ⟨-, hlt, rfl⟩ := readSlice_eq_ok hvalue
    have hbs := Takes.readUInt32.spans.length_eq hlen
    refine ⟨by simp only [Encodable]; omega, rfl, ?_⟩
    have hout : (writeField (.bytes value)).out = 'x'.toUInt8 :: putBE 4 value.length ++ value :=
      rfl
    rw [hout]
    simp only [List.length_append, List.length_cons, length_putBE] at hbs ⊢
    omega
  case h_15 =>
    cases h
    exact ⟨trivial, rfl, by simp [writeField, Output.emit]⟩
  case h_16 => cases h

/-! ## Assignments to a table -/

theorem length_writeEntries_cons {key : Bytes} {v : Field} {es : Table}
    (h : EncodableEntries ((key, v) :: es)) :
    (writeEntries ((key, v) :: es)).out.length =
      1 + key.length + (writeField v).out.length + (writeEntries es).out.length := by
  have hes := h
  simp only [EncodableEntries] at hes
  rw [writeEntries_out h, writeEntries_out hes.2.2, List.flatMap_cons]
  simp only [List.length_append, length_putBE]

theorem fitsEntries_cons {key : Bytes} {v : Field} {es : Table} {n : ℕ} :
    FitsEntries ((key, v) :: es) n ↔
      key ∉ es.map Prod.fst ∧ key.length ≤ 255 ∧
        ∃ m k, Fits v m ∧ FitsEntries es k ∧ 1 + key.length + m + k ≤ n := by
  constructor
  · rintro ⟨hnodup, hencodable, hread, hlen⟩
    rw [length_writeEntries_cons hencodable] at hlen
    simp only [EncodableEntries] at hencodable
    obtain ⟨hkey, hv, hes⟩ := hencodable
    rw [asReadEntries, List.cons.injEq, Prod.mk.injEq] at hread
    rw [List.map_cons, List.nodup_cons] at hnodup
    exact ⟨hnodup.1, hkey, _, _, ⟨hv, hread.1.2, le_rfl⟩, ⟨hnodup.2, hes, hread.2, le_rfl⟩, hlen⟩
  · rintro ⟨hnew, hkey, m, k, hv, hes, hle⟩
    have hencodable : EncodableEntries ((key, v) :: es) := by
      simp only [EncodableEntries]
      exact ⟨hkey, hv.encodable, hes.encodable⟩
    refine ⟨?_, hencodable, ?_, ?_⟩
    · rw [List.map_cons, List.nodup_cons]
      exact ⟨hnew, hes.nodup⟩
    · rw [asReadEntries, hv.asRead_eq, hes.asRead_eq]
    · rw [length_writeEntries_cons hencodable]
      have hvlen := hv.length_le
      have heslen := hes.length_le
      omega

theorem mem_keys_set {t : Table} {key k : Bytes} {v : Field} :
    k ∈ (t.set key v).map Prod.fst ↔ k = key ∨ k ∈ t.map Prod.fst := by
  induction t with
  | nil => simp [Table.set]
  | cons e es ih =>
      obtain ⟨k₀, v₀⟩ := e
      rw [Table.set]
      split
      · rename_i heq
        simp [heq]
      · rw [List.map_cons, List.mem_cons, ih, List.map_cons, List.mem_cons]
        tauto

theorem fitsEntries_nil : FitsEntries [] 0 := ⟨List.nodup_nil, trivial, rfl, le_rfl⟩

/-- Assigning `v` to a key needs room for the key and the value, at most. -/
theorem FitsEntries.set {t : Table} {n m : ℕ} {key : Bytes} {v : Field} (h : FitsEntries t n)
    (hkey : key.length ≤ 255) (hv : Fits v m) :
    FitsEntries (t.set key v) (n + (1 + key.length + m)) := by
  induction t generalizing n with
  | nil =>
      exact fitsEntries_cons.mpr ⟨List.not_mem_nil, hkey, m, 0, hv, fitsEntries_nil, by omega⟩
  | cons e es ih =>
      obtain ⟨k₀, v₀⟩ := e
      obtain ⟨hnew, hk₀, m₀, k, hv₀, hes, hle⟩ := fitsEntries_cons.mp h
      rw [Table.set]
      split
      · rename_i heq
        subst heq
        exact fitsEntries_cons.mpr ⟨hnew, hk₀, m, k, hv, hes, by omega⟩
      · rename_i hne
        refine fitsEntries_cons.mpr ⟨?_, hk₀, m₀, _, hv₀, ih hes, by omega⟩
        rw [mem_keys_set]
        exact fun hmem => hmem.elim hne hnew

/-! ## Nested values -/

/-- What the call `s` returns can be encoded in the bytes that it consumed. For a table
that is the buffer behind the length, for a round of its loop the buffer that is left. -/
def Faithful : Site → Prop
  | .frame _ => True
  | .args _ _ => True
  | .field bs => bs.length ≤ 0x7fffffff → ∀ v rest, readField bs = .ok v rest →
      Fits v (bs.length - rest.length)
  | .array bs => bs.length ≤ 0x7fffffff → ∀ arr rest, readArray bs = .ok arr rest →
      ∃ n, FitsElems arr n ∧ n + 4 + rest.length ≤ bs.length
  | .elems bs => bs.length ≤ 0x7fffffff → ∀ arr arr' rest, readElems arr bs = .ok arr' rest →
      ∃ vs n, arr' = arr ++ vs ∧ FitsElems vs n ∧ n + rest.length ≤ bs.length
  | .table bs => ∀ t rest, readTable bs = .ok t rest →
      ∃ n, FitsEntries t n ∧ n ≤ 0x7fffffff ∧ n + 4 + rest.length ≤ bs.length
  | .entries bs => bs.length ≤ 0x7fffffff → ∀ t t' rest n, readEntries t bs = .ok t' rest →
      FitsEntries t n → FitsEntries t' (n + bs.length)

theorem FitsElems.fits_array {arr : List Field} {n : ℕ} (h : FitsElems arr n)
    (hn : n ≤ 0x7fffffff) : Fits (.array arr) (5 + n) := by
  have hlen := h.length_le
  refine ⟨?_, ?_, ?_⟩
  · simp only [Encodable]
    exact ⟨by omega, h.encodable⟩
  · rw [asRead, h.asRead_eq]
  · rw [length_writeField_array h.encodable]
    omega

theorem FitsEntries.fits_table {t : Table} {n : ℕ} (h : FitsEntries t n)
    (hn : n ≤ 0x7fffffff) : Fits (.table t) (5 + n) := by
  have hlen := h.length_le
  refine ⟨?_, ?_, ?_⟩
  · simp only [Encodable]
    exact ⟨by omega, h.nodup, h.encodable⟩
  · rw [asRead, h.asRead_eq]
  · rw [length_writeField_table h.encodable (by omega)]
    omega

theorem Fits.mono {v : Field} {m n : ℕ} (h : Fits v m) (hle : m ≤ n) : Fits v n :=
  ⟨h.encodable, h.asRead_eq, h.length_le.trans hle⟩

theorem FitsEntries.mono {t : Table} {m n : ℕ} (h : FitsEntries t m) (hle : m ≤ n) :
    FitsEntries t n :=
  ⟨h.nodup, h.encodable, h.asRead_eq, h.length_le.trans hle⟩

theorem FitsElems.cons {v : Field} {vs : List Field} {m n : ℕ} (hv : Fits v m)
    (hvs : FitsElems vs n) : FitsElems (v :: vs) (m + n) := by
  have hvlen := hv.length_le
  have hvslen := hvs.length_le
  refine ⟨?_, ?_, ?_⟩
  · simp only [EncodableElems]
    exact ⟨hv.encodable, hvs.encodable⟩
  · rw [asReadElems, hv.asRead_eq, hvs.asRead_eq]
  · rw [writeElems_out_cons vs hv.encodable, List.length_append]
    omega

/-- Each call is faithful if the calls it makes are. -/
theorem faithful_step (s : Site) (ih : ∀ s', Calls s s' → Faithful s') : Faithful s := by
  cases s with
  | frame bs => trivial
  | args kinds bs => trivial
  | field bs =>
      intro hbs v rest h
      obtain ⟨typ, tail, rfl, ⟨-, -, hleaf⟩ | ⟨rfl, arr, rfl, harray⟩ | ⟨rfl, t, rfl, htable⟩⟩ :=
        readField_eq_ok h
      · exact readLeaf_fits hleaf
      · rw [List.length_cons] at hbs ⊢
        obtain ⟨n, hfits, hle⟩ := ih _ (.field_array tail) (by omega) arr rest harray
        exact (hfits.fits_array (by omega)).mono (by omega)
      · obtain ⟨n, hfits, hn, hle⟩ := ih _ (.field_table tail) t rest htable
        rw [List.length_cons]
        exact (hfits.fits_table hn).mono (by omega)
  | array bs =>
      intro hbs arr rest h
      obtain ⟨size, tail, left, rfl, helems, rfl⟩ := readArray_eq_ok h
      simp only [List.length_append, length_putBE] at hbs ⊢
      have hwindow : (tail.take size.toNat).length + (tail.drop size.toNat).length =
          tail.length := by
        rw [← List.length_append, List.take_append_drop]
      obtain ⟨vs, n, rfl, hfits, hle⟩ :=
        ih _ (.array_elems size tail) (by omega) [] arr left helems
      exact ⟨n, hfits, by omega⟩
  | elems bs =>
      intro hbs arr arr' rest h
      rcases readElems_eq_ok h with ⟨v, mid, hv, hnext⟩ | ⟨rfl, hstop⟩
      · have hmid := (readField_suffix hv).2
        have hfits := ih _ (.elems_field bs) hbs v mid hv
        obtain ⟨vs, n, rfl, hfits', hle⟩ := ih _ (.elems_next hv) (by omega) _ arr' rest hnext
        refine ⟨v :: vs, _, ?_, .cons hfits hfits', by omega⟩
        rw [List.append_assoc, List.singleton_append]
      · refine ⟨[], 0, (List.append_nil _).symm, ⟨trivial, rfl, le_rfl⟩, ?_⟩
        rw [Nat.zero_add]
        exact (readField_fail_suffix hstop).length_le
  | table bs =>
      intro t rest h
      obtain ⟨buf, left, hbuf, hloop⟩ := readTable_eq_ok h
      obtain ⟨hlt, hlen⟩ := readLongstr_extent hbuf
      have hfits := ih _ (.table_entries hbuf) hlt [] t left 0 hloop fitsEntries_nil
      rw [Nat.zero_add] at hfits
      exact ⟨buf.length, hfits, hlt, hlen⟩
  | entries bs =>
      intro hbs t t' rest n h hfits
      by_cases hnil : bs = []
      · subst hnil
        rw [readEntries_nil] at h
        cases h
        exact hfits.mono (Nat.le_add_right _ _)
      · obtain ⟨key, mid, v, next, hkey, hv, hnext⟩ := readEntries_cons_ok hnil h
        obtain ⟨hlt, rfl⟩ := readShortstr_eq_ok.mp hkey
        have hsuffix := (readField_suffix hv).2
        simp only [List.length_append, length_putBE] at hbs ⊢
        have hvalue := ih _ (.entries_field hkey) (by omega) v next hv
        have hset := hfits.set (Nat.le_of_lt_succ hlt) hvalue
        have hrest := ih _ (.entries_next hkey hv) (by omega) _ t' rest _ hnext hset
        exact hrest.mono (by omega)

theorem faithful (s : Site) (hs : s.IsValue) : Faithful s :=
  Site.induction (fun s _ => faithful_step s) s hs

/-- A table that was read is read back as itself, whatever it was read from. -/
theorem readTable_fits {bs rest : Bytes} {t : Table} (h : readTable bs = .ok t rest) :
    Encodable (.table t) ∧ asReadEntries t = t := by
  obtain ⟨n, hfits, hn, -⟩ := faithful (.table bs) trivial t rest h
  exact ⟨(hfits.fits_table hn).encodable, hfits.asRead_eq⟩

end Amqp091

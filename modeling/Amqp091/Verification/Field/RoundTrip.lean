import Amqp091.Algorithm.WriteField
import Amqp091.Verification.Field.Equations

/-! # Field tables survive the wire -/

namespace Amqp091

open ByteCodec Reader

/-! ## The codec's domain -/

mutual

/-- The values `writeField` has a faithful wire form for, tables with distinct keys. -/
def Encodable : Field → Prop
  | .int v => -2 ^ 31 ≤ v.toInt ∧ v.toInt < 2 ^ 31
  | .string v => v.length < 2 ^ 31
  | .bytes v => v.length < 2 ^ 31
  | .time v => v.nsec = 0
  | .array vs => (writeElems vs).out.length < 2 ^ 31 ∧ EncodableElems vs
  | .table es => (writeEntries es).out.length < 2 ^ 31 ∧ (es.map Prod.fst).Nodup ∧
      EncodableEntries es
  | .other _ => False
  | _ => True

def EncodableElems : List Field → Prop
  | [] => True
  | v :: vs => Encodable v ∧ EncodableElems vs

def EncodableEntries : Table → Prop
  | [] => True
  | (key, v) :: es => key.length ≤ 255 ∧ Encodable v ∧ EncodableEntries es

end

mutual

/-- What a value is read back as: an `int` comes back as the `int32` of its value. -/
def asRead : Field → Field
  | .int v => .int32 (Int32.ofInt v.toInt)
  | .array vs => .array (asReadElems vs)
  | .table es => .table (asReadEntries es)
  | v => v

def asReadElems : List Field → List Field
  | [] => []
  | v :: vs => asRead v :: asReadElems vs

def asReadEntries : Table → Table
  | [] => []
  | (key, v) :: es => (key, asRead v) :: asReadEntries es

end

mutual

/-- Equality of Go values: the entries of a table come in any order, at every depth. -/
inductive Same : Field → Field → Prop
  | refl (v : Field) : Same v v
  | array {vs ws : List Field} : SameElems vs ws → Same (.array vs) (.array ws)
  | table {es es' fs : Table} :
      es.Perm es' → SameEntries es' fs → Same (.table es) (.table fs)

inductive SameElems : List Field → List Field → Prop
  | nil : SameElems [] []
  | cons {v w : Field} {vs ws : List Field} :
      Same v w → SameElems vs ws → SameElems (v :: vs) (w :: ws)

inductive SameEntries : Table → Table → Prop
  | nil : SameEntries [] []
  | cons {key : Bytes} {v w : Field} {es fs : Table} :
      Same v w → SameEntries es fs → SameEntries ((key, v) :: es) ((key, w) :: fs)

end

/-! ## Strings and buffers -/

theorem putBE_one (b : UInt8) : putBE 1 b.toNat = [b] := by
  simp [putBE]

theorem writes_shortstr {s : Bytes} (h : s.length ≤ 255) :
    Writes (writeShortstr s) (putBE 1 s.length ++ s) := by
  have hlen : (UInt8.ofNat s.length).toNat = s.length :=
    UInt8.toNat_ofNat_of_lt' (by simpa using Nat.lt_succ_of_le h)
  have hw := (Writes.emit (ε := GoError) (putBE 1 s.length)).bind
    (f := fun _ => Output.emit s) (Writes.emit s)
  simpa [writeShortstr, hlen] using hw

theorem writes_longstr {s : Bytes} (h : s.length < 2 ^ 32) :
    Writes (writeLongstr s) (putBE 4 s.length ++ s) := by
  have hlen : (UInt32.ofNat s.length).toNat = s.length := UInt32.toNat_ofNat_of_lt' h
  have hw := (Writes.emit (ε := GoError) (putBE 4 s.length)).bind
    (f := fun _ => Output.emit s) (Writes.emit s)
  simpa [writeLongstr, hlen] using hw

theorem decodes_readShortstr {s : Bytes} (h : s.length ≤ 255) :
    Decodes readShortstr (putBE 1 s.length ++ s) s := by
  have hlen : (UInt8.ofNat s.length).toNat = s.length :=
    UInt8.toNat_ofNat_of_lt' (by simpa using Nat.lt_succ_of_le h)
  have hd := decodes_readUInt8 (ε := GoError) (UInt8.ofNat s.length)
  rw [hlen] at hd
  exact hd.bind (decodes_readFull_of_length hlen.symm)

theorem decodes_readLongstr {s : Bytes} (h : s.length < 2 ^ 31) :
    Decodes readLongstr (putBE 4 s.length ++ s) s := by
  have hlen : (UInt32.ofNat s.length).toNat = s.length :=
    UInt32.toNat_ofNat_of_lt' (h.trans (by decide))
  have hd := decodes_readUInt32 (ε := GoError) (UInt32.ofNat s.length)
  rw [hlen] at hd
  refine hd.bind ?_
  have hsmall : ¬ (UInt32.ofNat s.length).toNat > 0x7fffffff := by omega
  rw [if_neg hsmall]
  exact decodes_readFull_of_length hlen.symm

/-- A table is read through a copy of its payload, so a payload that is cut off is
refused before any of its entries is looked at. -/
theorem decodes_readTable {buf : Bytes} {t : Table} (hlen : buf.length < 2 ^ 31)
    (h : readEntries [] buf = .ok t []) : Decodes readTable (putBE 4 buf.length ++ buf) t := by
  have hbuf : Decodes (onBuffer buf (readEntries [])) [] t := by
    refine ⟨fun rest => by simp [onBuffer, h], ?_⟩
    intro front hpre hne
    exact (hne (List.prefix_nil.mp hpre)).elim
  have hd := (decodes_readLongstr hlen).bind (f := fun str => onBuffer str (readEntries [])) hbuf
  rwa [List.append_nil, ← readTable_eq] at hd

theorem reads_readArray {buf : Bytes} {arr : List Field} (hlen : buf.length < 2 ^ 32)
    (h : readElems [] buf = .ok arr []) : Reads readArray (putBE 4 buf.length ++ buf) arr := by
  have hn : (UInt32.ofNat buf.length).toNat = buf.length := UInt32.toNat_ofNat_of_lt' hlen
  have hd := (decodes_readUInt32 (ε := GoError) (UInt32.ofNat buf.length)).reads
  rw [hn] at hd
  rw [readArray_eq]
  refine hd.bind ?_
  intro rest
  simp [limited, hn, h]

/-! ## Single fields -/

/-- After its type byte a field is read by the branch for that type. -/
theorem reads_field {typ : UInt8} {enc : Bytes} {v : Field}
    (h : Reads (readFieldSwitch readArray readTable typ) enc v) :
    Reads readField (typ :: enc) v := by
  have hr := (decodes_readUInt8 (ε := GoError) typ).reads.bind h
  rwa [putBE_one, List.singleton_append, ← readFieldBody, ← readField_eq] at hr

/-- A byte-sized value follows its type byte directly. -/
theorem reads_field_uint8 {typ value : UInt8} {v : Field}
    (f : UInt8 → Field) (hf : f value = v)
    (hs : readFieldSwitch readArray readTable typ = (do let x ← readUInt8; return f x)) :
    Reads readField [typ, value] v := by
  have hd := ((decodes_readUInt8 (ε := GoError) value).map f).reads
  rw [putBE_one, hf, ← hs] at hd
  exact reads_field hd

theorem int_asRead (v : Int64) :
    v.toUInt64.toUInt32.toInt32 = Int32.ofInt v.toInt := by
  rw [← Int64.toInt32_ofInt, Int64.ofInt_toInt]
  apply Int32.toBitVec_inj.mp
  simp only [Int64.toInt32, BitVec.signExtend_eq_setWidth_of_le _ (show 32 ≤ 64 by decide)]
  rfl

theorem readSlice_of_lt {n : ℕ} (h : n < 2 ^ 31) :
    readSlice (UInt32.ofNat n).toInt32 = readFull n := by
  have hn : (UInt32.ofNat n).toInt32.toInt = n := Int32.toInt_ofNat_of_lt h
  rw [readSlice, hn, if_neg (by omega), Int.toNat_natCast]

/-- Replacing a key that is absent appends the entry. -/
theorem Table.set_of_not_mem {t : Table} {key : Bytes} (value : Field)
    (h : key ∉ t.map Prod.fst) : t.set key value = t ++ [(key, value)] := by
  induction t with
  | nil => rfl
  | cons e t ih =>
      obtain ⟨k, v⟩ := e
      simp only [List.map_cons, List.mem_cons, not_or] at h
      rw [Table.set, if_neg (Ne.symm h.1), ih h.2, List.cons_append]

/-! ## Round trips -/

mutual

/-- Every encodable field is written, and read back from what was written. -/
theorem field_roundTrip : ∀ v : Field, Encodable v →
    ∃ enc, Writes (writeField v) enc ∧ Reads readField enc (asRead v)
  | .nil, _ => ⟨_, Writes.emit _, reads_field (Reads.pure _)⟩
  | .bool v, _ => by
      refine ⟨_, Writes.emit _, reads_field_uint8 (fun x => .bool (x ≠ 0)) ?_ rfl⟩
      cases v <;> rfl
  | .byte v, _ => ⟨_, Writes.emit _, reads_field_uint8 .byte rfl rfl⟩
  | .int8 v, _ => ⟨_, Writes.emit _, reads_field_uint8 (fun x => .int8 x.toInt8) rfl rfl⟩
  | .int16 v, _ => ⟨_, Writes.emit _, reads_field
      ((decodes_readUInt16 v.toUInt16).map fun x => Field.int16 x.toInt16).reads⟩
  | .int v, _ => by
      refine ⟨_, Writes.emit _, reads_field ?_⟩
      have hd := ((decodes_readUInt32 (ε := GoError) v.toUInt64.toUInt32).map
        fun x => Field.int32 x.toInt32).reads
      rwa [int_asRead] at hd
  | .int32 v, _ => ⟨_, Writes.emit _, reads_field
      ((decodes_readUInt32 v.toUInt32).map fun x => Field.int32 x.toInt32).reads⟩
  | .int64 v, _ => ⟨_, Writes.emit _, reads_field
      ((decodes_readUInt64 v.toUInt64).map fun x => Field.int64 x.toInt64).reads⟩
  | .float32 bits, _ => ⟨_, Writes.emit _, reads_field
      ((decodes_readUInt32 bits).map Field.float32).reads⟩
  | .float64 bits, _ => ⟨_, Writes.emit _, reads_field
      ((decodes_readUInt64 bits).map Field.float64).reads⟩
  | .decimal v, _ => by
      refine ⟨_, Writes.emit _, reads_field ?_⟩
      have hscale := decodes_readUInt8 (ε := GoError) v.scale
      rw [putBE_one] at hscale
      have hvalue := (decodes_readUInt32 (ε := GoError) v.value.toUInt32).map
        fun x => (⟨v.scale, x.toInt32⟩ : Decimal)
      exact ((hscale.bind hvalue).map Field.decimal).reads
  | .string v, h => by
      refine ⟨_, Writes.emit _, reads_field ?_⟩
      simp only [Encodable] at h
      exact ((decodes_readLongstr h).map Field.string).reads
  | .bytes v, h => by
      simp only [Encodable] at h
      refine ⟨_, (Writes.emit _).bind (Writes.emit _), reads_field ?_⟩
      have hlen : (UInt32.ofNat v.length).toNat = v.length :=
        UInt32.toNat_ofNat_of_lt' (h.trans (by decide))
      have hd := decodes_readUInt32 (ε := GoError) (UInt32.ofNat v.length)
      rw [hlen] at hd
      refine (hd.bind (Decodes.map ?_ Field.bytes)).reads
      rw [readSlice_of_lt h]
      exact decodes_readFull v
  | .time v, h => by
      refine ⟨_, Writes.emit _, reads_field ?_⟩
      simp only [Encodable] at h
      have hd := (((decodes_readUInt64 (ε := GoError) v.unix.toUInt64).map
        fun x => Time.ofUnix x.toInt64).map Field.time).reads
      have hv : Time.ofUnix v.unix = v := by
        cases v
        simp only at h
        simp [Time.ofUnix, Time.unix, h]
      change Reads _ _ (Field.time (Time.ofUnix v.unix)) at hd
      rwa [hv] at hd
  | .array vs, h => by
      simp only [Encodable] at h
      obtain ⟨buf, hw, hr⟩ := elems_roundTrip vs h.2
      rw [hw.out_eq] at h
      refine ⟨_, hw.capture_bind ((Writes.emit _).bind (Writes.emit _)), reads_field ?_⟩
      have ha := reads_readArray (h.1.trans (by decide)) (hr [])
      have hd := ha.bind (f := fun x => pure (Field.array x)) (Reads.pure _)
      rwa [List.append_nil] at hd
  | .table es, h => by
      simp only [Encodable] at h
      obtain ⟨buf, hw, hr⟩ := entries_roundTrip es h.2.2
      rw [hw.out_eq] at h
      refine ⟨_, (Writes.emit _).bind (hw.capture_bind (writes_longstr (h.1.trans (by decide)))),
        reads_field ?_⟩
      have hnd : (([] ++ es).map Prod.fst).Nodup := h.2.1
      exact ((decodes_readTable h.1 (hr [] hnd)).map Field.table).reads
  | .other _, h => by simp only [Encodable] at h

theorem elems_roundTrip : ∀ vs : List Field, EncodableElems vs →
    ∃ enc, Writes (writeElems vs) enc ∧
      ∀ arr, readElems arr enc = .ok (arr ++ asReadElems vs) []
  | [], _ => by
      refine ⟨[], Writes.pure, fun arr => ?_⟩
      rw [readElems_nil, asReadElems, List.append_nil]
  | v :: vs, h => by
      simp only [EncodableElems] at h
      obtain ⟨enc, hw, hr⟩ := field_roundTrip v h.1
      obtain ⟨encs, hws, hrs⟩ := elems_roundTrip vs h.2
      refine ⟨_, hw.bind hws, fun arr => ?_⟩
      rw [readElems_of_ok (hr encs), hrs, asReadElems, List.append_assoc, List.singleton_append]

theorem entries_roundTrip : ∀ es : Table, EncodableEntries es →
    ∃ enc, Writes (writeEntries es) enc ∧
      ∀ t : Table, ((t ++ es).map Prod.fst).Nodup →
        readEntries t enc = .ok (t ++ asReadEntries es) []
  | [], _ => by
      refine ⟨[], Writes.pure, fun t _ => ?_⟩
      rw [readEntries_nil, asReadEntries, List.append_nil]
  | (key, v) :: es, h => by
      simp only [EncodableEntries] at h
      obtain ⟨enc, hw, hr⟩ := field_roundTrip v h.2.1
      obtain ⟨encs, hws, hrs⟩ := entries_roundTrip es h.2.2
      refine ⟨_, (writes_shortstr h.1).bind (hw.bind hws), fun t hnd => ?_⟩
      have hkey : key ∉ t.map Prod.fst := by
        rw [List.map_append, List.nodup_append] at hnd
        intro hmem
        exact hnd.2.2 key hmem key (by simp) rfl
      have hnd' : ((t ++ [(key, asRead v)] ++ es).map Prod.fst).Nodup := by
        simpa using hnd
      rw [readEntries_of_ok ((decodes_readShortstr h.1).reads _) (hr encs) (by simp [putBE]),
        Table.set_of_not_mem _ hkey, hrs _ hnd', asReadEntries, List.append_assoc,
        List.singleton_append]

end

/-! ## Any order of the entries -/

theorem encodableEntries_iff (es : Table) :
    EncodableEntries es ↔ ∀ e ∈ es, e.1.length ≤ 255 ∧ Encodable e.2 := by
  induction es with
  | nil => simp [EncodableEntries]
  | cons e es ih =>
      obtain ⟨key, v⟩ := e
      simp [EncodableEntries, ih, and_assoc]

theorem writeElems_out_cons {v : Field} (vs : List Field) (h : Encodable v) :
    (writeElems (v :: vs)).out = (writeField v).out ++ (writeElems vs).out := by
  obtain ⟨enc, hw, -⟩ := field_roundTrip v h
  rw [writeElems, hw, Output.bind_of_ok]

/-- The payload of a table is the concatenation of its entries. -/
theorem writeEntries_out {es : Table} (h : EncodableEntries es) :
    (writeEntries es).out =
      es.flatMap fun e => putBE 1 e.1.length ++ e.1 ++ (writeField e.2).out := by
  induction es with
  | nil => rfl
  | cons e es ih =>
      obtain ⟨key, v⟩ := e
      simp only [EncodableEntries] at h
      obtain ⟨enc, hw, -⟩ := field_roundTrip v h.2.1
      rw [writeEntries, writes_shortstr h.1, Output.bind_of_ok, hw, Output.bind_of_ok,
        List.flatMap_cons, ← ih h.2.2, hw.out_eq]
      simp only [List.append_assoc]

theorem encodableEntries_perm {es fs : Table} (hp : es.Perm fs) (h : EncodableEntries es) :
    EncodableEntries fs := by
  rw [encodableEntries_iff] at h ⊢
  exact fun e he => h e (hp.mem_iff.mpr he)

theorem length_writeEntries_perm {es fs : Table} (hp : es.Perm fs) (h : EncodableEntries es) :
    (writeEntries es).out.length = (writeEntries fs).out.length := by
  rw [writeEntries_out h, writeEntries_out (encodableEntries_perm hp h)]
  exact (hp.flatMap_right _).length_eq

theorem length_writeField_array {vs : List Field} (h : EncodableElems vs) :
    (writeField (.array vs)).out.length = 5 + (writeElems vs).out.length := by
  obtain ⟨enc, hw, -⟩ := elems_roundTrip vs h
  have hout := (hw.capture_bind (f := fun sec => do
    Output.emit ('A'.toUInt8 :: putBE 4 sec.length)
    Output.emit sec) ((Writes.emit _).bind (Writes.emit _))).out_eq
  rw [writeField, hout, hw.out_eq]
  simp
  omega

theorem length_writeField_table {es : Table} (h : EncodableEntries es)
    (hlen : (writeEntries es).out.length < 2 ^ 32) :
    (writeField (.table es)).out.length = 5 + (writeEntries es).out.length := by
  obtain ⟨enc, hw, -⟩ := entries_roundTrip es h
  rw [hw.out_eq] at hlen ⊢
  have hout := ((Writes.emit (ε := GoError) ['F'.toUInt8]).bind
    (f := fun _ => (writeEntries es).capture >>= writeLongstr)
    (hw.capture_bind (writes_longstr hlen))).out_eq
  rw [writeField, hout]
  simp
  omega

mutual

/-- The domain of the codec and the encoded length do not depend on the order. -/
theorem Same.encodable : ∀ {v w : Field}, Same v w → Encodable v →
    Encodable w ∧ (writeField w).out.length = (writeField v).out.length
  | _, _, .refl v, h => ⟨h, rfl⟩
  | _, _, @Same.array vs ws hs, h => by
      simp only [Encodable] at h
      obtain ⟨hws, hlen⟩ := hs.encodable h.2
      refine ⟨by simp only [Encodable]; exact ⟨hlen ▸ h.1, hws⟩, ?_⟩
      rw [length_writeField_array hws, length_writeField_array h.2, hlen]
  | _, _, @Same.table es es' fs hp hs, h => by
      simp only [Encodable] at h
      have hes' := encodableEntries_perm hp h.2.2
      have hlen' := length_writeEntries_perm hp h.2.2
      obtain ⟨hfs, hlen, hkeys⟩ := hs.encodable hes'
      have hsmall : (writeEntries fs).out.length < 2 ^ 31 := by
        rw [hlen, ← hlen']
        exact h.1
      refine ⟨by
        simp only [Encodable]
        exact ⟨hsmall, hkeys ▸ (hp.map Prod.fst).nodup_iff.mp h.2.1, hfs⟩, ?_⟩
      rw [length_writeField_table hfs (hsmall.trans (by decide)),
        length_writeField_table h.2.2 (h.1.trans (by decide)), hlen, hlen']

theorem SameElems.encodable : ∀ {vs ws : List Field}, SameElems vs ws → EncodableElems vs →
    EncodableElems ws ∧ (writeElems ws).out.length = (writeElems vs).out.length
  | _, _, .nil, h => ⟨h, rfl⟩
  | _, _, @SameElems.cons v w vs ws hv hs, h => by
      simp only [EncodableElems] at h ⊢
      obtain ⟨hw, hlen⟩ := hv.encodable h.1
      obtain ⟨hws, hlens⟩ := hs.encodable h.2
      refine ⟨⟨hw, hws⟩, ?_⟩
      rw [writeElems_out_cons ws hw, writeElems_out_cons vs h.1, List.length_append,
        List.length_append, hlen, hlens]

theorem SameEntries.encodable : ∀ {es fs : Table}, SameEntries es fs → EncodableEntries es →
    EncodableEntries fs ∧ (writeEntries fs).out.length = (writeEntries es).out.length ∧
      fs.map Prod.fst = es.map Prod.fst
  | _, _, .nil, h => ⟨h, rfl, rfl⟩
  | _, _, @SameEntries.cons key v w es fs hv hs, h => by
      have hes := h
      simp only [EncodableEntries] at h
      obtain ⟨hw, hlen⟩ := hv.encodable h.2.1
      obtain ⟨hfs, hlens, hkeys⟩ := hs.encodable h.2.2
      have hfs' : EncodableEntries ((key, w) :: fs) := by
        simp only [EncodableEntries]
        exact ⟨h.1, hw, hfs⟩
      refine ⟨hfs', ?_, by simp [hkeys]⟩
      rw [writeEntries_out hfs] at hlens
      rw [writeEntries_out h.2.2] at hlens
      rw [writeEntries_out hfs', writeEntries_out hes]
      simp only [List.flatMap_cons, List.length_append, hlen, hlens]

end

theorem asReadEntries_eq_map (es : Table) :
    asReadEntries es = es.map fun e => (e.1, asRead e.2) := by
  induction es with
  | nil => rfl
  | cons e es ih =>
      obtain ⟨key, v⟩ := e
      rw [asReadEntries, ih, List.map_cons]

mutual

theorem Same.asRead : ∀ {v w : Field}, Same v w → Same (asRead v) (asRead w)
  | _, _, .refl v => .refl _
  | _, _, .array hs => .array hs.asRead
  | _, _, @Same.table es es' fs hp hs => by
      refine @Same.table _ (asReadEntries es') _ ?_ hs.asRead
      rw [asReadEntries_eq_map, asReadEntries_eq_map]
      exact hp.map _

theorem SameElems.asRead : ∀ {vs ws : List Field}, SameElems vs ws →
    SameElems (asReadElems vs) (asReadElems ws)
  | _, _, .nil => .nil
  | _, _, .cons hv hs => .cons hv.asRead hs.asRead

theorem SameEntries.asRead : ∀ {es fs : Table}, SameEntries es fs →
    SameEntries (asReadEntries es) (asReadEntries fs)
  | _, _, .nil => .nil
  | _, _, .cons hv hs => .cons hv.asRead hs.asRead

end

/-- Decoding of a table in its own entry order, with what it takes to cut it short. -/
theorem table_roundTrip {t : Table} (h : Encodable (.table t)) :
    ∃ enc, Writes (writeTable t) enc ∧ Decodes readTable enc (asReadEntries t) := by
  simp only [Encodable] at h
  obtain ⟨buf, hw, hr⟩ := entries_roundTrip t h.2.2
  rw [hw.out_eq] at h
  have hnd : (([] ++ t).map Prod.fst).Nodup := h.2.1
  exact ⟨_, hw.capture_bind (writes_longstr (h.1.trans (by decide))),
    decodes_readTable h.1 (hr [] hnd)⟩

/-- A table is read back from its encoding, whatever order the iteration over its maps
takes and whatever follows the encoding. -/
theorem readTable_writeTable (t order : Table) (rest : Bytes)
    (hdom : Encodable (.table t)) (horder : Same (.table t) (.table order)) :
    ∃ enc u, Writes (writeTable order) enc ∧ readTable (enc ++ rest) = .ok u rest ∧
      Same (asRead (.table t)) (.table u) := by
  obtain ⟨enc, hw, hd⟩ := table_roundTrip (horder.encodable hdom).1
  exact ⟨enc, asReadEntries order, hw, hd.reads rest, horder.asRead⟩

/-- A nested table, visited from its last entry to its first and followed by a byte. -/
theorem readTable_writeTable_nested :
    ∃ enc u, Writes (writeTable [([98], .table [([100], .nil), ([99], .bool true)]),
        ([97], .array [.int 5, .string [104, 105]])]) enc ∧
      readTable (enc ++ [206]) = .ok u [206] ∧
      Same (asRead (.table [([97], .array [.int 5, .string [104, 105]]),
        ([98], .table [([99], .bool true), ([100], .nil)])])) (.table u) := by
  apply readTable_writeTable
  · simp only [Encodable, EncodableEntries, EncodableElems]
    decide
  · refine .table (List.Perm.swap _ _ _) (.cons ?_ (.cons (.refl _) .nil))
    exact .table (List.Perm.swap _ _ _) (.cons (.refl _) (.cons (.refl _) .nil))

end Amqp091

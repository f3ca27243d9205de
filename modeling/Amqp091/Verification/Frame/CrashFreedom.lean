import Amqp091.Shared.Outcome
import Amqp091.Verification.Frame.Equations
import Mathlib.Logic.Relation

/-! # Crashes of the frame decoder

The calls `ReadFrame` makes on the bytes it is given form a relation between call
sites. A crash is traced along it to the one branch that can raise it: a byte-array
field whose 32-bit length is negative. -/

namespace Amqp091

open ByteCodec Reader

/-- A function of the decoder together with the input it is called on. `entries` and
`elems` are the rounds of the loops of `readTable` and `readArray`. -/
inductive Site where
  | frame (bs : Bytes)
  | args (kinds : List ArgKind) (bs : Bytes)
  | table (bs : Bytes)
  | entries (bs : Bytes)
  | field (bs : Bytes)
  | array (bs : Bytes)
  | elems (bs : Bytes)

/-- `Calls s s'`: the call `s` reaches the call `s'`. -/
inductive Calls : Site → Site → Prop
  | frame_args {channel classId methodId : UInt16} {size : UInt32} {m : Method} {rest : Bytes}
      (h : methodOf classId methodId = .ok m) :
      Calls (.frame (frameHeaderBytes frameMethod channel size.toNat ++
          (putBE 2 classId.toNat ++ (putBE 2 methodId.toNat ++ rest))))
        (.args m.layout rest)
  | frame_headers {channel classId weight flags : UInt16} {size : UInt32} {bodySize : UInt64}
      {contentType contentEncoding bs mid rest : Bytes}
      (htype : readIf flags flagContentType readShortstr [] bs = .ok contentType mid)
      (hencoding : readIf flags flagContentEncoding readShortstr [] mid =
        .ok contentEncoding rest)
      (hflag : hasProperty flags flagHeaders = true) :
      Calls (.frame (frameHeaderBytes frameHeader channel size.toNat ++
          (putBE 2 classId.toNat ++ (putBE 2 weight.toNat ++ (putBE 8 bodySize.toNat ++
            (putBE 2 flags.toNat ++ bs))))))
        (.table rest)
  | args_table (kinds : List ArgKind) (bs : Bytes) :
      Calls (.args (.table :: kinds) bs) (.table bs)
  | args_next {kind : ArgKind} {kinds : List ArgKind} {v : kind.Val} {bs rest : Bytes}
      (h : readArg kind bs = .ok v rest) : Calls (.args (kind :: kinds) bs) (.args kinds rest)
  | table_entries {bs buf rest : Bytes} (h : readLongstr bs = .ok buf rest) :
      Calls (.table bs) (.entries buf)
  | entries_field {bs key mid : Bytes} (h : readShortstr bs = .ok key mid) :
      Calls (.entries bs) (.field mid)
  | entries_next {bs key mid rest : Bytes} {v : Field} (hkey : readShortstr bs = .ok key mid)
      (h : readField mid = .ok v rest) : Calls (.entries bs) (.entries rest)
  | field_array (rest : Bytes) : Calls (.field ('A'.toUInt8 :: rest)) (.array rest)
  | field_table (rest : Bytes) : Calls (.field ('F'.toUInt8 :: rest)) (.table rest)
  | array_elems (size : UInt32) (rest : Bytes) :
      Calls (.array (putBE 4 size.toNat ++ rest)) (.elems (rest.take size.toNat))
  | elems_field (bs : Bytes) : Calls (.elems bs) (.field bs)
  | elems_next {bs rest : Bytes} {v : Field} (h : readField bs = .ok v rest) :
      Calls (.elems bs) (.elems rest)

/-- A byte-array field whose announced length is negative as an `int32`. -/
def NegativeByteArray (bs : Bytes) : Prop :=
  ∃ (len : UInt32) (rest : Bytes), 2 ^ 31 ≤ len.toNat ∧
    bs = 'x'.toUInt8 :: (putBE 4 len.toNat ++ rest)

/-- Some call of `readField` below `s` is made on a byte array of negative length. -/
def Faults (s : Site) : Prop :=
  ∃ bs, Relation.ReflTransGen Calls s (.field bs) ∧ NegativeByteArray bs

theorem Faults.head {s s' : Site} (hcall : Calls s s') (h : Faults s') : Faults s := by
  obtain ⟨bs, hreach, hneg⟩ := h
  exact ⟨bs, Relation.ReflTransGen.head hcall hreach, hneg⟩

/-! ## The field readers -/

theorem safe_readShortstr : Safe readShortstr :=
  Safe.readUInt8.bind fun length => Safe.readFull length.toNat

theorem safe_readLongstr : Safe readLongstr := by
  refine Safe.readUInt32.bind fun length => ?_
  split
  · exact Safe.pure []
  · exact Safe.readFull length.toNat

theorem safe_readDecimal : Safe readDecimal :=
  Safe.readUInt8.bind fun _ => Safe.readUInt32.bind fun _ => Safe.pure _

theorem safe_readTimestamp : Safe readTimestamp :=
  Safe.readUInt64.bind fun _ => Safe.pure _

theorem toInt_toInt32_neg (n : UInt32) : n.toInt32.toInt < 0 ↔ 2 ^ 31 ≤ n.toNat := by
  have hn := n.toNat_lt
  rw [← Int32.toInt_toBitVec, UInt32.toBitVec_toInt32, BitVec.toInt_eq_toNat_cond,
    UInt32.toNat_toBitVec]
  split <;> omega

theorem readSlice_eq_panic {n : UInt32} (bs : Bytes) :
    readSlice n.toInt32 bs = .panic ↔ 2 ^ 31 ≤ n.toNat := by
  rw [← toInt_toInt32_neg, readSlice]
  split
  · rename_i h
    simp [h]
  · rename_i h
    simp only [h, iff_false]
    exact Safe.readFull _ bs

theorem eq_toUInt8 {typ : UInt8} {c : Char} (h : Char.ofUInt8 typ = c) : typ = c.toUInt8 := by
  subst h
  exact (UInt8.toUInt8_toUInt32 typ).symm

/-- The type switch panics in a nested value or on a negative length. -/
theorem readFieldSwitch_panic {a : FieldReader (List Field)} {t : FieldReader Table}
    {typ : UInt8} {bs : Bytes} (h : readFieldSwitch a t typ bs = .panic) :
    (typ = 'A'.toUInt8 ∧ a bs = .panic) ∨ (typ = 'F'.toUInt8 ∧ t bs = .panic) ∨
      NegativeByteArray (typ :: bs) := by
  generalize hp : readFieldSwitch a t typ = p at h
  unfold readFieldSwitch at hp
  split at hp <;> subst hp
  case h_11 heq => exact .inl ⟨eq_toUInt8 heq, map_eq_panic.mp h⟩
  case h_13 heq => exact .inr (.inl ⟨eq_toUInt8 heq, map_eq_panic.mp h⟩)
  case h_14 heq =>
    obtain ⟨len, mid, hlen, h⟩ := Safe.readUInt32.bind_eq_panic.mp h
    have hneg := (readSlice_eq_panic _).mp (map_eq_panic.mp h)
    rw [readUInt32_eq_ok.mp hlen, eq_toUInt8 heq]
    exact .inr (.inr ⟨len, mid, hneg, rfl⟩)
  case h_9 => exact (safe_readDecimal bs (map_eq_panic.mp h)).elim
  case h_10 => exact (safe_readLongstr bs (map_eq_panic.mp h)).elim
  case h_12 => exact (safe_readTimestamp bs (map_eq_panic.mp h)).elim
  case h_15 => cases h
  case h_16 => cases h
  all_goals
    first
    | exact (Safe.readUInt8 bs (map_eq_panic.mp h)).elim
    | exact (Safe.readUInt16 bs (map_eq_panic.mp h)).elim
    | exact (Safe.readUInt32 bs (map_eq_panic.mp h)).elim
    | exact (Safe.readUInt64 bs (map_eq_panic.mp h)).elim

theorem readFieldBody_faults {a : FieldReader (List Field)} {t : FieldReader Table}
    (ha : ∀ bs, a bs = .panic → Faults (.array bs))
    (ht : ∀ bs, t bs = .panic → Faults (.table bs)) {bs : Bytes}
    (h : readFieldBody a t bs = .panic) : Faults (.field bs) := by
  obtain ⟨typ, rest, htyp, hswitch⟩ := Safe.readUInt8.bind_eq_panic.mp h
  obtain rfl : bs = typ :: rest := by
    simpa [putBE] using readUInt8_eq_ok.mp htyp
  rcases readFieldSwitch_panic hswitch with ⟨rfl, harray⟩ | ⟨rfl, htable⟩ | hneg
  · exact (ha rest harray).head (.field_array rest)
  · exact (ht rest htable).head (.field_table rest)
  · exact ⟨_, Relation.ReflTransGen.refl, hneg⟩

theorem readEntriesBody_faults {f : FieldReader Field} {next : Table → FieldReader Table}
    (happrox : Approx f readField) (hf : ∀ bs, f bs = .panic → Faults (.field bs))
    (hnext : ∀ t bs, next t bs = .panic → Faults (.entries bs)) {t : Table} {bs : Bytes}
    (h : readEntriesBody f next t bs = .panic) : Faults (.entries bs) := by
  unfold readEntriesBody at h
  split at h
  · cases h
  · obtain ⟨key, mid, hkey, h⟩ := safe_readShortstr.bind_eq_panic.mp h
    rcases bind_eq_panic.mp h with h | ⟨v, rest, hv, h⟩
    · exact (hf mid h).head (.entries_field hkey)
    · have hread : readField mid = .ok v rest :=
        (happrox.eq_of_ne (by rw [hv]; simp)).symm.trans hv
      exact (hnext _ rest h).head (.entries_next hkey hread)

theorem readElemsBody_faults {f : FieldReader Field}
    {next : List Field → FieldReader (List Field)}
    (happrox : Approx f readField) (hf : ∀ bs, f bs = .panic → Faults (.field bs))
    (hnext : ∀ arr bs, next arr bs = .panic → Faults (.elems bs)) {arr : List Field}
    {bs : Bytes} (h : readElemsBody f next arr bs = .panic) : Faults (.elems bs) := by
  rcases bind_eq_panic.mp h with h | ⟨result, rest, hresult, h⟩
  · exact (hf bs (attempt_eq_panic.mp h)).head (.elems_field bs)
  · match result with
    | .ok v =>
        have hv := attempt_eq_ok.mp hresult
        have hread : readField bs = .ok v rest :=
          (happrox.eq_of_ne (by rw [hv]; simp)).symm.trans hv
        exact (hnext _ rest h).head (.elems_next hread)
    | .error .eof => cases h
    | .error .unexpectedEOF => cases h
    | .error (.other e) => cases h

/-- A panic of the bounded readers comes from a byte array of negative length. -/
theorem aux_faults (n : ℕ) :
    (∀ bs, readFieldAux n bs = .panic → Faults (.field bs)) ∧
    (∀ bs, readTableAux n bs = .panic → Faults (.table bs)) ∧
    (∀ t bs, readEntriesAux n t bs = .panic → Faults (.entries bs)) ∧
    (∀ bs, readArrayAux n bs = .panic → Faults (.array bs)) ∧
    (∀ arr bs, readElemsAux n arr bs = .panic → Faults (.elems bs)) := by
  induction n with
  | zero =>
      refine ⟨?_, ?_, ?_, ?_, ?_⟩
      all_goals
        intros
        rename_i h
        cases h
  | succ n ih =>
      obtain ⟨hfield, htable, hentries, harray, helems⟩ := ih
      refine ⟨fun bs => readFieldBody_faults harray htable, ?_,
        fun t bs => readEntriesBody_faults (readFieldAux_approx n) hfield hentries, ?_,
        fun arr bs => readElemsBody_faults (readFieldAux_approx n) hfield helems⟩
      · intro bs h
        obtain ⟨buf, rest, hbuf, h⟩ := safe_readLongstr.bind_eq_panic.mp h
        exact (hentries [] buf (onBuffer_eq_panic.mp h)).head (.table_entries hbuf)
      · intro bs h
        obtain ⟨size, rest, hsize, h⟩ := Safe.readUInt32.bind_eq_panic.mp h
        rw [readUInt32_eq_ok.mp hsize]
        exact (helems [] _ (limited_eq_panic.mp h)).head (.array_elems size rest)

theorem readTable_faults {bs : Bytes} (h : readTable bs = .panic) : Faults (.table bs) :=
  (aux_faults _).2.1 bs h

/-! ## Crashes travel to the caller -/

/-- The call `s` panics, a loop round whatever it has accumulated so far. -/
def Panics : Site → Prop
  | .frame bs => readFrame bs = .panic
  | .args kinds bs => readArgs kinds bs = .panic
  | .table bs => readTable bs = .panic
  | .entries bs => ∀ t, readEntries t bs = .panic
  | .field bs => readField bs = .panic
  | .array bs => readArray bs = .panic
  | .elems bs => ∀ arr, readElems arr bs = .panic

theorem readField_cons (typ : UInt8) (rest : Bytes) :
    readField (typ :: rest) = readFieldSwitch readArray readTable typ rest := by
  have hread := (decodes_readUInt8 (ε := GoError) typ).reads rest
  rw [putBE_one, List.singleton_append] at hread
  rw [readField_eq, readFieldBody, bind_apply, hread, Result.andThen_ok]

theorem NegativeByteArray.panics {bs : Bytes} (h : NegativeByteArray bs) :
    Panics (.field bs) := by
  obtain ⟨len, rest, hneg, rfl⟩ := h
  have hread := (decodes_readUInt32 (ε := GoError) len).reads rest
  have hslice := map_eq_panic (f := Field.bytes).mpr ((readSlice_eq_panic rest).mpr hneg)
  have hswitch : readFieldSwitch readArray readTable 'x'.toUInt8 = (do
      let len ← readUInt32
      let value ← readSlice len.toInt32
      return .bytes value) := rfl
  rw [Panics, readField_cons, hswitch, bind_apply, hread, Result.andThen_ok]
  exact hslice

theorem readShortstr_ne_nil {bs key mid : Bytes} (h : readShortstr bs = .ok key mid) :
    bs ≠ [] := by
  rintro rfl
  cases h

theorem safe_readIf {α : Type} {flags : UInt16} {flag : ℕ} {p : FieldReader α} {zero : α}
    (h : Safe p) : Safe (readIf flags flag p zero) := by
  unfold readIf
  split
  · exact h
  · exact Safe.pure zero

/-- Among the properties only the header table can panic. -/
theorem readProperties_eq_panic {flags : UInt16} {bs : Bytes} :
    readProperties flags bs = .panic ↔ ∃ contentType mid contentEncoding rest,
      readIf flags flagContentType readShortstr [] bs = .ok contentType mid ∧
      readIf flags flagContentEncoding readShortstr [] mid = .ok contentEncoding rest ∧
      hasProperty flags flagHeaders = true ∧ readTable rest = .panic := by
  have hshort : ∀ flag, Safe (readIf flags flag readShortstr []) :=
    fun _ => safe_readIf safe_readShortstr
  have hoctet : ∀ flag, Safe (readIf flags flag readUInt8 0) :=
    fun _ => safe_readIf Safe.readUInt8
  have htime : Safe (readIf flags flagTimestamp readTimestamp Time.zero) :=
    safe_readIf safe_readTimestamp
  rw [readProperties, (hshort _).bind_eq_panic]
  refine exists_congr fun contentType => exists_congr fun mid => ?_
  rw [(hshort _).bind_eq_panic]
  simp only [← exists_and_left]
  refine exists_congr fun contentEncoding => exists_congr fun rest => ?_
  refine and_congr_right fun _ => and_congr_right fun _ => ?_
  rw [bind_eq_panic, or_iff_left]
  · unfold readIf
    split
    · rename_i hflag
      simp [hflag]
    · rename_i hflag
      simp [hflag]
  · rintro ⟨headers, rest', -, h⟩
    refine absurd h (Safe.bind (hoctet _) (fun _ => ?_) rest')
    refine Safe.bind (hoctet _) fun _ => ?_
    refine Safe.bind (hshort _) fun _ => ?_
    refine Safe.bind (hshort _) fun _ => ?_
    refine Safe.bind (hshort _) fun _ => ?_
    refine Safe.bind (hshort _) fun _ => ?_
    refine Safe.bind htime fun _ => ?_
    refine Safe.bind (hshort _) fun _ => ?_
    refine Safe.bind (hshort _) fun _ => ?_
    refine Safe.bind (hshort _) fun _ => ?_
    exact Safe.bind (hshort _) fun _ => Safe.pure _

theorem namedResults_eq_panic {p : FieldReader Frame} {bs : Bytes} :
    namedResults p bs = .panic ↔ p bs = .panic := by
  rw [namedResults, bind_eq_panic, attempt_eq_panic, or_iff_left]
  rintro ⟨result, mid, -, h⟩
  cases result <;> cases h

theorem parseMethodFrame_eq_panic {channel : UInt16} {size : UInt32} {bs : Bytes} :
    parseMethodFrame channel size bs = .panic ↔ ∃ classId methodId m rest,
      bs = putBE 2 classId.toNat ++ (putBE 2 methodId.toNat ++ rest) ∧
      methodOf classId methodId = .ok m ∧ readArgs m.layout rest = .panic := by
  rw [parseMethodFrame, namedResults_eq_panic, Safe.readUInt16.bind_eq_panic]
  constructor
  · rintro ⟨classId, mid, hclass, h⟩
    obtain ⟨methodId, rest, hmethod, h⟩ := Safe.readUInt16.bind_eq_panic.mp h
    rw [readUInt16_eq_ok.mp hclass, readUInt16_eq_ok.mp hmethod]
    cases hm : methodOf classId methodId with
    | ok m =>
        rw [hm] at h
        exact ⟨classId, methodId, m, rest, rfl, hm, map_eq_panic.mp (map_eq_panic.mp h)⟩
    | error e =>
        rw [hm] at h
        cases h
  · rintro ⟨classId, methodId, m, rest, rfl, hm, h⟩
    refine ⟨classId, _, readUInt16_eq_ok.mpr rfl, ?_⟩
    refine Safe.readUInt16.bind_eq_panic.mpr ⟨methodId, rest, readUInt16_eq_ok.mpr rfl, ?_⟩
    rw [hm]
    exact map_eq_panic.mpr (map_eq_panic.mpr h)

theorem parseHeaderFrame_eq_panic {channel : UInt16} {size : UInt32} {bs : Bytes} :
    parseHeaderFrame channel size bs = .panic ↔ ∃ classId weight bodySize flags rest,
      bs = putBE 2 (UInt16.toNat classId) ++ (putBE 2 (UInt16.toNat weight) ++
        (putBE 8 (UInt64.toNat bodySize) ++ (putBE 2 (UInt16.toNat flags) ++ rest))) ∧
      readProperties flags rest = .panic := by
  rw [parseHeaderFrame, namedResults_eq_panic, Safe.readUInt16.bind_eq_panic]
  constructor
  · rintro ⟨classId, mid, hclass, h⟩
    obtain ⟨weight, mid, hweight, h⟩ := Safe.readUInt16.bind_eq_panic.mp h
    obtain ⟨bodySize, mid, hsize, h⟩ := Safe.readUInt64.bind_eq_panic.mp h
    obtain ⟨flags, mid, hflags, h⟩ := Safe.readUInt16.bind_eq_panic.mp h
    rw [readUInt16_eq_ok.mp hclass, readUInt16_eq_ok.mp hweight, readUInt64_eq_ok.mp hsize,
      readUInt16_eq_ok.mp hflags]
    exact ⟨classId, weight, bodySize, flags, mid, rfl, map_eq_panic.mp h⟩
  · rintro ⟨classId, weight, bodySize, flags, rest, rfl, h⟩
    refine ⟨classId, _, readUInt16_eq_ok.mpr rfl, ?_⟩
    refine Safe.readUInt16.bind_eq_panic.mpr ⟨weight, _, readUInt16_eq_ok.mpr rfl, ?_⟩
    refine Safe.readUInt64.bind_eq_panic.mpr ⟨bodySize, _, readUInt64_eq_ok.mpr rfl, ?_⟩
    refine Safe.readUInt16.bind_eq_panic.mpr ⟨flags, _, readUInt16_eq_ok.mpr rfl, ?_⟩
    exact map_eq_panic.mpr h

theorem safe_endFrame (parsed : Parsed) : Safe (endFrame parsed) := by
  unfold endFrame
  split
  · exact Safe.pure _
  · refine (Safe.readFull 1).attempt.bind fun result => ?_
    split
    · exact Safe.pure _
    · split
      · exact Safe.pure _
      · exact Safe.pure _

theorem parseFrame_eq_panic {typ : UInt8} {channel : UInt16} {size : UInt32} {bs : Bytes} :
    parseFrame typ channel size bs = .panic ↔
      (typ = frameMethod ∧ parseMethodFrame channel size bs = .panic) ∨
      (typ = frameHeader ∧ parseHeaderFrame channel size bs = .panic) := by
  have hbody : parseBodyFrame channel size bs ≠ .panic := by
    rw [parseBodyFrame, ne_eq, namedResults_eq_panic]
    exact (Safe.readFull _).bind (fun _ => Safe.pure _) bs
  by_cases hm : typ = frameMethod
  · subst hm
    simp [parseFrame, frameMethod, frameHeader]
  by_cases hh : typ = frameHeader
  · subst hh
    simp [parseFrame, frameMethod, frameHeader]
  by_cases hb : typ = frameBody
  · rw [hb, parseFrame_body]
    simpa [frameMethod, frameHeader, frameBody] using hbody
  · simp only [parseFrame, hm, hh, hb, if_false, false_and, or_self, iff_false]
    split
    · unfold parseHeartbeatFrame
      split
      · exact Safe.pure _ bs
      · exact Safe.pure _ bs
    · exact Safe.pure _ bs

/-- Seven bytes are a frame header. -/
theorem exists_frameHeader {bs : Bytes} (h : 7 ≤ bs.length) :
    ∃ typ channel, ∃ size : UInt32, ∃ rest,
      bs = frameHeaderBytes typ channel size.toNat ++ rest := by
  have hread : ∀ n bs, n ≤ List.length bs → ∃ v rest,
      (readFull n : FieldReader Bytes) bs = .ok v rest ∧ rest.length = bs.length - n := by
    intro n bs hn
    exact ⟨_, _, by rw [readFull, if_pos hn], List.length_drop⟩
  obtain ⟨v, rest, hv, hlen⟩ := hread 1 bs (by omega)
  obtain ⟨hlt, rfl⟩ := readFull_numeral hv
  obtain ⟨v', rest', hv', hlen'⟩ := hread 2 rest (by omega)
  obtain ⟨hlt', rfl⟩ := readFull_numeral hv'
  obtain ⟨v'', rest'', hv'', -⟩ := hread 4 rest' (by omega)
  obtain ⟨hlt'', rfl⟩ := readFull_numeral hv''
  refine ⟨UInt8.ofNat (getBE v), UInt16.ofNat (getBE v'), UInt32.ofNat (getBE v''), rest'', ?_⟩
  rw [UInt32.toNat_ofNat_of_lt' hlt'', frameHeaderBytes, UInt16.toNat_ofNat_of_lt' hlt']
  simp [putBE]

theorem readFrame_header_eq_panic {typ : UInt8} {channel : UInt16} {size : UInt32}
    {bs : Bytes} :
    readFrame (frameHeaderBytes typ channel size.toNat ++ bs) = .panic ↔
      parseFrame typ channel size bs = .panic := by
  rw [readFrame_header, UInt32.ofNat_toNat, bind_eq_panic, or_iff_left]
  rintro ⟨parsed, mid, -, h⟩
  exact safe_endFrame parsed mid h

theorem readArgs_faults {kinds : List ArgKind} {bs : Bytes}
    (h : readArgs kinds bs = .panic) : Faults (.args kinds bs) := by
  induction kinds generalizing bs with
  | nil => cases h
  | cons kind kinds ih =>
      rcases bind_eq_panic.mp h with h | ⟨v, rest, hv, h⟩
      · cases kind with
        | table => exact (readTable_faults h).head (.args_table kinds bs)
        | octet => exact (Safe.readUInt8 bs h).elim
        | short => exact (Safe.readUInt16 bs h).elim
        | long => exact (Safe.readUInt32 bs h).elim
        | longlong => exact (Safe.readUInt64 bs h).elim
        | shortstr => exact (safe_readShortstr bs h).elim
        | longstr => exact (safe_readLongstr bs h).elim
        | bits n => exact (Safe.readUInt8 bs (map_eq_panic.mp h)).elim
      · exact (ih (map_eq_panic.mp h)).head (.args_next hv)

theorem readFrame_faults {bs : Bytes} (h : readFrame bs = .panic) : Faults (.frame bs) := by
  by_cases hshort : bs.length < 7
  · obtain ⟨e, he⟩ := readFrame_of_short hshort
    rw [he] at h
    cases h
  obtain ⟨typ, channel, size, rest, rfl⟩ := exists_frameHeader (Nat.le_of_not_lt hshort)
  rcases parseFrame_eq_panic.mp (readFrame_header_eq_panic.mp h) with ⟨rfl, hp⟩ | ⟨rfl, hp⟩
  · obtain ⟨classId, methodId, m, args, rfl, hm, hargs⟩ := parseMethodFrame_eq_panic.mp hp
    exact (readArgs_faults hargs).head (.frame_args hm)
  · obtain ⟨classId, weight, bodySize, flags, rest, rfl, hprops⟩ :=
      parseHeaderFrame_eq_panic.mp hp
    obtain ⟨contentType, mid, contentEncoding, rest, htype, hencoding, hflag, htable⟩ :=
      readProperties_eq_panic.mp hprops
    exact (readTable_faults htable).head (.frame_headers htype hencoding hflag)

/-- A panic of a call is a panic of its caller. -/
theorem Calls.panics {s s' : Site} (hcall : Calls s s') (h : Panics s') : Panics s := by
  cases hcall with
  | frame_args hm =>
      refine readFrame_header_eq_panic.mpr (parseFrame_eq_panic.mpr (.inl ⟨rfl, ?_⟩))
      exact parseMethodFrame_eq_panic.mpr ⟨_, _, _, _, rfl, hm, h⟩
  | frame_headers htype hencoding hflag =>
      refine readFrame_header_eq_panic.mpr (parseFrame_eq_panic.mpr (.inr ⟨rfl, ?_⟩))
      refine parseHeaderFrame_eq_panic.mpr ⟨_, _, _, _, _, rfl, ?_⟩
      exact readProperties_eq_panic.mpr ⟨_, _, _, _, htype, hencoding, hflag, h⟩
  | args_table kinds bs => exact bind_eq_panic.mpr (.inl h)
  | args_next hv => exact bind_eq_panic.mpr (.inr ⟨_, _, hv, map_eq_panic.mpr h⟩)
  | table_entries hbuf =>
      rw [Panics, readTable_eq, safe_readLongstr.bind_eq_panic]
      exact ⟨_, _, hbuf, onBuffer_eq_panic.mpr (h [])⟩
  | entries_field hkey =>
      intro t
      rw [readEntries_eq, readEntriesBody, if_neg (readShortstr_ne_nil hkey),
        safe_readShortstr.bind_eq_panic]
      exact ⟨_, _, hkey, bind_eq_panic.mpr (.inl h)⟩
  | entries_next hkey hv =>
      intro t
      rw [readEntries_of_ok hkey hv (readShortstr_ne_nil hkey)]
      exact h _
  | field_array rest =>
      rw [Panics, readField_cons]
      exact map_eq_panic (f := Field.array).mpr h
  | field_table rest =>
      rw [Panics, readField_cons]
      exact map_eq_panic (f := Field.table).mpr h
  | array_elems size rest =>
      rw [Panics, readArray_eq, Safe.readUInt32.bind_eq_panic]
      exact ⟨size, rest, readUInt32_eq_ok.mpr rfl, limited_eq_panic.mpr (h [])⟩
  | elems_field bs =>
      intro arr
      rw [readElems_eq]
      exact bind_eq_panic.mpr (.inl (attempt_eq_panic.mpr h))
  | elems_next hv =>
      intro arr
      rw [readElems_of_ok hv]
      exact h _

theorem Faults.panics {s : Site} (h : Faults s) : Panics s := by
  obtain ⟨bs, hreach, hneg⟩ := h
  induction hreach using Relation.ReflTransGen.head_induction_on with
  | refl => exact hneg.panics
  | head hcall _ ih => exact hcall.panics ih

/-! ## Results of the decoder -/

/-- A parser that panics, or returns either a frame or an error and not both. -/
def Settled (p : FieldReader Parsed) : Prop :=
  ∀ bs, p bs = .panic ∨
    ∃ parsed rest, p bs = .ok parsed rest ∧ (parsed.frame.isSome ↔ parsed.err = none)

theorem settled_namedResults {p : FieldReader Frame} (h : Halts p) :
    Settled (namedResults p) := by
  intro bs
  rw [namedResults, bind_apply, attempt]
  cases hp : p bs with
  | ok f rest => exact .inr ⟨_, _, rfl, by simp⟩
  | fail e rest => exact .inr ⟨_, _, rfl, by simp⟩
  | panic => exact .inl rfl
  | timeout => exact (h bs hp).elim

theorem halts_readShortstr : Halts readShortstr :=
  Halts.readUInt8.bind fun length => Halts.readFull length.toNat

theorem halts_readLongstr : Halts readLongstr := by
  refine Halts.readUInt32.bind fun length => ?_
  split
  · exact Halts.pure []
  · exact Halts.readFull length.toNat

theorem halts_readArg (kind : ArgKind) : Halts (readArg kind) := by
  cases kind with
  | octet => exact Halts.readUInt8
  | short => exact Halts.readUInt16
  | long => exact Halts.readUInt32
  | longlong => exact Halts.readUInt64
  | shortstr => exact halts_readShortstr
  | longstr => exact halts_readLongstr
  | table => exact readTable_ne_timeout
  | bits n => exact Halts.readUInt8.bind fun _ => Halts.pure _

theorem halts_readArgs (kinds : List ArgKind) : Halts (readArgs kinds) := by
  induction kinds with
  | nil => exact Halts.pure _
  | cons kind kinds ih =>
      exact (halts_readArg kind).bind fun _ => ih.bind fun _ => Halts.pure _

theorem halts_readIf {α : Type} {flags : UInt16} {flag : ℕ} {p : FieldReader α} {zero : α}
    (h : Halts p) : Halts (readIf flags flag p zero) := by
  unfold readIf
  split
  · exact h
  · exact Halts.pure zero

theorem halts_readProperties (flags : UInt16) : Halts (readProperties flags) := by
  have hshort : ∀ flag, Halts (readIf flags flag readShortstr []) :=
    fun _ => halts_readIf halts_readShortstr
  have hoctet : ∀ flag, Halts (readIf flags flag readUInt8 0) :=
    fun _ => halts_readIf Halts.readUInt8
  have htime : Halts (readIf flags flagTimestamp readTimestamp Time.zero) :=
    halts_readIf (Halts.readUInt64.bind fun _ => Halts.pure _)
  refine Halts.bind (hshort _) fun _ => ?_
  refine Halts.bind (hshort _) fun _ => ?_
  refine Halts.bind (halts_readIf readTable_ne_timeout) fun _ => ?_
  refine Halts.bind (hoctet _) fun _ => ?_
  refine Halts.bind (hoctet _) fun _ => ?_
  refine Halts.bind (hshort _) fun _ => ?_
  refine Halts.bind (hshort _) fun _ => ?_
  refine Halts.bind (hshort _) fun _ => ?_
  refine Halts.bind (hshort _) fun _ => ?_
  refine Halts.bind htime fun _ => ?_
  refine Halts.bind (hshort _) fun _ => ?_
  refine Halts.bind (hshort _) fun _ => ?_
  refine Halts.bind (hshort _) fun _ => ?_
  exact Halts.bind (hshort _) fun _ => Halts.pure _

theorem settled_parseFrame (typ : UInt8) (channel : UInt16) (size : UInt32) :
    Settled (parseFrame typ channel size) := by
  by_cases hb : typ = frameBody
  · rw [hb, parseFrame_body]
    exact settled_namedResults ((Halts.readFull _).bind fun _ => Halts.pure _)
  unfold parseFrame
  split
  · refine settled_namedResults (Halts.readUInt16.bind fun classId => ?_)
    refine Halts.readUInt16.bind fun methodId => ?_
    split
    · exact Halts.bind ((halts_readArgs _).bind fun _ => Halts.pure _) fun _ => Halts.pure _
    · exact Halts.throw _
  · split
    · refine settled_namedResults (Halts.readUInt16.bind fun _ => ?_)
      refine Halts.readUInt16.bind fun _ => Halts.readUInt64.bind fun _ => ?_
      refine Halts.readUInt16.bind fun flags => ?_
      exact (halts_readProperties flags).bind fun _ => Halts.pure _
    · split
      · intro bs
        unfold parseHeartbeatFrame
        split
        · exact .inr ⟨_, _, rfl, by simp⟩
        · exact .inr ⟨_, _, rfl, by simp⟩
      · intro bs
        exact .inr ⟨_, _, rfl, by simp⟩

/-- The end octet is checked after a frame was parsed and takes the frame back when it
is missing. -/
theorem endFrame_settles {parsed : Parsed} (h : parsed.frame.isSome ↔ parsed.err = none)
    (bs : Bytes) :
    ∃ parsed' rest, endFrame parsed bs = .ok parsed' rest ∧
      (parsed'.frame.isSome ↔ parsed'.err = none) := by
  obtain ⟨frame, err⟩ := parsed
  cases err with
  | some e => exact ⟨_, _, rfl, h⟩
  | none =>
      cases bs with
      | nil => exact ⟨_, _, rfl, by simp⟩
      | cons b rest =>
          by_cases hb : b = frameEnd
          · exact ⟨⟨frame, none⟩, rest, by rw [hb, endFrame_frameEnd], h⟩
          · exact ⟨⟨none, some (.other errFrame)⟩, rest, endFrame_of_ne hb frame rest, by simp⟩

theorem settled_readFrame : Settled readFrame := by
  intro bs
  by_cases hshort : bs.length < 7
  · obtain ⟨e, he⟩ := readFrame_of_short hshort
    exact .inr ⟨_, _, he, by simp⟩
  obtain ⟨typ, channel, size, rest, rfl⟩ := exists_frameHeader (Nat.le_of_not_lt hshort)
  rw [readFrame_header, UInt32.ofNat_toNat, bind_apply]
  rcases settled_parseFrame typ channel size rest with hp | ⟨parsed, mid, hp, hparsed⟩
  · rw [hp]
    exact .inl rfl
  · rw [hp]
    exact .inr (endFrame_settles hparsed mid)

/-- `ReadFrame` returns a frame or an error, and not both, exactly on the streams in
which no field it reads is a byte array of negative length. -/
theorem readFrame_settles_iff (bs : Bytes) :
    (∃ parsed rest, readFrame bs = .ok parsed rest ∧
      (parsed.frame.isSome ↔ parsed.err = none)) ↔
    ∀ w, Relation.ReflTransGen Calls (.frame bs) (.field w) → ¬ NegativeByteArray w := by
  constructor
  · rintro ⟨parsed, rest, hok, -⟩ w hreach hneg
    have hpanic : readFrame bs = .panic := Faults.panics ⟨w, hreach, hneg⟩
    rw [hok] at hpanic
    cases hpanic
  · intro h
    rcases settled_readFrame bs with hpanic | hok
    · obtain ⟨w, hreach, hneg⟩ := readFrame_faults hpanic
      exact (h w hreach hneg).elim
    · exact hok

/-- A header frame whose `Headers` hold one byte array of length -1. -/
theorem readFrame_panics_on_negative_length :
    readFrame [2, 0, 1, 0, 0, 0, 25, 0, 60, 0, 0, 0, 0, 0, 0, 0, 0, 0, 0, 0x20, 0,
      0, 0, 0, 7, 1, 97, 120, 255, 255, 255, 255, 206] = .panic := by
  rfl

end Amqp091

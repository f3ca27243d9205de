import Amqp091.Verification.Requests.Wire

/-! # Values that do not fit their wire form

Two conversions of the encoder drop bits: the length of a short string becomes eight bits
and a Go `int` thirty-two. Both go on with what is left. -/

namespace Amqp091

open ByteCodec

/-! ## Representable values -/

mutual

/-- No `int` outside the range of an `int32` and no key above 255 bytes, at any depth. -/
def Representable : Field → Prop
  | .int v => -2 ^ 31 ≤ v.toInt ∧ v.toInt < 2 ^ 31
  | .array vs => RepresentableElems vs
  | .table es => RepresentableEntries es
  | _ => True

def RepresentableElems : List Field → Prop
  | [] => True
  | v :: vs => Representable v ∧ RepresentableElems vs

def RepresentableEntries : Table → Prop
  | [] => True
  | (key, v) :: es => key.length ≤ 255 ∧ Representable v ∧ RepresentableEntries es

end

theorem representableEntries_iff {es : Table} :
    RepresentableEntries es ↔ ∀ e ∈ es, e.1.length ≤ 255 ∧ Representable e.2 := by
  induction es with
  | nil => simp [RepresentableEntries]
  | cons e es ih =>
      obtain ⟨key, v⟩ := e
      rw [RepresentableEntries, List.forall_mem_cons, ih, and_assoc]

mutual

theorem Same.representable : ∀ {v w : Field}, Same v w → (Representable v ↔ Representable w)
  | _, _, .refl _ => Iff.rfl
  | _, _, .array hs => by
      simp only [Representable]
      exact hs.representable
  | _, _, @Same.table es es' fs hp hs => by
      have hperm : RepresentableEntries es ↔ RepresentableEntries es' := by
        rw [representableEntries_iff, representableEntries_iff]
        exact ⟨fun h e he => h e (hp.mem_iff.mpr he), fun h e he => h e (hp.mem_iff.mp he)⟩
      simp only [Representable]
      exact hperm.trans hs.representable

theorem SameElems.representable : ∀ {vs ws : List Field}, SameElems vs ws →
    (RepresentableElems vs ↔ RepresentableElems ws)
  | _, _, .nil => Iff.rfl
  | _, _, .cons hv hs => by
      simp only [RepresentableElems]
      rw [hv.representable, hs.representable]

theorem SameEntries.representable : ∀ {es fs : Table}, SameEntries es fs →
    (RepresentableEntries es ↔ RepresentableEntries fs)
  | _, _, .nil => Iff.rfl
  | _, _, .cons hv hs => by
      simp only [RepresentableEntries]
      rw [hv.representable, hs.representable]

end

/-! ## What is left of a value -/

/-- The part of a short string that its eight-bit length covers. -/
def narrowedStr (s : Bytes) : Bytes := s.take (UInt8.ofNat s.length).toNat

/-- The low half of a Go `int`, with its sign. -/
def narrowedInt (v : Int64) : Int64 := Int64.ofInt (Int32.ofInt v.toInt).toInt

mutual

def narrowed : Field → Field
  | .int v => .int (narrowedInt v)
  | .array vs => .array (narrowedElems vs)
  | .table es => .table (narrowedEntries es)
  | v => v

def narrowedElems : List Field → List Field
  | [] => []
  | v :: vs => narrowed v :: narrowedElems vs

def narrowedEntries : Table → Table
  | [] => []
  | (key, v) :: es => (narrowedStr key, narrowed v) :: narrowedEntries es

end

theorem length_narrowedStr_le (s : Bytes) : (narrowedStr s).length ≤ 255 := by
  rw [narrowedStr, List.length_take]
  exact (Nat.min_le_left _ _).trans (Nat.le_of_lt_succ (UInt8.toNat_lt _))

theorem toInt_narrowedInt (v : Int64) :
    (narrowedInt v).toInt = (Int32.ofInt v.toInt).toInt := by
  have hlow := (Int32.ofInt v.toInt).le_toInt
  have hhigh := (Int32.ofInt v.toInt).toInt_lt
  exact Int64.toInt_ofInt_of_le (by omega) (by omega)

theorem toUInt32_narrowedInt (v : Int64) :
    (narrowedInt v).toUInt64.toUInt32 = v.toUInt64.toUInt32 := by
  have hread := int_asRead (narrowedInt v)
  rw [toInt_narrowedInt, Int32.ofInt_toInt, ← int_asRead] at hread
  have hinj := congrArg Int32.toUInt32 hread
  rwa [UInt32.toUInt32_toInt32, UInt32.toUInt32_toInt32] at hinj

mutual

theorem representable_narrowed : ∀ v : Field, Representable (narrowed v)
  | .int v => by
      have hlow := (Int32.ofInt v.toInt).le_toInt
      have hhigh := (Int32.ofInt v.toInt).toInt_lt
      simp only [narrowed, Representable, toInt_narrowedInt]
      omega
  | .array vs => by
      simp only [narrowed, Representable]
      exact representable_narrowedElems vs
  | .table es => by
      simp only [narrowed, Representable]
      exact representable_narrowedEntries es
  | .nil | .bool _ | .byte _ | .int8 _ | .int16 _ | .int32 _ | .int64 _ | .float32 _
  | .float64 _ | .decimal _ | .string _ | .bytes _ | .time _ | .other _ => by
      simp only [narrowed, Representable]

theorem representable_narrowedElems : ∀ vs : List Field, RepresentableElems (narrowedElems vs)
  | [] => trivial
  | v :: vs => by
      simp only [narrowedElems, RepresentableElems]
      exact ⟨representable_narrowed v, representable_narrowedElems vs⟩

theorem representable_narrowedEntries : ∀ es : Table, RepresentableEntries (narrowedEntries es)
  | [] => trivial
  | (key, v) :: es => by
      simp only [narrowedEntries, RepresentableEntries]
      exact ⟨length_narrowedStr_le key, representable_narrowed v,
        representable_narrowedEntries es⟩

end

mutual

/-- A value is written as what is left of it. -/
theorem writeField_narrowed : ∀ v : Field, writeField (narrowed v) = writeField v
  | .int v => by
      simp only [narrowed, writeField, toUInt32_narrowedInt]
  | .array vs => by
      simp only [narrowed, writeField, writeElems_narrowed vs]
  | .table es => by
      simp only [narrowed, writeField, writeEntries_narrowed es]
  | .nil | .bool _ | .byte _ | .int8 _ | .int16 _ | .int32 _ | .int64 _ | .float32 _
  | .float64 _ | .decimal _ | .string _ | .bytes _ | .time _ | .other _ => by
      simp only [narrowed]

theorem writeElems_narrowed : ∀ vs : List Field, writeElems (narrowedElems vs) = writeElems vs
  | [] => rfl
  | v :: vs => by
      simp only [narrowedElems, writeElems, writeField_narrowed v, writeElems_narrowed vs]

theorem writeEntries_narrowed : ∀ es : Table,
    writeEntries (narrowedEntries es) = writeEntries es
  | [] => rfl
  | (key, v) :: es => by
      simp only [narrowedEntries, writeEntries, writeField_narrowed v, writeEntries_narrowed es]
      rw [narrowedStr, ← writeShortstr_take]

end

theorem writeTable_narrowed (t : Table) : writeTable (narrowedEntries t) = writeTable t := by
  rw [writeTable, writeEntries_narrowed, ← writeTable]

/-- No value is both representable and equal to one that is not. -/
theorem not_same_narrowed {v : Field} (h : ¬ Representable v) : ¬ Same v (narrowed v) :=
  fun hsame => h (hsame.representable.mpr (representable_narrowed v))

/-! ## Properties -/

structure Properties.Representable (p : Properties) : Prop where
  contentType : p.contentType.length ≤ 255
  contentEncoding : p.contentEncoding.length ≤ 255
  headers : Amqp091.Representable (.table p.headers)
  correlationId : p.correlationId.length ≤ 255
  replyTo : p.replyTo.length ≤ 255
  expiration : p.expiration.length ≤ 255
  messageId : p.messageId.length ≤ 255
  type : p.type.length ≤ 255
  userId : p.userId.length ≤ 255
  appId : p.appId.length ≤ 255

def Properties.narrowed (p : Properties) : Properties :=
  { p with
    contentType := narrowedStr p.contentType
    contentEncoding := narrowedStr p.contentEncoding
    headers := narrowedEntries p.headers
    correlationId := narrowedStr p.correlationId
    replyTo := narrowedStr p.replyTo
    expiration := narrowedStr p.expiration
    messageId := narrowedStr p.messageId
    type := narrowedStr p.type
    userId := narrowedStr p.userId
    appId := narrowedStr p.appId }

theorem Properties.representable_narrowed (p : Properties) : p.narrowed.Representable := by
  constructor
  case headers => exact Amqp091.representable_narrowed (.table p.headers)
  all_goals exact length_narrowedStr_le _

/-- Under one and the same mask the properties are written as what is left of them. -/
theorem writeProperties_narrowed (mask : UInt16) (p : Properties) :
    writeProperties mask p.narrowed = writeProperties mask p := by
  have hstr : ∀ s, writeShortstr (narrowedStr s) = writeShortstr s :=
    fun s => (writeShortstr_take s).symm
  simp only [writeProperties, Properties.narrowed, hstr, writeTable_narrowed]

/-- The mask is that of the values before anything is dropped. -/
theorem writes_header_narrowed {channelId classId weight : UInt16} {size : UInt64}
    {p : Properties} (h : p.headers.validate = .ok ()) :
    ∃ props, Writes (writeProperties (propertyMask p) p.narrowed) props ∧
      ∃ payload, payload = putBE 2 classId.toNat ++ (putBE 2 weight.toNat ++
          (putBE 8 size.toNat ++ (putBE 2 (propertyMask p).toNat ++ props))) ∧
        Writes (Frame.write (.header channelId classId weight size p))
          (frameHeaderBytes frameHeader channelId payload.length ++ (payload ++ [frameEnd])) := by
  obtain ⟨props, hprops⟩ := completes_writeProperties (propertyMask p) h
  refine ⟨props, by rwa [writeProperties_narrowed], _, rfl, ?_⟩
  refine Writes.capture_bind ?_ (writes_writeFrame frameHeader channelId _)
  refine (Writes.emit _).bind ((Writes.emit _).bind ((Writes.emit _).bind ?_))
  exact (Writes.emit _).bind hprops

theorem Properties.Same.representable {p q : Properties} (h : p.Same q) :
    p.Representable ↔ q.Representable := by
  obtain ⟨hheaders, hothers⟩ := h
  simp only [Properties.mk.injEq] at hothers
  obtain ⟨h1, h2, -, -, -, h3, h4, h5, h6, -, h7, h8, h9, -⟩ := hothers
  constructor
  · rintro ⟨g1, g2, g3, g4, g5, g6, g7, g8, g9, g10⟩
    exact ⟨h1 ▸ g1, h2 ▸ g2, hheaders.representable.mp g3, h3 ▸ g4, h4 ▸ g5, h5 ▸ g6, h6 ▸ g7,
      h7 ▸ g8, h8 ▸ g9, h9 ▸ g10⟩
  · rintro ⟨g1, g2, g3, g4, g5, g6, g7, g8, g9, g10⟩
    exact ⟨h1 ▸ g1, h2 ▸ g2, hheaders.representable.mpr g3, h3 ▸ g4, h4 ▸ g5, h5 ▸ g6, h6 ▸ g7,
      h7 ▸ g8, h8 ▸ g9, h9 ▸ g10⟩

/-! ## Method arguments -/

def RepresentableArg : (kind : ArgKind) → kind.Val → Prop
  | .shortstr, v => List.length (α := UInt8) v ≤ 255
  | .table, v => Representable (.table v)
  | _, _ => True

def RepresentableArgs : (kinds : List ArgKind) → Args kinds → Prop
  | [], _ => True
  | kind :: kinds, (v, vs) => RepresentableArg kind v ∧ RepresentableArgs kinds vs

def narrowedArg : (kind : ArgKind) → kind.Val → kind.Val
  | .shortstr, v => narrowedStr v
  | .table, v => narrowedEntries v
  | _, v => v

def narrowedArgs : (kinds : List ArgKind) → Args kinds → Args kinds
  | [], _ => ()
  | kind :: kinds, (v, vs) => (narrowedArg kind v, narrowedArgs kinds vs)

theorem representable_narrowedArgs (kinds : List ArgKind) (args : Args kinds) :
    RepresentableArgs kinds (narrowedArgs kinds args) := by
  induction kinds with
  | nil => trivial
  | cons kind kinds ih =>
      obtain ⟨v, vs⟩ := args
      refine ⟨?_, ih vs⟩
      cases kind with
      | shortstr => exact length_narrowedStr_le v
      | table => exact representable_narrowed (.table v)
      | _ => trivial

theorem writeArgs_narrowed (kinds : List ArgKind) (bits : UInt8) (args : Args kinds) :
    writeArgs kinds bits (narrowedArgs kinds args) = writeArgs kinds bits args := by
  induction kinds generalizing bits with
  | nil => rfl
  | cons kind kinds ih =>
      obtain ⟨v, vs⟩ := args
      have harg : writeArg kind bits (narrowedArg kind v) = writeArg kind bits v := by
        cases kind with
        | shortstr => exact (writeShortstr_take v).symm
        | table => exact writeTable_narrowed v
        | _ => rfl
      have hbits : bitsAfter kind bits (narrowedArg kind v) = bitsAfter kind bits v := by
        cases kind <;> rfl
      rw [narrowedArgs, writeArgs, writeArgs, harg, hbits, ih]

/-! ## Nothing is refused -/

/-- Every value that is not representable and passes the validator is written without an
error, as a value that it is not: the bytes are those of a representable one, in a header
frame under the flags of the original. -/
theorem unrepresentable_written_as_other (s : Bytes) (v : Field) (t : Table)
    (channelId classId weight : UInt16) (size : UInt64) (p : Properties) (m : Message) :
    (255 < s.length → ∃ s', s' ≠ s ∧ s'.length ≤ 255 ∧
      writeShortstr s = writeShortstr s' ∧ (writeShortstr s).result = .ok ()) ∧
    (validateField v = .ok () → ¬ Representable v → ∃ w, ¬ Same v w ∧ Representable w ∧
      writeField v = writeField w ∧ (writeField v).result = .ok ()) ∧
    (t.validate = .ok () → ¬ Representable (.table t) →
      ∃ u, ¬ Same (.table t) (.table u) ∧ Representable (.table u) ∧
        writeTable t = writeTable u ∧ (writeTable t).result = .ok ()) ∧
    (p.headers.validate = .ok () → ¬ p.Representable →
      ∃ q : Properties, ¬ p.Same q ∧ q.Representable ∧
        ∃ props, Writes (writeProperties (propertyMask p) q) props ∧
        ∃ payload, payload = putBE 2 classId.toNat ++ (putBE 2 weight.toNat ++
            (putBE 8 size.toNat ++ (putBE 2 (propertyMask p).toNat ++ props))) ∧
          Writes (Frame.write (.header channelId classId weight size p))
            (frameHeaderBytes frameHeader channelId payload.length ++
              (payload ++ [frameEnd]))) ∧
    (tablesValid m.method.layout m.args → ¬ RepresentableArgs m.method.layout m.args →
      ∃ args, RepresentableArgs m.method.layout args ∧
        m.write = Message.write ⟨m.method, args⟩ ∧ m.write.result = .ok ()) := by
  refine ⟨fun hs => ?_, fun hvalid hv => ?_, fun hvalid ht => ?_, fun hvalid hp => ?_,
    fun hvalid _ => ?_⟩
  · refine ⟨narrowedStr s, ?_, length_narrowedStr_le s, writeShortstr_take s,
      (completes_writeShortstr s).result_eq⟩
    intro heq
    have hle := length_narrowedStr_le s
    rw [heq] at hle
    omega
  · exact ⟨narrowed v, not_same_narrowed hv, representable_narrowed v,
      (writeField_narrowed v).symm, (completes_writeField v hvalid).result_eq⟩
  · exact ⟨narrowedEntries t, not_same_narrowed ht, representable_narrowed (.table t),
      (writeTable_narrowed t).symm, (completes_writeTable hvalid).result_eq⟩
  · refine ⟨p.narrowed, fun hsame => ?_, p.representable_narrowed, writes_header_narrowed hvalid⟩
    exact hp (hsame.representable.mpr p.representable_narrowed)
  · exact ⟨narrowedArgs _ m.args, representable_narrowedArgs _ m.args,
      (writeArgs_narrowed _ 0 m.args).symm, (completes_writeArgs hvalid 0).result_eq⟩

/-- A string of 256 bytes, and a nested key of 256 bytes beside an `int` of 33 bits. -/
theorem unrepresentable_written_as_other_nested :
    (∃ s', s' ≠ List.replicate 256 97 ∧ s'.length ≤ 255 ∧
      writeShortstr (List.replicate 256 97) = writeShortstr s' ∧
      (writeShortstr (List.replicate 256 97)).result = .ok ()) ∧
    ∃ w, ¬ Same (.array [.table [(List.replicate 256 97, .nil)], .int 4294967296]) w ∧
      Representable w ∧
      writeField (.array [.table [(List.replicate 256 97, .nil)], .int 4294967296]) =
        writeField w ∧
      (writeField (.array [.table [(List.replicate 256 97, .nil)], .int 4294967296])).result =
        .ok () := by
  have hwritten := unrepresentable_written_as_other (List.replicate 256 97)
    (.array [.table [(List.replicate 256 97, .nil)], .int 4294967296]) [] 0 0 0 0 {}
    ⟨.channelCloseOk, ()⟩
  refine ⟨hwritten.1 (by rw [List.length_replicate]; decide), hwritten.2.1 rfl ?_⟩
  simp only [Representable, RepresentableElems, RepresentableEntries, List.length_replicate]
  decide

/-- The smallest `int` above the range of an `int32` goes out as the smallest `int32`. -/
theorem int_out_of_range_written :
    Table.validate [([97], .int 2147483648)] = .ok () ∧
    ¬ Representable (.table [([97], .int 2147483648)]) ∧
    (writeTable [([97], .int 2147483648)]).result = .ok () ∧
    writeTable [([97], .int 2147483648)] = writeTable [([97], .int (-2147483648))] := by
  refine ⟨rfl, ?_, rfl, rfl⟩
  simp only [Representable, RepresentableEntries]
  decide

end Amqp091

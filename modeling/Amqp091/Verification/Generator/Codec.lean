import Amqp091.Verification.Frame.RoundTrip
import Amqp091.Verification.Generator.Grouping
import Mathlib.Data.Nat.Bitwise

/-! # Round trip of generated methods

The `write` body of a method has one variable `bits` and never clears it, so a run of bits
is written together with the bits of all runs in front of it. -/

namespace Amqp091

open ByteCodec Reader

namespace AmqpType

/-- The values with a faithful wire form. -/
def Encodable : (t : AmqpType) → t.Val → Prop
  | .shortstr, (v : Bytes) => v.length ≤ 255
  | .longstr, (v : Bytes) => v.length < 2 ^ 31
  | .table, v => Amqp091.Encodable (.table v)
  | _, _ => True

def asRead : (t : AmqpType) → t.Val → t.Val
  | .table, v => asReadEntries v
  | _, v => v

end AmqpType

variable {msg into : Record} {sets : List Fieldset} {bits : UInt8} {t : AmqpType}

/-! ## One set -/

theorem roundTrips_each {α : Type} {w : α → Output GoError Unit} {p : FieldReader α}
    {back : α → α} {vs : List α} (h : ∀ v ∈ vs, RoundTrips (w v) p (back v)) :
    RoundTrips (encEach w vs) (decEach p vs.length) (vs.map back) := by
  induction vs with
  | nil => exact RoundTrips.pure []
  | cons v vs ih =>
      obtain ⟨hv, hvs⟩ := List.forall_mem_cons.mp h
      exact hv.bind ((ih hvs).bind_reader (Decodes.pure _))

theorem roundTrips_longstr {s : Bytes} (h : s.length < 2 ^ 31) :
    RoundTrips (writeLongstr s) readLongstr s :=
  ⟨_, writes_longstr (by omega), decodes_readLongstr h⟩

theorem roundTrips_uint32 (v : UInt32) :
    RoundTrips (Output.emit (putBE 4 v.toNat) : Output GoError Unit)
      (readUInt32 : FieldReader UInt32) v :=
  ⟨_, Writes.emit _, decodes_readUInt32 v⟩

/-- What the fields of a set are assigned when they are read. -/
def received (bits : UInt8) : (t : AmqpType) → List t.Val → List t.Val
  | .bit, vs => (getBits vs.length (setBits bits 0 vs)).toList
  | .octet, vs => vs
  | .shortshort, vs => vs
  | .short, vs => vs
  | .long, vs => vs
  | .longlong, vs => vs
  | .shortstr, vs => vs
  | .longstr, vs => vs
  | .table, vs => vs.map asReadEntries

theorem roundTrips_enc (bits : UInt8) (t : AmqpType) (vs : List t.Val)
    (h : ∀ v ∈ vs, t.Encodable v) :
    RoundTrips (enc bits t vs) (dec t vs.length) (received bits t vs) := by
  have hsame : ∀ {α : Type} {w : α → Output GoError Unit} {p : FieldReader α} {vs : List α},
      (∀ v ∈ vs, RoundTrips (w v) p v) → RoundTrips (encEach w vs) (decEach p vs.length) vs := by
    intro α w p vs h
    have hround : RoundTrips (encEach w vs) (decEach p vs.length) (vs.map id) := roundTrips_each h
    rwa [List.map_id] at hround
  cases t with
  | bit => exact (roundTrips_uint8 (setBits bits 0 vs)).bind_reader (Decodes.pure _)
  | octet => exact hsame fun v _ => roundTrips_uint8 v
  | shortshort => exact hsame fun v _ => roundTrips_uint8 v
  | short => exact hsame fun v _ => roundTrips_uint16 v
  | long => exact hsame fun v _ => roundTrips_uint32 v
  | longlong => exact hsame fun v _ => roundTrips_uint64 v
  | shortstr => exact hsame fun v hv => roundTrips_shortstr (h v hv)
  | longstr => exact hsame fun v hv => roundTrips_longstr (h v hv)
  | table => exact roundTrips_each fun v hv => table_roundTrip (h v hv)

theorem length_received (bits : UInt8) (t : AmqpType) (vs : List t.Val) :
    (received bits t vs).length = vs.length := by
  cases t with
  | bit => exact Vector.length_toList
  | table => exact List.length_map _
  | _ => rfl

/-! ## Runs of bits -/

theorem testBit_eq (x k : ℕ) : decide (x &&& 1 <<< k > 0) = x.testBit k := by
  rw [Nat.one_shiftLeft, Nat.and_two_pow]
  cases x.testBit k <;> simp

theorem getElem?_received_bit (bits : UInt8) {vs : List Bool} (h : vs.length ≤ 8) (k : ℕ) :
    (received bits .bit vs)[k]? = vs[k]?.map (bits.toNat.testBit k || ·) := by
  change (getBits vs.length (setBits bits 0 vs)).toList[k]? = _
  by_cases hk : k < vs.length
  · have hbit := testBit_setBits vs bits 0 (by omega) k
    simp only [Nat.zero_le, decide_true, Nat.sub_zero, Bool.true_and] at hbit
    have hlist : (getBits vs.length (setBits bits 0 vs)).toList =
        List.ofFn fun off : Fin vs.length => (setBits bits 0 vs).toNat.testBit off.val := by
      rw [getBits, Vector.toList_ofFn]
      simp only [testBit_eq]
    rw [hlist, List.getElem?_ofFn, dif_pos hk, hbit, List.getElem?_eq_getElem hk]
    simp [List.getD, List.getElem?_eq_getElem hk]
  · rw [List.getElem?_eq_none (by simpa using hk), List.getElem?_eq_none (by omega)]
    rfl

/-- The bits of `run` that a value of `bits` leaves as they are. -/
def Covers (bits : UInt8) (run : List Bool) : Prop :=
  ∀ k : ℕ, bits.toNat.testBit k = true → run[k]? ≠ some false

theorem received_bit_eq_iff {vs : List Bool} (h : vs.length ≤ 8) :
    received bits .bit vs = vs ↔ Covers bits vs := by
  constructor
  · intro heq k hbit hk
    have hget := getElem?_received_bit bits h k
    rw [heq, hk, hbit] at hget
    simp at hget
  · intro hcovers
    apply List.ext_getElem?
    intro k
    rw [getElem?_received_bit bits h k]
    cases hk : vs[k]? with
    | none => rfl
    | some b =>
        cases b with
        | true => simp
        | false =>
            have hbit : bits.toNat.testBit k = false := by
              by_contra hset
              exact hcovers k (by simpa using hset) hk
            simp [hbit]

/-- Every bit set in an earlier run is also set in a later one that has its place. -/
def Covered (earlier later : List Bool) : Prop :=
  ∀ k : ℕ, earlier[k]? = some true → later[k]? ≠ some false

theorem covers_setBits_iff {vs run : List Bool} (h : vs.length ≤ 8) :
    Covers (setBits bits 0 vs) run ↔ Covers bits run ∧ Covered vs run := by
  have hbit : ∀ k, (setBits bits 0 vs).toNat.testBit k = true ↔
      bits.toNat.testBit k = true ∨ vs[k]? = some true := by
    intro k
    rw [testBit_setBits vs bits 0 (by omega) k]
    cases hk : vs[k]? with
    | none => simp [List.getD, hk]
    | some b => cases b <;> simp [List.getD, hk]
  constructor
  · intro hcovers
    exact ⟨fun k hk => hcovers k ((hbit k).mpr (.inl hk)),
      fun k hk => hcovers k ((hbit k).mpr (.inr hk))⟩
  · rintro ⟨hbits, hvs⟩ k hk
    rcases (hbit k).mp hk with hk | hk
    · exact hbits k hk
    · exact hvs k hk

/-! ## The bodies -/

theorem Record.set_of_not_mem {names : List String} {field : SpecField}
    (h : field.name ∉ names) (msg : Record) (vs : List t.Val) :
    msg.set t names vs field = msg field := by
  induction names generalizing msg vs with
  | nil => rfl
  | cons name names ih =>
      cases vs with
      | nil => rfl
      | cons v vs =>
          obtain ⟨hne, hnot⟩ := List.ne_and_not_mem_of_not_mem_cons h
          rw [Record.set, ih hnot, Function.update_of_ne]
          rintro rfl
          exact hne rfl

theorem Record.get_set {names : List String} (hnodup : names.Nodup) (msg : Record)
    {vs : List t.Val} (hlength : vs.length = names.length) :
    (msg.set t names vs).get t names = vs := by
  induction names generalizing msg vs with
  | nil => exact (List.length_eq_zero_iff.mp hlength).symm
  | cons name names ih =>
      obtain ⟨hnot, hnodup⟩ := List.nodup_cons.mp hnodup
      cases vs with
      | nil => cases hlength
      | cons v vs =>
          have hrest := ih hnodup (Function.update msg ⟨name, t⟩ v) (Nat.succ.inj hlength)
          have hfirst : (Record.set (Function.update msg ⟨name, t⟩ v) t names vs) ⟨name, t⟩ =
              Function.update msg ⟨name, t⟩ v ⟨name, t⟩ := Record.set_of_not_mem hnot _ vs
          rw [Record.get] at hrest ⊢
          rw [List.map_cons, Record.set, hrest, hfirst, Function.update_self]

/-- The struct that is left when what `msg` wrote has been read. -/
def receive (bits : UInt8) (msg into : Record) : List Fieldset → Record
  | [] => into
  | set :: sets =>
      let vs := msg.get set.amqpType set.names
      receive (bitsAfterSet bits set.amqpType vs) msg
        (into.set set.amqpType set.names (received bits set.amqpType vs)) sets

theorem roundTrips_body (bits : UInt8) (into : Record)
    (h : ∀ field ∈ sets.flatMap Fieldset.fields, field.type.Encodable (msg field)) :
    RoundTrips (writeBody bits msg sets) (readBody into sets) (receive bits msg into sets) := by
  induction sets generalizing bits into with
  | nil => exact RoundTrips.pure into
  | cons set sets ih =>
      rw [List.flatMap_cons] at h
      have hset : ∀ v ∈ msg.get set.amqpType set.names, set.amqpType.Encodable v := by
        intro v hv
        obtain ⟨name, hname, rfl⟩ := List.mem_map.mp hv
        exact h ⟨name, set.amqpType⟩ (List.mem_append_left _ (List.mem_map_of_mem hname))
      have hround := roundTrips_enc bits set.amqpType _ hset
      rw [Record.get, List.length_map] at hround
      exact hround.bind (ih _ _ fun field hfield => h field (List.mem_append_right _ hfield))

theorem receive_of_not_mem {field : SpecField}
    (h : field.name ∉ sets.flatMap Fieldset.names) :
    receive bits msg into sets field = into field := by
  induction sets generalizing bits into with
  | nil => rfl
  | cons set sets ih =>
      rw [List.flatMap_cons, List.mem_append, not_or] at h
      rw [receive, ih h.2, Record.set_of_not_mem h.1]

theorem received_of_ne_bit (h : t ≠ .bit) (bits : UInt8) (vs : List t.Val) :
    received bits t vs = vs.map t.asRead := by
  cases t with
  | bit => exact absurd rfl h
  | table => rfl
  | _ => exact (List.map_id vs).symm

/-- The values of the runs of bits of a method. -/
def bitSets (msg : Record) (sets : List Fieldset) : List (List Bool) :=
  (sets.filter fun set => set.amqpType = .bit).map fun set => msg.get .bit set.names

/-- The fields of the first set are not assigned again. -/
theorem receive_cons_restored_iff {set : Fieldset}
    (hnodup : ((set :: sets).flatMap Fieldset.names).Nodup) :
    (∀ field ∈ set.fields,
        receive bits msg into (set :: sets) field = field.type.asRead (msg field)) ↔
      received bits set.amqpType (msg.get set.amqpType set.names) =
        (msg.get set.amqpType set.names).map set.amqpType.asRead := by
  rw [List.flatMap_cons, List.nodup_append] at hnodup
  obtain ⟨hset, -, hdisjoint⟩ := hnodup
  set vs := received bits set.amqpType (msg.get set.amqpType set.names) with hvs
  have hlength : vs.length = set.names.length := by
    rw [hvs, length_received, Record.get, List.length_map]
  have hget := Record.get_set hset into hlength
  have hfield : ∀ name ∈ set.names,
      receive bits msg into (set :: sets) ⟨name, set.amqpType⟩ =
        into.set set.amqpType set.names vs ⟨name, set.amqpType⟩ := by
    intro name hname
    rw [receive, receive_of_not_mem]
    intro hmem
    exact hdisjoint name hname name hmem rfl
  calc
    _ ↔ ∀ name ∈ set.names, into.set set.amqpType set.names vs ⟨name, set.amqpType⟩ =
          set.amqpType.asRead (msg ⟨name, set.amqpType⟩) := by
      rw [Fieldset.fields, List.forall_mem_map]
      exact forall₂_congr fun name hname => by rw [hfield name hname]
    _ ↔ (into.set set.amqpType set.names vs).get set.amqpType set.names =
          (msg.get set.amqpType set.names).map set.amqpType.asRead := by
      rw [Record.get, Record.get, List.map_map]
      exact (List.map_inj_left (β := set.amqpType.Val)).symm
    _ ↔ _ := by rw [hget]

/-- The fields are restored exactly when no run of bits picks up a bit from the value of
`bits` at the beginning or from a run in front of it. -/
theorem receive_restored_iff (hnodup : (sets.flatMap Fieldset.names).Nodup)
    (height : ∀ set ∈ sets, set.amqpType = .bit → set.names.length ≤ 8) :
    (∀ field ∈ sets.flatMap Fieldset.fields,
        receive bits msg into sets field = field.type.asRead (msg field)) ↔
      (∀ run ∈ bitSets msg sets, Covers bits run) ∧ (bitSets msg sets).Pairwise Covered := by
  induction sets generalizing bits into with
  | nil => simp [bitSets]
  | cons set sets ih =>
      have hrest : (sets.flatMap Fieldset.names).Nodup := by
        rw [List.flatMap_cons, List.nodup_append] at hnodup
        exact hnodup.2.1
      obtain ⟨hset, heights⟩ := List.forall_mem_cons.mp height
      rw [List.flatMap_cons, List.forall_mem_append, receive_cons_restored_iff hnodup]
      change _ ∧ (∀ field ∈ sets.flatMap Fieldset.fields,
        receive (bitsAfterSet bits set.amqpType (msg.get set.amqpType set.names)) msg
          (into.set set.amqpType set.names _) sets field = _) ↔ _
      rw [ih hrest heights]
      obtain ⟨t, names⟩ := set
      by_cases hbit : t = .bit
      · subst hbit
        have hlength : (msg.get .bit names).length ≤ 8 := by
          rw [Record.get, List.length_map]
          exact hset rfl
        have hruns : bitSets msg (⟨.bit, names⟩ :: sets) =
            msg.get .bit names :: bitSets msg sets := by
          simp [bitSets]
        have hid : (msg.get .bit names).map AmqpType.bit.asRead = msg.get .bit names :=
          List.map_id _
        have hafter : ∀ run, Covers (bitsAfterSet bits .bit (msg.get .bit names)) run ↔
            Covers bits run ∧ Covered (msg.get .bit names) run :=
          fun run => covers_setBits_iff hlength
        rw [hid, received_bit_eq_iff hlength, hruns, List.forall_mem_cons, List.pairwise_cons]
        simp only [hafter]
        constructor
        · rintro ⟨hfirst, hlater, hpair⟩
          exact ⟨⟨hfirst, fun run hrun => (hlater run hrun).1⟩,
            fun run hrun => (hlater run hrun).2, hpair⟩
        · rintro ⟨⟨hfirst, hbits⟩, hrun, hpair⟩
          exact ⟨hfirst, fun run hmem => ⟨hbits run hmem, hrun run hmem⟩, hpair⟩
      · have hruns : bitSets msg (⟨t, names⟩ :: sets) = bitSets msg sets := by
          simp [bitSets, hbit]
        have hafter : bitsAfterSet bits t (msg.get t names) = bits := by
          cases t with
          | bit => exact absurd rfl hbit
          | _ => rfl
        rw [hruns, hafter]
        exact and_iff_right (received_of_ne_bit hbit bits _)

/-! ## Methods -/

/-- At most eight adjacent fields are bits. -/
def MethodDefinition.BitsFit (m : MethodDefinition) : Prop :=
  ∀ run, run <:+: m.fields → (∀ field ∈ run, field.type = .bit) → run.length ≤ 8

/-- The values of the runs of adjacent bits, in the order of the fields. -/
def MethodDefinition.bitRuns (m : MethodDefinition) (msg : Record) : List (List Bool) :=
  ((m.fields.splitBy sameType).filter fun run => run.all fun field => field.type = .bit).map
    fun run => run.map fun field => msg ⟨field.name, .bit⟩

theorem bitRuns_eq {m : MethodDefinition}
    (hfields : sets.map Fieldset.fields = m.fields.splitBy sameType)
    (hnames : ∀ set ∈ sets, set.names ≠ []) (msg : Record) :
    m.bitRuns msg = bitSets msg sets := by
  have hall : ∀ set ∈ sets, (set.fields.all fun field => decide (field.type = .bit)) =
      decide (set.amqpType = .bit) := by
    intro set hset
    obtain ⟨name, names, hcons⟩ := List.exists_cons_of_ne_nil (hnames set hset)
    by_cases hbit : set.amqpType = .bit <;> simp [Fieldset.fields, hcons, hbit]
  rw [MethodDefinition.bitRuns, bitSets, ← hfields, List.filter_map, List.map_map]
  have hfilter : sets.filter ((fun run : List SpecField =>
      run.all fun field => decide (field.type = .bit)) ∘ Fieldset.fields) =
        sets.filter fun set => decide (set.amqpType = .bit) :=
    List.filter_congr hall
  rw [hfilter]
  apply List.map_congr_left
  intro set _
  simp [Fieldset.fields, Record.get]

/-- The generated `write` and `read` are run one after the other: `read` always takes
exactly the bytes that `write` has written, and every field is restored exactly when no
run of bits follows a run with a bit set that is clear in it. -/
theorem generated_roundTrip_iff (m : MethodDefinition) (msg : Record) (hbits : m.BitsFit)
    (hdom : ∀ field ∈ m.fields, field.type.Encodable (msg field)) :
    ∃ sets enc msg', fieldsets m.fields = some sets ∧ Writes (writeMethod sets msg) enc ∧
      (∀ rest, readMethod sets (enc ++ rest) = .ok msg' rest) ∧
      ((∀ field ∈ m.fields, msg' field = field.type.asRead (msg field)) ↔
        (m.bitRuns msg).Pairwise Covered) := by
  obtain ⟨sets, hsets, hfields, hnames⟩ := fieldsets_spec m.fields
  have hflat : sets.flatMap Fieldset.fields = m.fields := by
    rw [List.flatMap_def, hfields, List.flatten_splitBy]
  have hnodup : (sets.flatMap Fieldset.names).Nodup := by
    have hmap : sets.flatMap Fieldset.names = m.fields.map SpecField.name := by
      rw [← hflat, List.map_flatMap]
      apply List.flatMap_congr
      intro set _
      rw [Fieldset.fields, List.map_map]
      exact (List.map_id _).symm
    rw [hmap]
    exact m.distinct
  have height : ∀ set ∈ sets, set.amqpType = .bit → set.names.length ≤ 8 := by
    intro set hset hbit
    have hrun : set.fields <:+: m.fields := by
      rw [← hflat, List.flatMap_def]
      exact List.infix_of_mem_flatten (List.mem_map_of_mem hset)
    have hle := hbits set.fields hrun fun field hfield => by
      obtain ⟨name, -, rfl⟩ := List.mem_map.mp hfield
      exact hbit
    simpa [Fieldset.fields] using hle
  rw [← hflat] at hdom
  obtain ⟨enc, hw, hd⟩ := roundTrips_body 0 (fun field => field.type.zero) hdom
  refine ⟨sets, enc, _, hsets, hw, hd.reads, ?_⟩
  rw [← hflat, receive_restored_iff hnodup height, bitRuns_eq hfields hnames]
  refine and_iff_right fun run _ k hk => ?_
  simp at hk

/-- A bit, an octet and another bit. -/
def twoRuns : MethodDefinition where
  fields := [⟨"first", .bit⟩, ⟨"middle", .octet⟩, ⟨"last", .bit⟩]
  distinct := by decide

theorem twoRuns_bitsFit : twoRuns.BitsFit := by
  intro run hrun _
  exact hrun.length_le.trans (by decide)

/-- Both bits are set. -/
theorem generated_roundTrip_of_both_set :
    ∃ sets enc msg', fieldsets twoRuns.fields = some sets ∧
      Writes (writeMethod sets (Function.update
        (Function.update (fun field => field.type.zero) ⟨"first", .bit⟩ true)
        ⟨"last", .bit⟩ true)) enc ∧
      (∀ rest, readMethod sets (enc ++ rest) = .ok msg' rest) ∧
      msg' ⟨"first", .bit⟩ = true ∧ msg' ⟨"last", .bit⟩ = true := by
  set msg : Record := Function.update
    (Function.update (fun field => field.type.zero) ⟨"first", .bit⟩ true)
    ⟨"last", .bit⟩ true
  have hdom : ∀ field ∈ twoRuns.fields, field.type.Encodable (msg field) := by
    intro field hfield
    simp only [twoRuns, List.mem_cons, List.not_mem_nil, or_false] at hfield
    rcases hfield with rfl | rfl | rfl <;> trivial
  obtain ⟨sets, enc, msg', hsets, hw, hread, hiff⟩ :=
    generated_roundTrip_iff twoRuns msg twoRuns_bitsFit hdom
  have hruns : twoRuns.bitRuns msg = [[true], [true]] := by decide
  have hcovered : (twoRuns.bitRuns msg).Pairwise Covered := by
    rw [hruns]
    refine List.pairwise_pair.mpr fun k _ => ?_
    cases k <;> simp
  have hrestored := hiff.mpr hcovered
  exact ⟨sets, enc, msg', hsets, hw, hread, hrestored ⟨"first", .bit⟩ (by decide),
    hrestored ⟨"last", .bit⟩ (by decide)⟩

/-- With the first bit set and the last one clear, the last one is read as set. -/
theorem generated_bit_leaks :
    ∃ sets msg', fieldsets twoRuns.fields = some sets ∧
      Writes (writeMethod sets
        (Function.update (fun field => field.type.zero) ⟨"first", .bit⟩ true)) [1, 0, 1] ∧
      readMethod sets [1, 0, 1] = .ok msg' [] ∧
      Function.update (fun field : SpecField => field.type.zero) ⟨"first", .bit⟩ true
        ⟨"last", .bit⟩ = false ∧ msg' ⟨"last", .bit⟩ = true :=
  ⟨_, _, rfl, rfl, rfl, by decide, by decide⟩

end Amqp091

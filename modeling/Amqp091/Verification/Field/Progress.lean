import Amqp091.Algorithm.ReadSource
import Amqp091.Verification.Field.Equations

/-! # Decoding through nested readers

The decoder on nested readers carries out the decoder on bytes. It therefore ends, a value
takes at least its type byte, and no limit of an enclosing array and no end of an enclosing
table is passed. -/

namespace Amqp091

namespace OnSource

open ByteCodec Source

/-! ## The decoder on bytes is carried out -/

theorem implements_readShortstr : Implements readShortstr Amqp091.readShortstr :=
  Implements.readUInt8.bind fun length => .readFull length.toNat

theorem implements_readLongstr : Implements readLongstr Amqp091.readLongstr := by
  refine Implements.readUInt32.bind fun length => ?_
  split
  · exact .pure []
  · exact .readFull length.toNat

theorem implements_readDecimal : Implements readDecimal Amqp091.readDecimal :=
  Implements.readUInt8.bind fun _ => Implements.readUInt32.map _

theorem implements_readTimestamp : Implements readTimestamp Amqp091.readTimestamp :=
  Implements.readUInt64.map _

theorem implements_readSlice (n : Int32) : Implements (readSlice n) (Amqp091.readSlice n) := by
  unfold readSlice Amqp091.readSlice
  split
  · exact .panic
  · exact .readFull _

/-- The types for which the switch of `readField` has a case. -/
def switchTypes : List Char :=
  ['t', 'B', 'b', 's', 'I', 'l', 'f', 'd', 'D', 'S', 'A', 'T', 'F', 'x', 'V']

theorem readFieldSwitch_default (a : FieldReader (List Field)) (t : FieldReader Table)
    {typ : UInt8} (h : Char.ofUInt8 typ ∉ switchTypes) :
    readFieldSwitch a t typ = SourceReader.throw (.other errSyntax) := by
  unfold readFieldSwitch
  split <;> simp_all [switchTypes]

theorem readFieldSwitch_default' (a : Amqp091.FieldReader (List Field))
    (t : Amqp091.FieldReader Table) {typ : UInt8} (h : Char.ofUInt8 typ ∉ switchTypes) :
    Amqp091.readFieldSwitch a t typ = Reader.throw (.other errSyntax) := by
  unfold Amqp091.readFieldSwitch
  split <;> simp_all [switchTypes]

theorem implements_readFieldBody {a : FieldReader (List Field)} {t : FieldReader Table}
    {a' : Amqp091.FieldReader (List Field)} {t' : Amqp091.FieldReader Table}
    (ha : Implements a a') (ht : Implements t t') :
    Implements (readFieldBody a t) (Amqp091.readFieldBody a' t') := by
  refine Implements.readUInt8.bind fun typ => ?_
  by_cases htyp : Char.ofUInt8 typ ∈ switchTypes
  · unfold readFieldSwitch Amqp091.readFieldSwitch
    generalize Char.ofUInt8 typ = c at htyp
    simp only [switchTypes, List.mem_cons, List.not_mem_nil, or_false] at htyp
    rcases htyp with rfl | rfl | rfl | rfl | rfl | rfl | rfl | rfl | rfl | rfl | rfl | rfl | rfl |
      rfl | rfl
    · exact Implements.readUInt8.map _
    · exact Implements.readUInt8.map _
    · exact Implements.readUInt8.map _
    · exact Implements.readUInt16.map _
    · exact Implements.readUInt32.map _
    · exact Implements.readUInt64.map _
    · exact Implements.readUInt32.map _
    · exact Implements.readUInt64.map _
    · exact implements_readDecimal.map _
    · exact implements_readLongstr.map _
    · exact ha.map _
    · exact implements_readTimestamp.map _
    · exact ht.map _
    · exact Implements.readUInt32.bind fun len => (implements_readSlice _).map _
    · exact .pure _
  · rw [readFieldSwitch_default a t htyp, readFieldSwitch_default' a' t' htyp]
    exact .throw _

theorem implements_readEntriesBody {f : FieldReader Field} {f' : Amqp091.FieldReader Field}
    {n : Table → FieldReader Table} {n' : Table → Amqp091.FieldReader Table}
    (hf : Implements f f') (hn : ∀ t, Implements (n t) (n' t)) (t : Table) :
    Implements (readEntriesBody f n t) (Amqp091.readEntriesBody f' n' t) := by
  intro r
  unfold readEntriesBody Amqp091.readEntriesBody
  split
  · rename_i hnil
    rw [← hnil]
    exact .ok (.refl r)
  · exact (implements_readShortstr.bind fun key => hf.bind fun v => hn (t.set key v)) r

theorem implements_readElemsBody {f : FieldReader Field} {f' : Amqp091.FieldReader Field}
    {n : List Field → FieldReader (List Field)}
    {n' : List Field → Amqp091.FieldReader (List Field)}
    (hf : Implements f f') (hn : ∀ arr, Implements (n arr) (n' arr)) (arr : List Field) :
    Implements (readElemsBody f n arr) (Amqp091.readElemsBody f' n' arr) := by
  refine hf.attempt.bind fun x => ?_
  cases x with
  | ok v => exact hn _
  | error e =>
      cases e with
      | eof => exact .pure arr
      | unexpectedEOF => exact .throw _
      | other e => exact .throw _

theorem implements_aux (n : ℕ) :
    Implements (readFieldAux n) (Amqp091.readFieldAux n) ∧
    Implements (readTableAux n) (Amqp091.readTableAux n) ∧
    (∀ t, Implements (readEntriesAux n t) (Amqp091.readEntriesAux n t)) ∧
    Implements (readArrayAux n) (Amqp091.readArrayAux n) ∧
    (∀ arr, Implements (readElemsAux n arr) (Amqp091.readElemsAux n arr)) := by
  induction n with
  | zero => exact ⟨.timeout, .timeout, fun _ => .timeout, .timeout, fun _ => .timeout⟩
  | succ n ih =>
      obtain ⟨hfield, htable, hentries, harray, helems⟩ := ih
      refine ⟨implements_readFieldBody harray htable, ?_,
        implements_readEntriesBody hfield hentries, ?_, implements_readElemsBody hfield helems⟩
      · exact implements_readLongstr.bind fun str => (hentries []).onBuffer str
      · exact Implements.readUInt32.bind fun size => (helems []).limited size.toNat

/-! ## Progress -/

/-- On every nested reader and with every sufficient bound, the functions and their loops
come to an end, leave the reader behind what they took from it, which is within all of its
limits, and a value that was read has taken at least one byte. -/
theorem fieldReaders_progress (r : Source) (more : ℕ) :
    (readFieldAux (fuelFor r.visible + more) r).EndsWithin r 1 ∧
    (readTableAux (fuelFor r.visible + more) r).EndsWithin r 0 ∧
    (∀ t, (readEntriesAux (fuelFor r.visible + more) t r).EndsWithin r 0) ∧
    (readArrayAux (fuelFor r.visible + more) r).EndsWithin r 0 ∧
    (∀ arr, (readElemsAux (fuelFor r.visible + more) arr r).EndsWithin r 0) := by
  obtain ⟨hfield, htable, hentries, harray, helems⟩ := implements_aux (fuelFor r.visible + more)
  obtain ⟨wfield, wtable, wentries, warray, welems⟩ := within_aux (fuelFor r.visible + more)
  have hloop : 2 * r.visible.length + 2 ≤ fuelFor r.visible + more := Nat.le_add_right _ _
  have hcall : 2 * r.visible.length + 1 ≤ fuelFor r.visible + more := by omega
  exact ⟨hfield.endsWithin (wfield _ hcall) le_rfl, htable.endsWithin (wtable _ hcall) le_rfl,
    fun t => (hentries t).endsWithin (wentries _ t hloop) le_rfl,
    harray.endsWithin (warray _ hcall) le_rfl,
    fun arr => (helems arr).endsWithin (welems _ arr hloop) le_rfl⟩

end OnSource

end Amqp091

import Amqp091.Algorithm.ConsumerTag
import Amqp091.Shared.Url.Escape
import Amqp091.Verification.Consumers.Registration
import Amqp091.Verification.Field.RoundTrip

/-! # Generated consumer tags do not collide

The digits behind the last dash of a tag are the value of the counter, whatever the command
name is. -/

open ByteCodec Decimal
open Url (ascii cutLast cutLast_append)

namespace Amqp091

/-! ## One tag -/

theorem dash_not_mem_formatNat (n : ℕ) : '-'.toUInt8 ∉ formatNat n := by
  intro hmem
  have hdigit := List.all_eq_true.mp (all_isDigit_formatNat n) _ hmem
  exact absurd hdigit (by decide)

theorem exists_cutLast_tagWithNumber (commandName : Bytes) (number : UInt64) :
    ∃ front, cutLast '-'.toUInt8 (tagWithNumber commandName number) =
      some (front, formatNat number.toNat) :=
  ⟨_, cutLast_append _ (dash_not_mem_formatNat number.toNat)⟩

/-- The number of a tag is found behind its last dash. -/
theorem number_eq_of_tagWithNumber_eq {name name' : Bytes} {number number' : UInt64}
    (h : tagWithNumber name number = tagWithNumber name' number') : number = number' := by
  obtain ⟨front, hfront⟩ := exists_cutLast_tagWithNumber name number
  obtain ⟨front', hfront'⟩ := exists_cutLast_tagWithNumber name' number'
  rw [h, hfront'] at hfront
  have hdigits : formatNat number'.toNat = formatNat number.toNat := by
    simpa using (congrArg (Option.map Prod.snd) hfront)
  exact UInt64.toNat_inj.mp (formatNat_injective hdigits).symm

theorem length_tagWithNumber_le (commandName : Bytes) (number : UInt64) :
    (tagWithNumber commandName number).length ≤ consumerTagLengthMax := by
  have hdigits : (formatNat number.toNat).length ≤ 20 :=
    length_formatNat_le (by decide) (number.toNat_lt.trans (by decide))
  have hctag : (ascii "ctag-").length = 5 := by decide
  have hfallback : (ascii "streadway/amqp").length = 14 := by decide
  by_cases hlong : (ascii "ctag-").length + commandName.length +
      ('-'.toUInt8 :: formatNat number.toNat).length > consumerTagLengthMax
  · rw [tagWithNumber, if_pos hlong]
    simp only [List.length_append, List.length_cons, consumerTagLengthMax]
    omega
  · rw [tagWithNumber, if_neg hlong]
    simp only [List.length_append]
    omega

/-! ## Successive calls -/

/-- The tag of a call has a number that lies above the counter by at most the number of
calls. -/
theorem exists_number_of_mem {commandNames : List Bytes} {consumerSeq : UInt64} {tag : Bytes}
    (h : tag ∈ consumerTags commandNames consumerSeq) :
    ∃ name k, 0 < k ∧ k ≤ commandNames.length ∧
      tag = tagWithNumber name (consumerSeq + UInt64.ofNat k) := by
  induction commandNames generalizing consumerSeq with
  | nil => cases h
  | cons name names ih =>
      rcases List.mem_cons.mp h with rfl | h
      · exact ⟨name, 1, Nat.one_pos, by simp, rfl⟩
      · obtain ⟨name', k, hpos, hle, rfl⟩ := ih h
        refine ⟨name', k + 1, Nat.succ_pos k, Nat.succ_le_succ hle, ?_⟩
        rw [UInt64.ofNat_add, UInt64.add_comm (UInt64.ofNat k), ← UInt64.add_assoc]
        rfl

/-- The counter comes back to a value after `2 ^ 64` calls at the earliest. -/
theorem add_ofNat_ne (consumerSeq : UInt64) {k : ℕ} (hpos : 0 < k) (hlt : k < 2 ^ 64) :
    consumerSeq ≠ consumerSeq + UInt64.ofNat k := by
  intro h
  have hzero : UInt64.ofNat k = 0 := by
    simpa using h
  have hnat := congrArg UInt64.toNat hzero
  rw [UInt64.toNat_ofNat_of_lt' hlt, UInt64.toNat_zero] at hnat
  omega

theorem nodup_consumerTags {commandNames : List Bytes} (h : commandNames.length < 2 ^ 64)
    (consumerSeq : UInt64) : (consumerTags commandNames consumerSeq).Nodup := by
  induction commandNames generalizing consumerSeq with
  | nil => exact List.nodup_nil
  | cons name names ih =>
      have hnames : names.length + 1 < 2 ^ 64 := h
      refine List.nodup_cons.mpr ⟨fun hmem => ?_, ih (by omega) _⟩
      obtain ⟨name', k, hpos, hle, htag⟩ := exists_number_of_mem hmem
      exact add_ofNat_ne _ hpos (by omega) (number_eq_of_tagWithNumber_eq htag)

theorem length_le_of_mem_consumerTags {commandNames : List Bytes} {consumerSeq : UInt64}
    {tag : Bytes} (h : tag ∈ consumerTags commandNames consumerSeq) :
    tag.length ≤ consumerTagLengthMax := by
  obtain ⟨name, k, -, -, rfl⟩ := exists_number_of_mem h
  exact length_tagWithNumber_le name _

/-- From any value of the counter and for any command names, fewer than `2 ^ 64` calls
return tags that differ and fit a short string, which is written and read unchanged. -/
theorem consumerTags_unique_and_fit (commandNames : List Bytes) (consumerSeq : UInt64)
    (h : commandNames.length < 2 ^ 64) :
    (consumerTags commandNames consumerSeq).Nodup ∧
    ∀ tag ∈ consumerTags commandNames consumerSeq, tag.length ≤ 255 ∧
      Writes (writeShortstr tag) (putBE 1 tag.length ++ tag) ∧
      Reads readShortstr (putBE 1 tag.length ++ tag) tag := by
  refine ⟨nodup_consumerTags h consumerSeq, fun tag htag => ?_⟩
  have hle : tag.length ≤ 255 := length_le_of_mem_consumerTags htag
  exact ⟨hle, writes_shortstr hle, (decodes_readShortstr hle).reads⟩

/-- A command name may end like a tag. -/
theorem consumerTags_app :
    consumerTags [ascii "app", ascii "app-1"] 0 = [ascii "ctag-app-1", ascii "ctag-app-1-2"] ∧
    (consumerTags [ascii "app", ascii "app-1"] 0).Nodup ∧
    ∀ tag ∈ consumerTags [ascii "app", ascii "app-1"] 0, tag.length ≤ 255 ∧
      Writes (writeShortstr tag) (putBE 1 tag.length ++ tag) ∧
      Reads readShortstr (putBE 1 tag.length ++ tag) tag :=
  ⟨by decide +kernel, consumerTags_unique_and_fit _ 0 (by decide)⟩

/-! ## Registering them -/

namespace Consumers

variable {δ : Type} {subs : Consumers δ} {tag : Bytes}

theorem consumers_add_of_new (h : subs.chans.lookup tag = none) (capacity : ℕ) :
    (subs.add tag capacity).consumers =
      subs.consumers ++ [{ tag := tag, capacity := capacity }] := by
  simp [add, h]

/-- `Consume` for each of the tags, with the output channel it makes. -/
def addTags (subs : Consumers δ) (tags : List Bytes) : Consumers δ :=
  tags.foldl (fun subs tag => subs.add tag 0) subs

/-- Under new tags that differ, nothing is done to any other consumer. -/
theorem consumers_addTags {tags : List Bytes} (hnodup : tags.Nodup)
    (hnew : ∀ tag ∈ tags, subs.chans.lookup tag = none) :
    (subs.addTags tags).consumers =
      subs.consumers ++ tags.map fun tag => { tag := tag, capacity := 0 } := by
  induction tags generalizing subs with
  | nil => simp [addTags]
  | cons tag tags ih =>
      obtain ⟨hnot, hnodup⟩ := List.nodup_cons.mp hnodup
      obtain ⟨hfirst, hrest⟩ := List.forall_mem_cons.mp hnew
      have hstill : ∀ tag' ∈ tags, (subs.add tag 0).chans.lookup tag' = none := by
        intro tag' htag'
        rw [lookup_add_of_ne 0 (ne_of_mem_of_not_mem htag' hnot)]
        exact hrest tag' htag'
      have hih := ih hnodup hstill
      rw [addTags] at hih ⊢
      rw [List.foldl_cons, hih, consumers_add_of_new hfirst, List.map_cons, List.append_assoc]
      rfl

/-- Consumers with generated tags never close each other. -/
theorem consumers_addTags_consumerTags {commandNames : List Bytes} {consumerSeq : UInt64}
    (h : commandNames.length < 2 ^ 64)
    (hnew : ∀ tag ∈ consumerTags commandNames consumerSeq, subs.chans.lookup tag = none) :
    (subs.addTags (consumerTags commandNames consumerSeq)).consumers =
      subs.consumers ++ (consumerTags commandNames consumerSeq).map fun tag =>
        { tag := tag, capacity := 0 } :=
  consumers_addTags (nodup_consumerTags h consumerSeq) hnew

end Consumers

end Amqp091

import Amqp091.Shared.Outcome
import Amqp091.Verification.Field.Equations

/-! # Announced lengths

A reader of a length-prefixed value honours the length when a success has consumed
exactly the bytes it announces, all of which make up the result, and when it refuses an
input with fewer of them. -/

namespace Amqp091

open ByteCodec Reader

variable {α : Type} {bs : Bytes}

/-- `into buf v`: the value `v` is made of the bytes `buf` behind the prefix. -/
structure Honours (p : FieldReader α) (width : ℕ) (into : Bytes → α → Prop) (bs : Bytes) :
    Prop where
  exact : ∀ v rest, p bs = .ok v rest →
    ∃ buf, bs = putBE width buf.length ++ (buf ++ rest) ∧ buf.length < 256 ^ width ∧ into buf v
  short : ∀ n tail, n < 256 ^ width → bs = putBE width n ++ tail → tail.length < n →
    ∃ e rest, p bs = .fail e rest

/-- Successive keys and values that take up a buffer. -/
inductive Entries : Bytes → Table → Prop
  | nil : Entries [] []
  | cons {buf mid rest key : Bytes} {v : Field} {es : Table}
      (hkey : readShortstr buf = .ok key mid) (hvalue : readField mid = .ok v rest)
      (hrest : Entries rest es) : Entries buf ((key, v) :: es)

/-- The map that results from assigning the entries in turn. -/
def Table.assign (t es : Table) : Table := es.foldl (fun t e => t.set e.1 e.2) t

/-- `t` holds the entries that take up `buf`. -/
def TableOf (buf : Bytes) (t : Table) : Prop := ∃ es, Entries buf es ∧ t = Table.assign [] es

/-- The four bytes of a length above the largest `int32`. -/
def Oversize (bs : Bytes) : Prop := 4 ≤ bs.length ∧ 0x7fffffff < getBE (bs.take 4)

instance (bs : Bytes) : Decidable (Oversize bs) := inferInstanceAs (Decidable (_ ∧ _))

theorem take_putBE_append (width n : ℕ) (tail : Bytes) :
    (putBE width n ++ tail).take width = putBE width n := by
  rw [List.take_append_of_le_length (length_putBE width n).ge, List.take_of_length_le]
  exact (length_putBE width n).le

theorem oversize_putBE {n : ℕ} (h : n < 256 ^ 4) (tail : Bytes) :
    Oversize (putBE 4 n ++ tail) ↔ 0x7fffffff < n := by
  unfold Oversize
  rw [take_putBE_append, getBE_putBE_of_lt h, List.length_append, length_putBE]
  simp

/-- A number in front of an input is its first bytes. -/
theorem putBE_append_inj {width m n : ℕ} {xs ys : Bytes} (hm : m < 256 ^ width)
    (hn : n < 256 ^ width) (h : putBE width m ++ xs = putBE width n ++ ys) : m = n ∧ xs = ys := by
  obtain ⟨hnum, htail⟩ := List.append_inj h (by rw [length_putBE, length_putBE])
  refine ⟨?_, htail⟩
  rw [← getBE_putBE_of_lt hm, hnum, getBE_putBE_of_lt hn]

/-! ## Strings -/

theorem readShortstr_eq_ok {v rest : Bytes} :
    readShortstr bs = .ok v rest ↔ v.length < 256 ∧ bs = putBE 1 v.length ++ (v ++ rest) := by
  constructor
  · intro h
    obtain ⟨length, mid, hlen, hbody⟩ := bind_eq_ok.mp h
    obtain ⟨hv, rfl⟩ := readFull_eq_ok.mp hbody
    rw [hv]
    exact ⟨length.toNat_lt, readUInt8_eq_ok.mp hlen⟩
  · rintro ⟨hlt, rfl⟩
    have hlen : (UInt8.ofNat v.length).toNat = v.length := UInt8.toNat_ofNat_of_lt' hlt
    refine bind_eq_ok.mpr ⟨UInt8.ofNat v.length, v ++ rest, ?_, ?_⟩
    · rw [readUInt8_eq_ok, hlen]
    · rw [hlen]
      exact readFull_append v rest

/-- Behind a prefix that fits an `int32`, that many bytes are read. -/
theorem readLongstr_putBE {n : ℕ} (hn : n ≤ 0x7fffffff) (tail : Bytes) :
    readLongstr (putBE 4 n ++ tail) = readFull n tail := by
  have hlen : (UInt32.ofNat n).toNat = n := UInt32.toNat_ofNat_of_lt' (hn.trans_lt (by decide))
  have hread := (decodes_readUInt32 (ε := GoError) (UInt32.ofNat n)).reads tail
  rw [hlen] at hread
  rw [readLongstr, bind_apply, hread, Result.andThen_ok, hlen, if_neg (Nat.not_lt.mpr hn)]

theorem readLongstr_oversize {n : ℕ} (h : 0x7fffffff < n) (hn : n < 256 ^ 4) (tail : Bytes) :
    readLongstr (putBE 4 n ++ tail) = .ok [] tail := by
  have hlen : (UInt32.ofNat n).toNat = n := UInt32.toNat_ofNat_of_lt' hn
  have hread := (decodes_readUInt32 (ε := GoError) (UInt32.ofNat n)).reads tail
  rw [hlen] at hread
  rw [readLongstr, bind_apply, hread, Result.andThen_ok, hlen, if_pos h]
  rfl

/-- A complete prefix stands in front of every long string that was read. -/
theorem readLongstr_prefix {v rest : Bytes} (h : readLongstr bs = .ok v rest) :
    ∃ n tail, n < 256 ^ 4 ∧ bs = putBE 4 n ++ tail := by
  obtain ⟨length, mid, hlen, -⟩ := bind_eq_ok.mp h
  exact ⟨length.toNat, mid, length.toNat_lt, readUInt32_eq_ok.mp hlen⟩

/-- A long string whose length is honoured. -/
theorem readLongstr_exact {v rest : Bytes} (hover : ¬ Oversize bs)
    (h : readLongstr bs = .ok v rest) :
    v.length ≤ 0x7fffffff ∧ bs = putBE 4 v.length ++ (v ++ rest) := by
  obtain ⟨n, tail, hn, rfl⟩ := readLongstr_prefix h
  rw [oversize_putBE hn, Nat.not_lt] at hover
  rw [readLongstr_putBE hover] at h
  obtain ⟨rfl, rfl⟩ := readFull_eq_ok.mp h
  exact ⟨hover, rfl⟩

theorem honours_readShortstr (bs : Bytes) : Honours readShortstr 1 (fun buf v => v = buf) bs where
  exact := by
    intro v rest h
    obtain ⟨hlt, hbs⟩ := readShortstr_eq_ok.mp h
    exact ⟨v, hbs, hlt, rfl⟩
  short := by
    rintro n tail hn rfl hshort
    have hlen : (UInt8.ofNat n).toNat = n := UInt8.toNat_ofNat_of_lt' hn
    have hread := (decodes_readUInt8 (ε := GoError) (UInt8.ofNat n)).reads tail
    rw [hlen] at hread
    obtain ⟨e, he⟩ := readFull_of_lt (ε := GoError) hshort
    exact ⟨e, [], by rw [readShortstr, bind_apply, hread, Result.andThen_ok, hlen, he]⟩

/-- A reader that goes on with the long string it reads. -/
theorem honours_longstr_iff {p : FieldReader α} {into : Bytes → α → Prop}
    (hexact : ∀ bs v rest, p bs = .ok v rest →
      ∃ buf, readLongstr bs = .ok buf rest ∧ into buf v)
    (hfail : ∀ bs e rest, readLongstr bs = .fail e rest → ∃ e rest, p bs = .fail e rest)
    (hempty : ∀ bs rest, readLongstr bs = .ok [] rest → ∃ v, p bs = .ok v rest) (bs : Bytes) :
    Honours p 4 into bs ↔ ¬ Oversize bs := by
  constructor
  · rintro h ⟨hlen, hover⟩
    -- the value is read as empty, although the prefix announces at least one byte
    obtain ⟨n, tail, hn, rfl⟩ : ∃ n tail, n < 256 ^ 4 ∧ bs = putBE 4 n ++ tail := by
      have htake : (bs.take 4).length = 4 := List.length_take_of_le hlen
      have hnum := putBE_getBE (bs.take 4)
      have hlt := getBE_lt (bs.take 4)
      rw [htake] at hnum hlt
      exact ⟨_, bs.drop 4, hlt, by rw [hnum, List.take_append_drop]⟩
    rw [take_putBE_append, getBE_putBE_of_lt hn] at hover
    obtain ⟨v, hv⟩ := hempty _ _ (readLongstr_oversize hover hn tail)
    obtain ⟨buf, hbs, hlt, -⟩ := h.exact v tail hv
    obtain ⟨rfl, htail⟩ := putBE_append_inj hn hlt hbs
    have hzero := congrArg List.length htail
    rw [List.length_append] at hzero
    omega
  · intro hover
    refine ⟨fun v rest hv => ?_, ?_⟩
    · obtain ⟨buf, hbuf, hinto⟩ := hexact bs v rest hv
      obtain ⟨hlen, hbs⟩ := readLongstr_exact hover hbuf
      exact ⟨buf, hbs, hlen.trans_lt (by decide), hinto⟩
    · rintro n tail hn rfl hshort
      rw [oversize_putBE hn] at hover
      obtain ⟨e, he⟩ := readFull_of_lt (ε := GoError) hshort
      exact hfail _ e [] (by rw [readLongstr_putBE (Nat.not_lt.mp hover), he])

/-! ## Tables -/

/-- The loop over a nested buffer reads entries until the buffer is used up. -/
theorem readEntries_ok {buf rest : Bytes} {t t' : Table} (h : readEntries t buf = .ok t' rest) :
    ∃ es, Entries buf es ∧ t' = t.assign es := by
  induction hn : buf.length using Nat.strong_induction_on generalizing buf t with
  | _ n ih =>
      by_cases hnil : buf = []
      · subst hnil
        rw [readEntries_nil] at h
        cases h
        exact ⟨[], .nil, rfl⟩
      · obtain ⟨key, mid, v, next, hkey, hvalue, hrest⟩ := readEntries_cons_ok hnil h
        have hmid := (readShortstr_suffix hkey).2
        have hnext := (readField_suffix hvalue).2
        obtain ⟨es, hes, rfl⟩ := ih next.length (by omega) hrest rfl
        exact ⟨(key, v) :: es, .cons hkey hvalue hes, rfl⟩

theorem readTable_of_longstr {str rest : Bytes} (h : readLongstr bs = .ok str rest) :
    readTable bs = onBuffer str (readEntries []) rest := by
  rw [readTable_eq, bind_apply, h, Result.andThen_ok]

theorem readTable_eq_ok {t : Table} {rest : Bytes} (h : readTable bs = .ok t rest) :
    ∃ buf left, readLongstr bs = .ok buf rest ∧ readEntries [] buf = .ok t left := by
  rw [readTable_eq] at h
  obtain ⟨buf, mid, hbuf, hentries⟩ := bind_eq_ok.mp h
  obtain ⟨left, hloop, rfl⟩ := onBuffer_eq_ok hentries
  exact ⟨buf, left, hbuf, hloop⟩

theorem readTable_ok {t : Table} {rest : Bytes} (h : readTable bs = .ok t rest) :
    ∃ buf, readLongstr bs = .ok buf rest ∧ TableOf buf t := by
  obtain ⟨buf, left, hbuf, hloop⟩ := readTable_eq_ok h
  obtain ⟨es, hes, heq⟩ := readEntries_ok hloop
  exact ⟨buf, hbuf, es, hes, heq⟩

/-- Short strings are read as long as they are announced to be. So are long strings and
tables, unless the length is one that the code takes for too long. -/
theorem announced_lengths_honoured_iff (bs : Bytes) :
    Honours readShortstr 1 (fun buf v => v = buf) bs ∧
    (Honours readLongstr 4 (fun buf v => v = buf) bs ↔ ¬ Oversize bs) ∧
    (Honours readTable 4 TableOf bs ↔ ¬ Oversize bs) := by
  refine ⟨honours_readShortstr bs, honours_longstr_iff ?_ ?_ ?_ bs,
    honours_longstr_iff (fun _ _ _ => readTable_ok) ?_ ?_ bs⟩
  · exact fun bs v rest h => ⟨v, h, rfl⟩
  · exact fun bs e rest h => ⟨e, rest, h⟩
  · exact fun bs rest h => ⟨[], h⟩
  · intro bs e rest h
    exact ⟨e, rest, by rw [readTable_eq, bind_apply, h, Result.andThen_fail]⟩
  · intro bs rest h
    exact ⟨[], by rw [readTable_of_longstr h, onBuffer, readEntries_nil]⟩

/-- A length of 2 GiB in front of three bytes is read as an empty string and as an empty
table, and the three bytes are left. -/
theorem oversize_length_ignored :
    readLongstr [0x80, 0, 0, 0, 1, 2, 3] = .ok [] [1, 2, 3] ∧
    readTable [0x80, 0, 0, 0, 1, 2, 3] = .ok [] [1, 2, 3] ∧
    ¬ Honours readLongstr 4 (fun buf v => v = buf) [0x80, 0, 0, 0, 1, 2, 3] ∧
    ¬ Honours readTable 4 TableOf [0x80, 0, 0, 0, 1, 2, 3] := by
  have hstr : readLongstr [0x80, 0, 0, 0, 1, 2, 3] = .ok [] [1, 2, 3] := by decide
  have htable : readTable [0x80, 0, 0, 0, 1, 2, 3] = .ok [] [1, 2, 3] := by
    rw [readTable_of_longstr hstr, onBuffer, readEntries_nil]
  refine ⟨hstr, htable, fun h => ?_, fun h => ?_⟩
  · obtain ⟨e, rest, hfail⟩ := h.short 0x80000000 [1, 2, 3] (by decide) (by decide) (by decide)
    rw [hstr] at hfail
    cases hfail
  · obtain ⟨e, rest, hfail⟩ := h.short 0x80000000 [1, 2, 3] (by decide) (by decide) (by decide)
    rw [htable] at hfail
    cases hfail

end Amqp091

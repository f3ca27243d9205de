import Amqp091.Shared.BigEndian
import Mathlib.Data.Nat.Digits.Lemmas

/-! # Decimal numbers

Go's `strconv` in base 10, over bytes. -/

namespace Decimal

open ByteCodec

inductive NumError where
  | syntaxError
  | rangeError
  deriving DecidableEq, Repr

def isDigit (c : UInt8) : Bool := '0'.toUInt8 ≤ c && c ≤ '9'.toUInt8

/-- The number that digits stand for, the first one being the highest. -/
def value (s : Bytes) : ℕ := s.foldl (fun n c => n * 10 + (c.toNat - '0'.toNat)) 0

def parseDigits (s : Bytes) : Except NumError ℕ :=
  if s ≠ [] ∧ s.all isDigit then .ok (value s) else .error .syntaxError

/-- `ParseUint` for a number of bits. -/
def parseUint (s : Bytes) (bits : ℕ) : Except NumError ℕ := do
  let n ← parseDigits s
  if n < 2 ^ bits then return n else throw .rangeError

/-- `ParseInt` for a number of bits. -/
def parseInt (s : Bytes) (bits : ℕ) : Except NumError ℤ :=
  if s.head? = some '-'.toUInt8 then do
    let n ← parseDigits s.tail
    if n ≤ 2 ^ (bits - 1) then return -n else throw .rangeError
  else do
    let n ← parseDigits (if s.head? = some '+'.toUInt8 then s.tail else s)
    if n < 2 ^ (bits - 1) then return n else throw .rangeError

def formatNat (n : ℕ) : Bytes :=
  if n = 0 then ['0'.toUInt8]
  else (Nat.digits 10 n).reverse.map fun d => UInt8.ofNat ('0'.toNat + d)

/-- `FormatInt`. -/
def formatInt (n : ℤ) : Bytes :=
  if n < 0 then '-'.toUInt8 :: formatNat n.natAbs else formatNat n.natAbs

/-! ## What is printed is read back -/

theorem value_append (s : Bytes) (c : UInt8) :
    value (s ++ [c]) = value s * 10 + (c.toNat - '0'.toNat) := by
  rw [value, List.foldl_append]
  rfl

theorem value_digits {ds : List ℕ} (h : ∀ d ∈ ds, d < 10) :
    value (ds.reverse.map fun d => UInt8.ofNat ('0'.toNat + d)) = Nat.ofDigits 10 ds := by
  induction ds with
  | nil => rfl
  | cons d ds ih =>
      obtain ⟨hd, hds⟩ := List.forall_mem_cons.mp h
      have hzero : '0'.toNat = 48 := rfl
      rw [List.reverse_cons, List.map_append, List.map_singleton, value_append, ih hds,
        Nat.ofDigits_cons, UInt8.toNat_ofNat', hzero]
      omega

theorem isDigit_ofNat {d : ℕ} (h : d < 10) : isDigit (UInt8.ofNat ('0'.toNat + d)) = true := by
  have hall : ∀ d < 10, isDigit (UInt8.ofNat ('0'.toNat + d)) = true := by decide
  exact hall d h

theorem all_isDigit_formatNat (n : ℕ) : (formatNat n).all isDigit = true := by
  rw [formatNat]
  split
  · decide
  · rw [List.all_map, List.all_reverse, List.all_eq_true]
    exact fun d hd => isDigit_ofNat (Nat.digits_lt_base (by decide) hd)

theorem formatNat_ne_nil (n : ℕ) : formatNat n ≠ [] := by
  rw [formatNat]
  split
  · exact List.cons_ne_nil _ _
  · rename_i hn
    simpa [Nat.digits_ne_nil_iff_ne_zero] using hn

theorem value_formatNat (n : ℕ) : value (formatNat n) = n := by
  rw [formatNat]
  split
  · rename_i hn
    rw [hn]
    rfl
  · rw [value_digits fun d hd => Nat.digits_lt_base (by decide) hd, Nat.ofDigits_digits]

theorem formatNat_injective : Function.Injective formatNat :=
  Function.LeftInverse.injective value_formatNat

theorem length_formatNat_le {n k : ℕ} (hk : 0 < k) (h : n < 10 ^ k) :
    (formatNat n).length ≤ k := by
  rw [formatNat]
  split
  · exact hk
  · rw [List.length_map, List.length_reverse]
    exact (Nat.digits_length_le_iff (by decide) n).mpr h

theorem parseDigits_formatNat (n : ℕ) : parseDigits (formatNat n) = .ok n := by
  rw [parseDigits, if_pos ⟨formatNat_ne_nil n, all_isDigit_formatNat n⟩, value_formatNat]

theorem head?_formatNat (n : ℕ) {c : UInt8} (h : isDigit c = false) :
    (formatNat n).head? ≠ some c := by
  intro hhead
  have hall := List.all_eq_true.mp (all_isDigit_formatNat n) c (List.mem_of_mem_head? hhead)
  rw [h] at hall
  cases hall

theorem parseInt_formatNat {n bits : ℕ} (h : n < 2 ^ (bits - 1)) :
    parseInt (formatNat n) bits = .ok n := by
  rw [parseInt, if_neg (head?_formatNat n (by decide)), if_neg (head?_formatNat n (by decide)),
    parseDigits_formatNat]
  exact if_pos h

/-- A number of digits only is not negative. -/
theorem exists_nat_of_parseInt {s : Bytes} {bits : ℕ} {z : ℤ} (hall : s.all isDigit = true)
    (h : parseInt s bits = .ok z) : ∃ n : ℕ, z = n ∧ n < 2 ^ (bits - 1) := by
  have hhead : ∀ c, isDigit c = false → s.head? ≠ some c := by
    intro c hc hs
    have hd := List.all_eq_true.mp hall c (List.mem_of_mem_head? hs)
    rw [hc] at hd
    cases hd
  rw [parseInt, if_neg (hhead _ (by decide)), if_neg (hhead _ (by decide))] at h
  cases hn : parseDigits s with
  | error e =>
      rw [hn] at h
      cases h
  | ok n =>
      rw [hn] at h
      by_cases hlt : n < 2 ^ (bits - 1)
      · exact ⟨n, (Except.ok.inj ((if_pos hlt).symm.trans h)).symm, hlt⟩
      · cases (if_neg hlt).symm.trans h

end Decimal

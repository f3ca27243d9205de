import Mathlib.Data.List.Induction
import Mathlib.Tactic.Ring

/-! # Big-endian numerals over byte lists -/

namespace ByteCodec

abbrev Bytes := List UInt8

/-- The low `width` base-256 digits of `n`, most significant first. -/
def putBE : ℕ → ℕ → Bytes
  | 0, _ => []
  | width + 1, n => putBE width (n / 256) ++ [UInt8.ofNat n]

/-- The number denoted by a digit string, most significant digit first. -/
def getBE (bs : Bytes) : ℕ :=
  bs.foldl (fun acc b => acc * 256 + b.toNat) 0

@[simp] theorem length_putBE (width n : ℕ) : (putBE width n).length = width := by
  induction width generalizing n with
  | zero => rfl
  | succ width ih => simp [putBE, ih]

@[simp] theorem getBE_nil : getBE [] = 0 := rfl

theorem getBE_append_singleton (bs : Bytes) (b : UInt8) :
    getBE (bs ++ [b]) = getBE bs * 256 + b.toNat := by
  simp [getBE, List.foldl_append]

/-- Reading back `width` digits recovers the number modulo `256 ^ width`. -/
theorem getBE_putBE (width n : ℕ) : getBE (putBE width n) = n % 256 ^ width := by
  induction width generalizing n with
  | zero => simp [putBE, Nat.mod_one]
  | succ width ih =>
      rw [putBE, getBE_append_singleton, ih, pow_succ, mul_comm (256 ^ width) 256,
        Nat.mod_mul]
      have hdigit : (UInt8.ofNat n).toNat = n % 256 := by simp
      rw [hdigit]
      ring

theorem getBE_putBE_of_lt {width n : ℕ} (h : n < 256 ^ width) :
    getBE (putBE width n) = n := by
  rw [getBE_putBE, Nat.mod_eq_of_lt h]

theorem getBE_lt (bs : Bytes) : getBE bs < 256 ^ bs.length := by
  induction bs using List.reverseRecOn with
  | nil => simp
  | append_singleton bs b ih =>
      rw [getBE_append_singleton, List.length_append, List.length_singleton, pow_succ]
      have hb := b.toNat_lt
      omega

/-- Digit strings are the numerals of their own width. -/
theorem putBE_getBE (bs : Bytes) : putBE bs.length (getBE bs) = bs := by
  induction bs using List.reverseRecOn with
  | nil => rfl
  | append_singleton bs b ih =>
      have hb := b.toNat_lt
      have hdiv : (getBE bs * 256 + b.toNat) / 256 = getBE bs := by omega
      rw [getBE_append_singleton, List.length_append, List.length_singleton, putBE, hdiv, ih]
      congr 2
      apply UInt8.toNat_inj.mp
      rw [UInt8.toNat_ofNat']
      omega

end ByteCodec

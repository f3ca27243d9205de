import Amqp091.Algorithm.ReadFrame
import Amqp091.Algorithm.WriteFrame
import Amqp091.Shared.Codec
import Amqp091.Verification.Field.RoundTrip

/-! # Computation rules for the frame codec -/

namespace Amqp091

open ByteCodec Reader

/-! ## Frame headers -/

/-- The seven octets in front of a payload of `n` bytes. -/
def frameHeaderBytes (typ : UInt8) (channel : UInt16) (n : ℕ) : Bytes :=
  typ :: putBE 2 channel.toNat ++ putBE 4 n

theorem length_frameHeaderBytes (typ : UInt8) (channel : UInt16) (n : ℕ) :
    (frameHeaderBytes typ channel n).length = 7 := by
  simp [frameHeaderBytes]

theorem and_byte_mask (x : ℕ) : x &&& 0xff = x % 256 :=
  Nat.and_two_pow_sub_one_eq_mod x 8

/-- Masking one byte of a number and shifting it down yields that base-256 digit. -/
theorem mask_shift_byte (x k : ℕ) : (x &&& (0xff <<< k)) >>> k = x / 2 ^ k % 256 := by
  rw [Nat.shiftRight_and_distrib, Nat.shiftLeft_shiftRight, and_byte_mask,
    Nat.shiftRight_eq_div_pow]

theorem channel_bytes (channel : UInt16) :
    [((channel &&& 0xff00) >>> 8).toUInt8, ((channel &&& 0x00ff) >>> 0).toUInt8] =
      putBE 2 channel.toNat := by
  have hhi := mask_shift_byte channel.toNat 8
  simp only [putBE, List.nil_append, List.cons_append, List.cons.injEq, and_true]
  constructor
  · apply UInt8.toNat_inj.mp
    simp at hhi ⊢
    omega
  · apply UInt8.toNat_inj.mp
    simp [and_byte_mask]

theorem size_bytes (n : ℕ) :
    [((UInt64.ofNat n &&& 0xff000000) >>> 24).toUInt8,
      ((UInt64.ofNat n &&& 0x00ff0000) >>> 16).toUInt8,
      ((UInt64.ofNat n &&& 0x0000ff00) >>> 8).toUInt8,
      ((UInt64.ofNat n &&& 0x000000ff) >>> 0).toUInt8] = putBE 4 n := by
  have h3 := mask_shift_byte (n % 2 ^ 64) 24
  have h2 := mask_shift_byte (n % 2 ^ 64) 16
  have h1 := mask_shift_byte (n % 2 ^ 64) 8
  simp only [putBE, List.nil_append, List.cons_append, List.cons.injEq, and_true]
  refine ⟨?_, ?_, ?_, ?_⟩
  · apply UInt8.toNat_inj.mp
    simp at h3 ⊢
    omega
  · apply UInt8.toNat_inj.mp
    simp at h2 ⊢
    omega
  · apply UInt8.toNat_inj.mp
    simp at h1 ⊢
    omega
  · apply UInt8.toNat_inj.mp
    simp [and_byte_mask]

theorem writes_writeFrame (typ : UInt8) (channel : UInt16) (payload : Bytes) :
    Writes (writeFrame typ channel payload)
      (frameHeaderBytes typ channel payload.length ++ (payload ++ [frameEnd])) := by
  have hhead : frameHeaderBytes typ channel payload.length =
      [typ, ((channel &&& 0xff00) >>> 8).toUInt8, ((channel &&& 0x00ff) >>> 0).toUInt8,
        ((UInt64.ofNat payload.length &&& 0xff000000) >>> 24).toUInt8,
        ((UInt64.ofNat payload.length &&& 0x00ff0000) >>> 16).toUInt8,
        ((UInt64.ofNat payload.length &&& 0x0000ff00) >>> 8).toUInt8,
        ((UInt64.ofNat payload.length &&& 0x000000ff) >>> 0).toUInt8] := by
    rw [frameHeaderBytes, ← channel_bytes, ← size_bytes]
    rfl
  rw [hhead]
  exact (Writes.emit _).bind ((Writes.emit payload).bind (Writes.emit [frameEnd]))

/-- After a complete frame header only the payload parser and the end octet remain. -/
theorem readFrame_header (typ : UInt8) (channel : UInt16) (n : ℕ) (bs : Bytes) :
    readFrame (frameHeaderBytes typ channel n ++ bs) =
      (parseFrame typ channel (UInt32.ofNat n) >>= endFrame) bs := by
  have hread := readFull_append (ε := GoError) (frameHeaderBytes typ channel n) bs
  rw [length_frameHeaderBytes] at hread
  have htyp : UInt8.ofNat (getBE ((frameHeaderBytes typ channel n).take 1)) = typ := by
    simp [frameHeaderBytes, getBE]
  have hchannel : UInt16.ofNat (getBE (((frameHeaderBytes typ channel n).drop 1).take 2)) =
      channel := by
    have htake : ((frameHeaderBytes typ channel n).drop 1).take 2 = putBE 2 channel.toNat := by
      simp [frameHeaderBytes]
    rw [htake, getBE_putBE_of_lt channel.toNat_lt, UInt16.ofNat_toNat]
  have hsize : UInt32.ofNat (getBE (((frameHeaderBytes typ channel n).drop 3).take 4)) =
      UInt32.ofNat n := by
    have htake : ((frameHeaderBytes typ channel n).drop 3).take 4 = putBE 4 n := by
      simp [frameHeaderBytes]
    rw [htake, getBE_putBE]
    exact UInt32.ofNat_mod_size
  simp only [readFrame, bind_apply, attempt, hread, Result.andThen_ok, htyp, hchannel, hsize]

theorem readFrame_of_short {bs : Bytes} (h : bs.length < 7) :
    ∃ e, readFrame bs = .ok ⟨none, some e⟩ [] := by
  obtain ⟨e, he⟩ := readFull_of_lt (ε := GoError) h
  exact ⟨e, by simp [readFrame, attempt, he]⟩

theorem endFrame_of_err (frame : Option Frame) (e : ReadErr) :
    endFrame ⟨frame, some e⟩ = pure ⟨frame, some e⟩ := rfl

theorem endFrame_frameEnd (frame : Option Frame) (rest : Bytes) :
    endFrame ⟨frame, none⟩ (frameEnd :: rest) = .ok ⟨frame, none⟩ rest := by
  have hread := readFull_append (ε := GoError) [frameEnd] rest
  rw [List.length_singleton, List.singleton_append] at hread
  simp [endFrame, attempt, hread]

theorem endFrame_of_ne {b : UInt8} (hb : b ≠ frameEnd) (frame : Option Frame) (rest : Bytes) :
    endFrame ⟨frame, none⟩ (b :: rest) = .ok ⟨none, some (.other errFrame)⟩ rest := by
  have hread := readFull_append (ε := GoError) [b] rest
  rw [List.length_singleton, List.singleton_append] at hread
  simp [endFrame, attempt, hread, hb]

theorem endFrame_nil (frame : Option Frame) :
    endFrame ⟨frame, none⟩ [] = .ok ⟨none, some .eof⟩ [] := rfl

/-- The body branch of the switch repeats the error it was given, without a frame. -/
theorem parseFrame_body (channel : UInt16) (size : UInt32) :
    parseFrame frameBody channel size = parseBodyFrame channel size := by
  have hswitch : parseFrame frameBody channel size = (do
      let parsed ← parseBodyFrame channel size
      if parsed.err.isSome then return ⟨none, parsed.err⟩ else return parsed) := rfl
  funext bs
  rw [hswitch, bind_apply, parseBodyFrame, namedResults, bind_apply, attempt]
  cases (do let body ← readFull size.toNat; return Frame.body channel body :
    FieldReader Frame) bs <;> rfl

/-! ## Property flags -/

theorem hasProperty_zero (flag : ℕ) : hasProperty 0 flag = false := by
  simp [hasProperty]

/-- Setting `flag` under a condition is visible under exactly the flags sharing a bit. -/
theorem hasProperty_maskIf {present : Bool} {flag other : ℕ} {mask : UInt16}
    (h : flag < 2 ^ 16) :
    hasProperty (maskIf present flag mask) other =
      (hasProperty mask other || (present && decide (0 < flag &&& other))) := by
  cases present with
  | false => simp [maskIf]
  | true =>
      have hflag : (UInt16.ofNat flag).toNat = flag := UInt16.toNat_ofNat_of_lt' h
      simp only [maskIf, if_true, hasProperty, UInt16.toNat_or, hflag, Nat.and_or_distrib_right,
        Bool.true_and, ← Bool.decide_or, gt_iff_lt, decide_eq_decide]
      simp only [Nat.pos_iff_ne_zero, ne_eq, Nat.or_eq_zero_iff]
      tauto

/-! ## Bits of a method -/

theorem testBit_setBits (l : List Bool) (bits : UInt8) (off : ℕ) (h : off + l.length ≤ 8)
    (i : ℕ) :
    (setBits bits off l).toNat.testBit i =
      (bits.toNat.testBit i || (decide (off ≤ i) && l.getD (i - off) false)) := by
  induction l generalizing bits off with
  | nil => simp [setBits]
  | cons b l ih =>
      have hoff : off < 8 := by
        simp only [List.length_cons] at h
        omega
      have hpow : (UInt8.ofNat (1 <<< off)).toNat = 2 ^ off := by
        rw [Nat.one_shiftLeft]
        exact UInt8.toNat_ofNat_of_lt' (Nat.pow_lt_pow_right (by decide) hoff)
      rw [setBits, ih _ _ (by simp only [List.length_cons] at h; omega)]
      rcases Nat.lt_trichotomy i off with hlt | rfl | hgt
      · have h1 : ¬off + 1 ≤ i := by omega
        have h2 : ¬off ≤ i := by omega
        cases b <;> simp [h1, h2, hpow, Nat.ne_of_gt hlt]
      · cases b <;> simp [hpow]
      · obtain ⟨j, rfl⟩ := Nat.exists_eq_add_of_lt hgt
        have h1 : off ≤ off + j + 1 := by omega
        have hj : off + j + 1 - off = j + 1 := by omega
        have hj' : off + j + 1 - (off + 1) = j := by omega
        have hne : off ≠ off + j + 1 := by omega
        cases b <;> simp [h1, hj, hj', hpow, hne]

end Amqp091

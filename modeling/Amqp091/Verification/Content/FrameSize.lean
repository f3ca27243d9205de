import Amqp091.Algorithm.Tune
import Amqp091.Verification.Content.Chunking

/-! # Chunking under every negotiated frame size

The negotiation lets any size through. The loop over the body makes progress when the
frame size leaves room for at least one byte, or stands for no limit at all. -/

namespace Amqp091

open ByteCodec

variable {body : Bytes}

/-! ## Machine integers -/

theorem toInt_lenInt (h : body.length ≤ 2 ^ 62) : (lenInt body).toInt = body.length :=
  Int64.toInt_ofNat_of_lt (by omega)

theorem toInt_frameMax (frameMax : UInt32) :
    frameMax.toUInt64.toInt64.toInt = frameMax.toNat := by
  have hlt := frameMax.toNat_lt
  have heq : frameMax.toUInt64.toInt64 = Int64.ofNat frameMax.toNat := by
    apply Int64.toBitVec_inj.mp
    apply BitVec.eq_of_toNat_eq
    simp
  rw [heq]
  exact Int64.toInt_ofNat_of_lt (by omega)

/-- An index that the loop goes on from has not wrapped. Behind the last chunk the other
index may, and is not used. -/
theorem chunkLoopInt_eq (hlen : body.length ≤ 2 ^ 62) (size : Int64) (rounds : ℕ) (i j : Int64)
    (hi : 0 ≤ i.toInt) (hj : i.toInt < body.length → j.toInt = i.toInt + size.toInt) :
    chunkLoopInt body size rounds i j =
      chunkLoop body size.toInt rounds i.toInt (i.toInt + size.toInt) := by
  induction rounds generalizing i j with
  | zero => rfl
  | succ rounds ih =>
      have hlenInt := toInt_lenInt hlen
      rw [chunkLoopInt, chunkLoop]
      simp only [Int64.lt_iff_toInt_lt, gt_iff_lt, hlenInt]
      by_cases hlt : i.toInt < body.length
      · rw [if_pos hlt, if_pos hlt, hj hlt]
        set j' : Int64 := if (body.length : ℤ) < i.toInt + size.toInt then lenInt body else j
          with hj'
        have hclamp : j'.toInt = if (body.length : ℤ) < i.toInt + size.toInt
            then (body.length : ℤ) else i.toInt + size.toInt := by
          rw [hj']
          split
          · exact hlenInt
          · exact hj hlt
        rw [← hclamp]
        cases hslice : sliceBody body i.toInt j'.toInt with
        | none => rfl
        | some chunk =>
            have hbounds : 0 ≤ i.toInt ∧ i.toInt ≤ j'.toInt ∧ j'.toInt ≤ body.length := by
              by_contra hout
              rw [sliceBody, if_neg hout] at hslice
              cases hslice
            have hnext := ih j' (j' + size) (by omega) fun hmore => by
              -- the chunk was not clamped, so its size is at most the length of the body
              have hstep : j'.toInt = i.toInt + size.toInt := by
                rw [hclamp] at hmore ⊢
                split at hmore
                · omega
                · rename_i hle
                  rw [if_neg hle]
              rw [Int64.toInt_add, Int.bmod_eq_of_le (by omega) (by omega)]
            simp only [hnext]
      · rw [if_neg hlt, if_neg hlt]

/-! ## The chunk size -/

theorem toInt_pick (client server : Int64) :
    (pick client server).toInt =
      if client.toInt = 0 ∨ server.toInt = 0 then max client.toInt server.toInt
      else min client.toInt server.toInt := by
  have hzero : ∀ x : Int64, x = 0 ↔ x.toInt = 0 := by
    intro x
    rw [← Int64.toInt_inj, Int64.toInt_zero]
  simp only [pick, maxInt, minInt, hzero, gt_iff_lt, Int64.lt_iff_toInt_lt]
  split
  · split <;> omega
  · split <;> omega

/-- A frame size that is neither zero nor above the eight bytes of the frame around the
payload comes from one of the two sides. -/
theorem tunedFrameSize_cases {config : Int64} (hconfig : 0 ≤ config) (frameMax : UInt32) :
    0 ≤ (tunedFrameSize config frameMax).toInt ∧
    ((tunedFrameSize config frameMax).toInt ≤ 0 ∨ 8 < (tunedFrameSize config frameMax).toInt ↔
      (config = 0 ∨ 8 < config) ∧ (frameMax = 0 ∨ 8 < frameMax)) := by
  have hserver := toInt_frameMax frameMax
  rw [Int64.le_iff_toInt_le, Int64.toInt_zero] at hconfig
  have hpick := toInt_pick config frameMax.toUInt64.toInt64
  rw [hserver] at hpick
  have hconfig8 : (8 : Int64).toInt = 8 := rfl
  have hframe8 : (8 : UInt32).toNat = 8 := rfl
  rw [tunedFrameSize, hpick, ← Int64.toInt_inj, Int64.toInt_zero, Int64.lt_iff_toInt_lt, hconfig8,
    ← UInt32.toNat_inj, UInt32.toNat_zero, UInt32.lt_iff_toNat_lt, hframe8]
  split <;> omega

theorem toInt_chunkSizeInt (hlen : body.length ≤ 2 ^ 62) {frameSize : Int64}
    (hframe : 0 ≤ frameSize.toInt) :
    (chunkSizeInt frameSize body).toInt = chunkSize frameSize.toInt body := by
  have hlt := frameSize.toInt_lt
  rw [chunkSizeInt, chunkSize]
  simp only [gt_iff_lt, Int64.lt_iff_toInt_lt, Int64.toInt_zero]
  split
  · have height : (8 : Int64).toInt = 8 := rfl
    rw [Int64.toInt_sub, height, frameHeaderSize, Int.bmod_eq_of_le (by omega) (by omega)]
  · exact toInt_lenInt hlen

theorem chunkBody_eq (hlen : body.length ≤ 2 ^ 62) {frameSize : Int64}
    (hframe : 0 ≤ frameSize.toInt) (rounds : ℕ) :
    chunkBody frameSize body rounds =
      chunkLoop body (chunkSize frameSize.toInt body) rounds 0
        (chunkSize frameSize.toInt body) := by
  have hloop := chunkLoopInt_eq hlen (chunkSizeInt frameSize body) rounds 0
    (chunkSizeInt frameSize body) (by decide) (by simp)
  rw [toInt_chunkSizeInt hlen hframe, Int64.toInt_zero, zero_add] at hloop
  exact hloop

/-! ## Progress -/

/-- Without room for a byte the loop cuts off empty chunks for ever, or slices up to a
negative bound. -/
theorem chunkLoop_of_nonpos (hbody : body ≠ []) {size : ℤ} (hsize : size ≤ 0) (rounds : ℕ) :
    chunkLoop body size rounds 0 size = .timeout ∨ chunkLoop body size rounds 0 size = .panic := by
  have hpos : 0 < body.length := List.length_pos_iff.mpr hbody
  induction rounds with
  | zero => exact .inl rfl
  | succ rounds ih =>
      rw [chunkLoop, if_pos (by omega), if_neg (by omega)]
      by_cases hzero : size = 0
      · subst hzero
        have hslice : sliceBody body 0 0 = some [] := by
          rw [sliceBody, if_pos (by omega)]
          rfl
        simp only [hslice, zero_add]
        rcases ih with ih | ih
        · exact .inl (by rw [ih]; rfl)
        · exact .inr (by rw [ih]; rfl)
      · have hslice : sliceBody body 0 size = none := by
          rw [sliceBody, if_neg (by omega)]
        exact .inr (by simp only [hslice])

/-- The loop ends without a slice out of bounds and without an empty chunk. -/
def ChunksSafely (frameSize : Int64) (body : Bytes) : Prop :=
  ∃ rounds chunks, chunkBody frameSize body rounds = .done chunks ∧ ∀ chunk ∈ chunks, chunk ≠ []

theorem chunksSafely_iff (hlen : body.length ≤ 2 ^ 62) {frameSize : Int64}
    (hframe : 0 ≤ frameSize.toInt) :
    ChunksSafely frameSize body ↔ body = [] ∨ frameSize.toInt ≤ 0 ∨ 8 < frameSize.toInt := by
  simp only [ChunksSafely, chunkBody_eq hlen hframe]
  constructor
  · rintro ⟨rounds, chunks, hloop, -⟩
    by_contra hcond
    simp only [not_or, not_le, not_lt] at hcond
    have hsize : chunkSize frameSize.toInt body ≤ 0 := by
      rw [chunkSize, if_pos hcond.2.1, frameHeaderSize]
      omega
    rcases chunkLoop_of_nonpos hcond.1 hsize rounds with h | h
    · rw [h] at hloop
      cases hloop
    · rw [h] at hloop
      cases hloop
  · intro hcond
    by_cases hempty : body = []
    · refine ⟨1, [], ?_, by simp⟩
      rw [hempty]
      rfl
    · obtain ⟨size, hsize, hpos, -⟩ := chunkSize_pos (hcond.resolve_left hempty) hempty
      obtain ⟨chunks, hloop, -, hchunks⟩ :=
        chunkLoop_spec body hpos (i := 0) (Nat.lt_succ_self _)
      rw [Nat.cast_zero, zero_add, ← hsize] at hloop
      exact ⟨_, chunks, hloop, fun chunk hchunk => (hchunks chunk hchunk).1⟩

/-- The body is cut safely exactly if there is nothing to cut, or each side asks for no
limit or for more than the eight bytes around a payload. -/
theorem chunking_safe_iff {rt : GoRuntime} (hmax : rt.maxAlloc ≤ 2 ^ 62) {config : Int64}
    (hconfig : 0 ≤ config) (frameMax : UInt32) (c : Content rt) :
    ChunksSafely (tunedFrameSize config frameMax) c.body ↔
      c.body = [] ∨ (config = 0 ∨ 8 < config) ∧ (frameMax = 0 ∨ 8 < frameMax) := by
  obtain ⟨hframe, hcases⟩ := tunedFrameSize_cases hconfig frameMax
  rw [chunksSafely_iff (c.body_le.trans hmax) hframe, hcases]

/-- Nine bytes of the server against no limit of the client. -/
theorem chunking_safe_iff_smallest :
    let publish : Message := ⟨.basicPublish, ((0 : UInt16), [], [], #[false, false].toVector, ())⟩
    let c : Content .exact := ⟨publish, {}, [1, 2], rfl, by decide⟩
    ChunksSafely (tunedFrameSize 0 9) c.body ↔
      c.body = [] ∨
        ((0 : Int64) = 0 ∨ 8 < (0 : Int64)) ∧ ((9 : UInt32) = 0 ∨ 8 < (9 : UInt32)) := by
  intro publish c
  exact chunking_safe_iff (by decide) (by decide) 9 c

/-- A server that allows eight bytes a frame: the loop does not end on a body of one byte. -/
theorem chunking_stuck_at_eight : ¬ ChunksSafely (tunedFrameSize 0 8) [1] := by
  rw [chunksSafely_iff (by decide) (by decide)]
  decide

end Amqp091

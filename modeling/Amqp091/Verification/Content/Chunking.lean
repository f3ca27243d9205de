import Amqp091.Algorithm.SendOpen
import Mathlib.Tactic.Ring

/-! # Chunks of a message body -/

namespace Amqp091

open ByteCodec

/-- The bounds the loop passes to a slice inside the body, and that slice. -/
theorem sliceBody_window {body : Bytes} {i : ℕ} (size : ℕ) (hi : i < body.length) :
    ∃ j : ℕ, j = min (i + size) body.length ∧
      (if ((i : ℤ) + size) > body.length then (body.length : ℤ) else i + size) = j ∧
      sliceBody body i j = some ((body.drop i).take (j - i)) := by
  refine ⟨_, rfl, ?_, ?_⟩
  · split <;> omega
  · rw [sliceBody, if_pos (by omega), Int.toNat_natCast]
    congr 2
    omega

/-- A body that is not empty is cut into chunks of at least one byte. -/
theorem chunkSize_pos {frameSize : ℤ} (hframe : frameSize ≤ 0 ∨ 8 < frameSize) {body : Bytes}
    (hne : body ≠ []) : ∃ size : ℕ, chunkSize frameSize body = size ∧ 1 ≤ size ∧
      (0 < frameSize → (size : ℤ) + frameHeaderSize ≤ frameSize) := by
  rcases hframe with hframe | hframe
  · refine ⟨body.length, ?_, List.length_pos_iff.mpr hne, fun h => absurd h (by omega)⟩
    rw [chunkSize, if_neg (by omega)]
  · refine ⟨(frameSize - frameHeaderSize).toNat, ?_, ?_, ?_⟩
    · rw [chunkSize, if_pos (by omega)]
      simp only [frameHeaderSize]
      omega
    · simp only [frameHeaderSize]
      omega
    · simp only [frameHeaderSize]
      omega

/-- From a position inside the body the loop cuts it into chunks of `size` bytes, the
last one possibly shorter. -/
theorem chunkLoop_spec (body : Bytes) {size : ℕ} (hsize : 1 ≤ size) {rounds i : ℕ}
    (hrounds : body.length - i < rounds) :
    ∃ chunks, chunkLoop body size rounds i (i + size) = .done chunks ∧
      chunks.flatten = body.drop i ∧
      ∀ chunk ∈ chunks, chunk ≠ [] ∧ chunk.length ≤ size := by
  induction rounds generalizing i with
  | zero => omega
  | succ rounds ih =>
      by_cases hi : i < body.length
      · obtain ⟨j, hj, hclamp, hslice⟩ := sliceBody_window size hi
        obtain ⟨chunks, hloop, hflat, hchunks⟩ := ih (i := j) (by omega)
        refine ⟨(body.drop i).take (j - i) :: chunks, ?_, ?_, ?_⟩
        · rw [chunkLoop, if_pos (by omega)]
          simp only [hclamp, hslice, hloop, Loop.map]
        · have hdrop : body.drop j = (body.drop i).drop (j - i) := by
            rw [List.drop_drop]
            congr 1
            omega
          rw [List.flatten_cons, hflat, hdrop, List.take_append_drop]
        · intro chunk hchunk
          rcases List.mem_cons.mp hchunk with rfl | hchunk
          · have hlength : ((body.drop i).take (j - i)).length = j - i := by
              rw [List.length_take, List.length_drop]
              omega
            refine ⟨fun hnil => ?_, by omega⟩
            rw [hnil, List.length_nil] at hlength
            omega
          · exact hchunks chunk hchunk
      · refine ⟨[], ?_, ?_, by simp⟩
        · rw [chunkLoop, if_neg (by omega)]
        · rw [List.flatten_nil, List.drop_of_length_le (by omega)]

/-- What `sendOpen` writes: the method, a header with the length of the body, and the
body cut into frames that respect the frame size. -/
theorem sendOpen_spec {rt : GoRuntime} {frameSize : ℤ} (hframe : frameSize = 0 ∨ 8 < frameSize)
    (id : UInt16) (c : Content rt) :
    ∃ chunks : List Bytes, sendOpen frameSize id c = .done (.method id 0 0 (some c.method) ::
        .header id c.method.id.1 0 (UInt64.ofNat c.body.length) c.properties ::
        chunks.map (Frame.body id)) ∧
      (∀ chunk ∈ chunks, chunk ≠ [] ∧
        (0 < frameSize → (chunk.length : ℤ) + frameHeaderSize ≤ frameSize)) ∧
      chunks.flatten = c.body := by
  by_cases hempty : c.body = []
  · -- the loop is not entered, whatever the chunk size
    have hloop : chunkLoop c.body (chunkSize frameSize c.body) (c.body.length + 1) 0
        (chunkSize frameSize c.body) = .done [] := by
      rw [hempty]
      rfl
    refine ⟨[], ?_, by simp, by rw [hempty]; rfl⟩
    simp only [sendOpen, hloop, Loop.map]
  · obtain ⟨size, hsize, hpos, hfits⟩ :=
      chunkSize_pos (hframe.imp_left fun h => h.le) hempty
    obtain ⟨chunks, hloop, hflat, hchunks⟩ :=
      chunkLoop_spec c.body hpos (i := 0) (Nat.lt_succ_self _)
    rw [Nat.cast_zero, zero_add, ← hsize, Nat.sub_zero] at hloop
    refine ⟨chunks, ?_, ?_, hflat⟩
    · simp only [sendOpen, hloop, Loop.map]
    · intro chunk hchunk
      obtain ⟨hne, hle⟩ := hchunks chunk hchunk
      refine ⟨hne, fun hframe => ?_⟩
      have := hfits hframe
      omega

end Amqp091

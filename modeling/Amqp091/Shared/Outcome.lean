import Amqp091.Shared.Reader

/-! # Outcomes of readers

How a success, a failure and a panic travel through the operations of the library, and
readers that always come to an end. -/

namespace ByteCodec

variable {ε α β : Type}

namespace Reader

/-- A sequence panics in its first part, or in its second on what the first left. -/
theorem bind_eq_panic {p : Reader ε α} {f : α → Reader ε β} {bs : Bytes} :
    (p >>= f) bs = .panic ↔
      p bs = .panic ∨ ∃ v mid, p bs = .ok v mid ∧ f v mid = .panic := by
  rw [bind_apply]
  cases h : p bs with
  | ok v mid =>
      constructor
      · intro hf
        exact .inr ⟨v, mid, rfl, hf⟩
      · rintro (hp | ⟨v', mid', heq, hf⟩)
        · cases hp
        · cases heq
          exact hf
  | fail e mid => simp
  | panic => simp
  | timeout => simp

theorem map_eq_panic {p : Reader ε α} {f : α → β} {bs : Bytes} :
    (do let x ← p; return f x : Reader ε β) bs = .panic ↔ p bs = .panic := by
  rw [bind_eq_panic]
  simp

theorem map_eq_ok {p : Reader ε α} {f : α → β} {bs rest : Bytes} {w : β} :
    (do let x ← p; return f x : Reader ε β) bs = .ok w rest ↔
      ∃ v, p bs = .ok v rest ∧ f v = w := by
  rw [bind_eq_ok]
  constructor
  · rintro ⟨v, mid, hv, hw⟩
    cases hw
    exact ⟨v, hv, rfl⟩
  · rintro ⟨v, hv, rfl⟩
    exact ⟨v, rest, hv, rfl⟩

theorem attempt_eq_panic {p : Reader ε α} {bs : Bytes} :
    attempt p bs = .panic ↔ p bs = .panic := by
  unfold attempt
  cases p bs <;> simp

theorem attempt_eq_ok {p : Reader ε α} {bs rest : Bytes} {v : α} :
    attempt p bs = .ok (.ok v) rest ↔ p bs = .ok v rest := by
  unfold attempt
  cases p bs <;> simp

theorem limited_eq_panic {p : Reader ε α} {n : ℕ} {bs : Bytes} :
    limited n p bs = .panic ↔ p (bs.take n) = .panic := by
  unfold limited
  cases p (bs.take n) <;> simp

theorem limited_eq_ok {p : Reader ε α} {n : ℕ} {bs rest : Bytes} {v : α}
    (h : limited n p bs = .ok v rest) :
    ∃ left, p (bs.take n) = .ok v left ∧ rest = left ++ bs.drop n := by
  unfold limited at h
  cases hp : p (bs.take n) with
  | ok w left =>
      rw [hp] at h
      cases h
      exact ⟨left, rfl, rfl⟩
  | fail e left =>
      rw [hp] at h
      cases h
  | panic =>
      rw [hp] at h
      cases h
  | timeout =>
      rw [hp] at h
      cases h

theorem onBuffer_eq_ok {p : Reader ε α} {buf bs rest : Bytes} {v : α}
    (h : onBuffer buf p bs = .ok v rest) : ∃ left, p buf = .ok v left ∧ bs = rest := by
  unfold onBuffer at h
  cases hp : p buf with
  | ok w left =>
      rw [hp] at h
      cases h
      exact ⟨left, rfl, rfl⟩
  | fail e left =>
      rw [hp] at h
      cases h
  | panic =>
      rw [hp] at h
      cases h
  | timeout =>
      rw [hp] at h
      cases h

theorem onBuffer_eq_panic {p : Reader ε α} {buf bs : Bytes} :
    onBuffer buf p bs = .panic ↔ p buf = .panic := by
  unfold onBuffer
  cases p buf <;> simp

/-- A sequence fails in its first part, or in its second on what the first left. -/
theorem bind_eq_fail {p : Reader ε α} {f : α → Reader ε β} {bs rest : Bytes}
    {e : ReadError ε} :
    (p >>= f) bs = .fail e rest ↔
      p bs = .fail e rest ∨ ∃ v mid, p bs = .ok v mid ∧ f v mid = .fail e rest := by
  rw [bind_apply]
  cases h : p bs with
  | ok v mid =>
      constructor
      · intro hf
        exact .inr ⟨v, mid, rfl, hf⟩
      · rintro (hp | ⟨v', mid', heq, hf⟩)
        · cases hp
        · cases heq
          exact hf
  | fail e' mid => simp
  | panic => simp
  | timeout => simp

theorem map_eq_fail {p : Reader ε α} {f : α → β} {bs rest : Bytes} {e : ReadError ε} :
    (do let x ← p; return f x : Reader ε β) bs = .fail e rest ↔ p bs = .fail e rest := by
  rw [bind_eq_fail]
  simp

theorem limited_eq_fail {p : Reader ε α} {n : ℕ} {bs : Bytes} {e : ReadError ε} :
    (∃ rest, limited n p bs = .fail e rest) ↔ ∃ rest, p (bs.take n) = .fail e rest := by
  unfold limited
  cases p (bs.take n) <;> simp

theorem onBuffer_eq_fail {p : Reader ε α} {buf bs : Bytes} {e : ReadError ε} :
    (∃ rest, onBuffer buf p bs = .fail e rest) ↔ ∃ rest, p buf = .fail e rest := by
  unfold onBuffer
  cases p buf <;> simp

end Reader

/-! ## Readers that never panic -/

def Safe (p : Reader ε α) : Prop := ∀ bs, p bs ≠ .panic

namespace Safe

theorem pure (v : α) : Safe (Pure.pure v : Reader ε α) := fun _ h => by cases h

theorem readFull (n : ℕ) : Safe (Reader.readFull n : Reader ε Bytes) := by
  intro bs h
  unfold Reader.readFull at h
  split at h
  · cases h
  · split at h <;> cases h

theorem bind {p : Reader ε α} {f : α → Reader ε β} (hp : Safe p) (hf : ∀ v, Safe (f v)) :
    Safe (p >>= f) := by
  intro bs h
  rcases Reader.bind_eq_panic.mp h with h | ⟨v, mid, -, h⟩
  · exact hp bs h
  · exact hf v mid h

theorem attempt {p : Reader ε α} (hp : Safe p) : Safe (Reader.attempt p) :=
  fun bs h => hp bs (Reader.attempt_eq_panic.mp h)

theorem readUInt8 : Safe (Reader.readUInt8 : Reader ε UInt8) :=
  (readFull 1).bind fun _ => pure _

theorem readUInt16 : Safe (Reader.readUInt16 : Reader ε UInt16) :=
  (readFull 2).bind fun _ => pure _

theorem readUInt32 : Safe (Reader.readUInt32 : Reader ε UInt32) :=
  (readFull 4).bind fun _ => pure _

theorem readUInt64 : Safe (Reader.readUInt64 : Reader ε UInt64) :=
  (readFull 8).bind fun _ => pure _

/-- Behind a safe first part only the second part can panic. -/
theorem bind_eq_panic {p : Reader ε α} {f : α → Reader ε β} (hp : Safe p) {bs : Bytes} :
    (p >>= f) bs = .panic ↔ ∃ v mid, p bs = .ok v mid ∧ f v mid = .panic := by
  rw [Reader.bind_eq_panic, or_iff_right (hp bs)]

end Safe

/-! ## Readers that always end -/

def Halts (p : Reader ε α) : Prop := ∀ bs, p bs ≠ .timeout

namespace Halts

theorem pure (v : α) : Halts (Pure.pure v : Reader ε α) := fun _ h => by cases h

theorem throw (e : ReadError ε) : Halts (Reader.throw e : Reader ε α) := fun _ h => by cases h

theorem readFull (n : ℕ) : Halts (Reader.readFull n : Reader ε Bytes) := by
  intro bs h
  unfold Reader.readFull at h
  split at h
  · cases h
  · split at h <;> cases h

theorem bind {p : Reader ε α} {f : α → Reader ε β} (hp : Halts p) (hf : ∀ v, Halts (f v)) :
    Halts (p >>= f) := by
  intro bs h
  rw [Reader.bind_apply] at h
  cases hbs : p bs with
  | ok v mid =>
      rw [hbs] at h
      exact hf v mid h
  | fail e mid =>
      rw [hbs] at h
      cases h
  | panic =>
      rw [hbs] at h
      cases h
  | timeout => exact hp bs hbs

theorem readUInt8 : Halts (Reader.readUInt8 : Reader ε UInt8) :=
  (readFull 1).bind fun _ => pure _

theorem readUInt16 : Halts (Reader.readUInt16 : Reader ε UInt16) :=
  (readFull 2).bind fun _ => pure _

theorem readUInt32 : Halts (Reader.readUInt32 : Reader ε UInt32) :=
  (readFull 4).bind fun _ => pure _

theorem readUInt64 : Halts (Reader.readUInt64 : Reader ε UInt64) :=
  (readFull 8).bind fun _ => pure _

end Halts

end ByteCodec

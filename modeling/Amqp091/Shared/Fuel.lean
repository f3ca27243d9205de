import Amqp091.Shared.Reader

/-! # Readers with a bound on their recursion

`Approx` orders readers by how often they run out of their bound, and the operations of
the library respect it. `Within` says that a reader stays within its bound on short
inputs and how much of them it consumes. -/

namespace ByteCodec

variable {ε α β : Type}

/-- `q` agrees with `p` wherever `p` does not run out of its bound. -/
def Approx (p q : Reader ε α) : Prop := ∀ bs, p bs = .timeout ∨ p bs = q bs

namespace Approx

theorem refl (p : Reader ε α) : Approx p p := fun _ => .inr rfl

theorem trans {p q r : Reader ε α} (h₁ : Approx p q) (h₂ : Approx q r) : Approx p r := by
  intro bs
  rcases h₁ bs with h | h
  · exact .inl h
  · rw [h]
    exact h₂ bs

theorem timeout (p : Reader ε α) : Approx Reader.timeout p := fun _ => .inl rfl

theorem eq_of_ne {p q : Reader ε α} (h : Approx p q) {bs : Bytes} (hne : p bs ≠ .timeout) :
    p bs = q bs :=
  (h bs).resolve_left hne

theorem bind {p q : Reader ε α} {f g : α → Reader ε β} (hp : Approx p q)
    (hf : ∀ v, Approx (f v) (g v)) : Approx (p >>= f) (q >>= g) := by
  intro bs
  simp only [Reader.bind_apply]
  rcases hp bs with h | h
  · exact .inl (by rw [h]; rfl)
  · rw [← h]
    cases p bs with
    | ok v rest => exact hf v rest
    | fail e rest => exact .inr rfl
    | panic => exact .inr rfl
    | timeout => exact .inl rfl

theorem limited {p q : Reader ε α} (h : Approx p q) (n : ℕ) :
    Approx (Reader.limited n p) (Reader.limited n q) := by
  intro bs
  rcases h (bs.take n) with h | h
  · exact .inl (by simp [Reader.limited, h])
  · exact .inr (by simp [Reader.limited, h])

theorem onBuffer {p q : Reader ε α} (h : Approx p q) (buf : Bytes) :
    Approx (Reader.onBuffer buf p) (Reader.onBuffer buf q) := by
  intro bs
  rcases h buf with h | h
  · exact .inl (by simp [Reader.onBuffer, h])
  · exact .inr (by simp [Reader.onBuffer, h])

theorem attempt {p q : Reader ε α} (h : Approx p q) :
    Approx (Reader.attempt p) (Reader.attempt q) := by
  intro bs
  rcases h bs with h | h
  · exact .inl (by simp [Reader.attempt, h])
  · exact .inr (by simp [Reader.attempt, h])

/-- A chain that grows with its bound agrees with every later member. -/
theorem of_le {p : ℕ → Reader ε α} (h : ∀ n, Approx (p n) (p (n + 1))) {m n : ℕ}
    (hmn : m ≤ n) : Approx (p m) (p n) := by
  induction n, hmn using Nat.le_induction with
  | base => exact refl (p m)
  | succ n _ ih => exact ih.trans (h n)

/-- Once a bound suffices on `bs`, every bound agrees with it there or runs out. -/
theorem diagonal {p : ℕ → Reader ε α} (h : ∀ n, Approx (p n) (p (n + 1)))
    {fuel : Bytes → ℕ} (hfuel : ∀ bs, p (fuel bs) bs ≠ .timeout) (n : ℕ) :
    Approx (p n) (fun bs => p (fuel bs) bs) := by
  intro bs
  rcases le_total n (fuel bs) with hle | hle
  · exact of_le h hle bs
  · exact .inr ((of_le h hle).eq_of_ne (hfuel bs)).symm

end Approx

/-- The outcome leaves a suffix of `bs`, a success at least `d` bytes shorter. -/
def Result.Leaves (r : Result ε α) (d : ℕ) (bs : Bytes) : Prop :=
  match r with
  | .ok _ rest => rest <:+ bs ∧ rest.length + d ≤ bs.length
  | .fail _ rest => rest <:+ bs
  | .panic => True
  | .timeout => False

/-- On inputs of at most `k` bytes, `p` ends and a success consumes at least `d` bytes. -/
def Within (k d : ℕ) (p : Reader ε α) : Prop :=
  ∀ bs : Bytes, bs.length ≤ k → (p bs).Leaves d bs

namespace Within

theorem ne_timeout {k d : ℕ} {p : Reader ε α} (h : Within k d p) {bs : Bytes}
    (hk : bs.length ≤ k) : p bs ≠ .timeout := by
  intro ht
  have hl := h bs hk
  rw [ht] at hl
  exact hl

theorem pure (k : ℕ) (v : α) : Within k 0 (Pure.pure v : Reader ε α) :=
  fun bs _ => ⟨List.suffix_refl bs, le_rfl⟩

theorem throw (k d : ℕ) (e : ReadError ε) : Within k d (Reader.throw e : Reader ε α) :=
  fun bs _ => List.suffix_refl bs

theorem panic (k d : ℕ) : Within k d (Reader.panic : Reader ε α) := fun _ _ => trivial

theorem mono {k d d' : ℕ} {p : Reader ε α} (h : Within k d p) (hd : d' ≤ d) :
    Within k d' p := by
  intro bs hk
  have hl := h bs hk
  cases hp : p bs with
  | ok v rest =>
      rw [hp] at hl
      exact ⟨hl.1, (Nat.add_le_add_left hd _).trans hl.2⟩
  | fail e rest =>
      rw [hp] at hl
      exact hl
  | panic => trivial
  | timeout => exact (h.ne_timeout hk hp).elim

theorem readFull (k n : ℕ) : Within k n (Reader.readFull n : Reader ε Bytes) := by
  intro bs _
  unfold Reader.readFull
  split
  · exact ⟨List.drop_suffix n bs, by rw [List.length_drop]; omega⟩
  · split
    · exact List.nil_suffix
    · exact List.nil_suffix

/-- The continuation runs on what is left, which is shorter by what was consumed. -/
theorem bind {k d c : ℕ} {p : Reader ε α} {f : α → Reader ε β} (hp : Within k d p)
    (hf : ∀ v, d ≤ k → Within (k - d) c (f v)) : Within k (d + c) (p >>= f) := by
  intro bs hk
  have hl := hp bs hk
  rw [Reader.bind_apply]
  cases h : p bs with
  | ok v rest =>
      rw [h] at hl
      obtain ⟨hsuf, hlen⟩ := hl
      have hrest := hf v (by omega) rest (by omega)
      rw [Result.andThen_ok]
      cases hr : f v rest with
      | ok w rest' =>
          rw [hr] at hrest
          exact ⟨hrest.1.trans hsuf, by have := hrest.2; omega⟩
      | fail e rest' =>
          rw [hr] at hrest
          exact hrest.trans hsuf
      | panic => trivial
      | timeout =>
          rw [hr] at hrest
          exact hrest
  | fail e rest =>
      rw [h] at hl
      exact hl
  | panic => trivial
  | timeout => exact (hp.ne_timeout hk h).elim

theorem map {k d : ℕ} {p : Reader ε α} (hp : Within k d p) (f : α → β) :
    Within k d (do let x ← p; return f x) :=
  hp.bind fun v _ => Within.pure _ (f v)

theorem limited {k d : ℕ} {p : Reader ε α} (hp : Within k d p) (n : ℕ) :
    Within k d (Reader.limited n p) := by
  intro bs hk
  have htake : (bs.take n).length ≤ bs.length := List.length_take_le' n bs
  have hsplit : bs.take n ++ bs.drop n = bs := List.take_append_drop n bs
  have hl := hp (bs.take n) (htake.trans hk)
  -- what `p` leaves of the window goes back in front of the bytes behind it
  have hback : ∀ rest, rest <:+ bs.take n → rest ++ bs.drop n <:+ bs := by
    rintro rest ⟨front, hfront⟩
    exact ⟨front, by rw [← List.append_assoc, hfront, hsplit]⟩
  unfold Reader.limited
  cases h : p (bs.take n) with
  | ok v rest =>
      rw [h] at hl
      have hlen := congrArg List.length hsplit
      rw [List.length_append] at hlen
      exact ⟨hback rest hl.1, by rw [List.length_append]; have := hl.2; omega⟩
  | fail e rest =>
      rw [h] at hl
      exact hback rest hl
  | panic => trivial
  | timeout => exact (hp.ne_timeout (htake.trans hk) h).elim

end Within

theorem within_readUInt8 (k : ℕ) : Within k 1 (Reader.readUInt8 : Reader ε UInt8) :=
  (Within.readFull k 1).map _

theorem within_readUInt16 (k : ℕ) : Within k 2 (Reader.readUInt16 : Reader ε UInt16) :=
  (Within.readFull k 2).map _

theorem within_readUInt32 (k : ℕ) : Within k 4 (Reader.readUInt32 : Reader ε UInt32) :=
  (Within.readFull k 4).map _

theorem within_readUInt64 (k : ℕ) : Within k 8 (Reader.readUInt64 : Reader ε UInt64) :=
  (Within.readFull k 8).map _

end ByteCodec

import Amqp091.Shared.Source

/-! # Programs over readers

The operations of `Reader` once more, for programs that fill their buffers through nested
readers. A program of the one kind carries out a program of the other kind when it does
the same with the bytes that are visible to it. -/

namespace ByteCodec

open Source

variable {ε α β : Type}

/-- Every outcome but the last one keeps the reader as it was left. -/
inductive SourceResult (ε α : Type) where
  | ok (v : α) (r : Source)
  | fail (e : ReadError ε) (r : Source)
  | panic (r : Source)
  | timeout

def SourceReader (ε α : Type) := Source → SourceResult ε α

def SourceResult.andThen (x : SourceResult ε α) (f : α → SourceReader ε β) : SourceResult ε β :=
  match x with
  | .ok v r => f v r
  | .fail e r => .fail e r
  | .panic r => .panic r
  | .timeout => .timeout

/-- The same outcome with another reader. -/
def SourceResult.mapSource (x : SourceResult ε α) (f : Source → Source) : SourceResult ε α :=
  match x with
  | .ok v r => .ok v (f r)
  | .fail e r => .fail e (f r)
  | .panic r => .panic (f r)
  | .timeout => .timeout

/-- The field `R` of a limited reader. -/
def Source.inner : Source → Source
  | .stream packets => .stream packets
  | .limited _ r => r

namespace SourceReader

instance : Monad (SourceReader ε) where
  pure v := fun r => .ok v r
  bind p f := fun r => (p r).andThen f

def throw (e : ReadError ε) : SourceReader ε α := fun r => .fail e r

def panic : SourceReader ε α := fun r => .panic r

def timeout : SourceReader ε α := fun _ => .timeout

def readFull (n : ℕ) : SourceReader ε Bytes := fun r =>
  if (r.fill n).1.length = n then .ok (r.fill n).1 (r.fill n).2
  else if (r.fill n).1 = [] then .fail .eof (r.fill n).2
  else .fail .unexpectedEOF (r.fill n).2

/-- Runs `p` on an `io.LimitedReader` over the reader. -/
def limited (n : ℕ) (p : SourceReader ε α) : SourceReader ε α := fun r =>
  (p (.limited n r)).mapSource inner

/-- Runs `p` on a `bytes.Buffer`. -/
def onBuffer (buf : Bytes) (p : SourceReader ε α) : SourceReader ε α := fun r =>
  (p (.stream [buf])).mapSource fun _ => r

def attempt (p : SourceReader ε α) : SourceReader ε (Except (ReadError ε) α) := fun r =>
  match p r with
  | .ok v r => .ok (.ok v) r
  | .fail e r => .ok (.error e) r
  | .panic r => .panic r
  | .timeout => .timeout

def readUInt8 : SourceReader ε UInt8 := do
  let bs ← readFull 1
  return UInt8.ofNat (getBE bs)

def readUInt16 : SourceReader ε UInt16 := do
  let bs ← readFull 2
  return UInt16.ofNat (getBE bs)

def readUInt32 : SourceReader ε UInt32 := do
  let bs ← readFull 4
  return UInt32.ofNat (getBE bs)

def readUInt64 : SourceReader ε UInt64 := do
  let bs ← readFull 8
  return UInt64.ofNat (getBE bs)

end SourceReader

/-! ## Carrying out a program on bytes -/

/-- The outcome `x` from the reader `r` is the outcome on the visible bytes, and the reader
was moved within its limits. -/
inductive SourceResult.Follows (r : Source) : SourceResult ε α → Result ε α → Prop
  | ok {v : α} {r' : Source} {c : ℕ} (h : Moved c r r') : Follows r (.ok v r') (.ok v r'.visible)
  | fail {e : ReadError ε} {r' : Source} {c : ℕ} (h : Moved c r r') :
      Follows r (.fail e r') (.fail e r'.visible)
  | panic {r' : Source} {c : ℕ} (h : Moved c r r') : Follows r (.panic r') .panic
  | timeout : Follows r .timeout .timeout

/-- `q` carries out `p`. -/
def Implements (q : SourceReader ε α) (p : Reader ε α) : Prop :=
  ∀ r, (q r).Follows r (p r.visible)

theorem SourceResult.Follows.of_moved {r r' : Source} {c : ℕ} {x : SourceResult ε α}
    {y : Result ε α} (hmoved : Moved c r r') (h : x.Follows r' y) : x.Follows r y := by
  cases h with
  | ok h => exact .ok (hmoved.trans h)
  | fail h => exact .fail (hmoved.trans h)
  | panic h => exact .panic (hmoved.trans h)
  | timeout => exact .timeout

/-- Behind a limited reader the bytes beyond the limit are still there. -/
theorem Source.moved_inner {n c : ℕ} {r r' : Source} (h : Moved c (.limited n r) r') :
    Moved c r r'.inner ∧ r'.visible ++ r.visible.drop n = r'.inner.visible := by
  cases h with
  | @limited _ _ next hle h =>
      have hsub : ((n : ℤ) - c).toNat = n - c := by omega
      have hbeyond : r.visible.drop n = next.visible.drop (n - c) := by
        rw [h.visible_eq, List.drop_drop]
        congr 1
        omega
      refine ⟨h, ?_⟩
      rw [visible, hsub, hbeyond, inner, List.take_append_drop]

namespace Implements

theorem pure (v : α) : Implements (Pure.pure v : SourceReader ε α) (Pure.pure v) :=
  fun r => .ok (.refl r)

theorem throw (e : ReadError ε) : Implements (SourceReader.throw e : SourceReader ε α)
    (Reader.throw e) :=
  fun r => .fail (.refl r)

theorem panic : Implements (SourceReader.panic : SourceReader ε α) Reader.panic :=
  fun r => .panic (.refl r)

theorem timeout : Implements (SourceReader.timeout : SourceReader ε α) Reader.timeout :=
  fun _ => .timeout

theorem bind {q : SourceReader ε α} {p : Reader ε α} {g : α → SourceReader ε β}
    {f : α → Reader ε β} (hp : Implements q p) (hf : ∀ v, Implements (g v) (f v)) :
    Implements (q >>= g) (p >>= f) := by
  intro r
  have h := hp r
  rw [Reader.bind_apply]
  change ((q r).andThen g).Follows r _
  generalize q r = x, p r.visible = y at h ⊢
  cases h with
  | ok h => exact (hf _ _).of_moved h
  | fail h => exact .fail h
  | panic h => exact .panic h
  | timeout => exact .timeout

theorem map {q : SourceReader ε α} {p : Reader ε α} (h : Implements q p) (f : α → β) :
    Implements (do let x ← q; return f x) (do let x ← p; return f x) :=
  h.bind fun v => pure (f v)

theorem readFull (n : ℕ) :
    Implements (SourceReader.readFull n : SourceReader ε Bytes) (Reader.readFull n) := by
  intro r
  obtain ⟨hbytes, hmoved⟩ := r.fill_spec n
  have hrest := hmoved.visible_eq
  unfold SourceReader.readFull Reader.readFull
  rw [hbytes, List.length_take]
  by_cases hle : n ≤ r.visible.length
  · rw [Nat.min_eq_left hle] at hrest
    rw [if_pos (Nat.min_eq_left hle), if_pos hle, ← hrest]
    exact .ok hmoved
  · rw [Nat.min_eq_right (by omega), List.drop_length] at hrest
    have hfail : ∀ e, (SourceResult.fail e (r.fill n).2 : SourceResult ε Bytes).Follows r
        (.fail e []) := fun e => hrest ▸ .fail hmoved
    rw [if_neg (by omega), if_neg hle, List.take_of_length_le (by omega)]
    split
    · exact hfail _
    · exact hfail _

theorem attempt {q : SourceReader ε α} {p : Reader ε α} (h : Implements q p) :
    Implements (SourceReader.attempt q) (Reader.attempt p) := by
  intro r
  have h := h r
  unfold SourceReader.attempt Reader.attempt
  generalize q r = x, p r.visible = y at h ⊢
  cases h with
  | ok h => exact .ok h
  | fail h => exact .ok h
  | panic h => exact .panic h
  | timeout => exact .timeout

theorem limited {q : SourceReader ε α} {p : Reader ε α} (h : Implements q p) (n : ℕ) :
    Implements (SourceReader.limited n q) (Reader.limited n p) := by
  intro r
  have h := h (.limited n r)
  rw [visible, Int.toNat_natCast] at h
  unfold SourceReader.limited Reader.limited
  generalize q (.limited n r) = x, p (r.visible.take n) = y at h ⊢
  cases h with
  | ok h =>
      obtain ⟨hinner, hvisible⟩ := moved_inner h
      simp only [hvisible]
      exact .ok hinner
  | fail h =>
      obtain ⟨hinner, hvisible⟩ := moved_inner h
      simp only [hvisible]
      exact .fail hinner
  | panic h => exact .panic (moved_inner h).1
  | timeout => exact .timeout

theorem onBuffer {q : SourceReader ε α} {p : Reader ε α} (h : Implements q p) (buf : Bytes) :
    Implements (SourceReader.onBuffer buf q) (Reader.onBuffer buf p) := by
  intro r
  have h := h (.stream [buf])
  rw [visible, List.flatten_singleton] at h
  unfold SourceReader.onBuffer Reader.onBuffer
  generalize q (.stream [buf]) = x, p buf = y at h ⊢
  cases h with
  | ok => exact .ok (.refl r)
  | fail => exact .fail (.refl r)
  | panic => exact .panic (.refl r)
  | timeout => exact .timeout

theorem readUInt8 : Implements (SourceReader.readUInt8 : SourceReader ε UInt8) Reader.readUInt8 :=
  (readFull 1).map _

theorem readUInt16 :
    Implements (SourceReader.readUInt16 : SourceReader ε UInt16) Reader.readUInt16 :=
  (readFull 2).map _

theorem readUInt32 :
    Implements (SourceReader.readUInt32 : SourceReader ε UInt32) Reader.readUInt32 :=
  (readFull 4).map _

theorem readUInt64 :
    Implements (SourceReader.readUInt64 : SourceReader ε UInt64) Reader.readUInt64 :=
  (readFull 8).map _

end Implements

/-! ## Ends and limits -/

/-- The outcome is reached, the reader was moved within all of its limits, and by at least
`d` bytes in a success. -/
def SourceResult.EndsWithin (x : SourceResult ε α) (r : Source) (d : ℕ) : Prop :=
  match x with
  | .ok _ r' => ∃ c, d ≤ c ∧ Moved c r r'
  | .fail _ r' => ∃ c, Moved c r r'
  | .panic r' => ∃ c, Moved c r r'
  | .timeout => False

theorem Implements.endsWithin {q : SourceReader ε α} {p : Reader ε α} {k d : ℕ} {r : Source}
    (h : Implements q p) (hp : Within k d p) (hk : r.visible.length ≤ k) :
    (q r).EndsWithin r d := by
  have hleaves := hp r.visible hk
  have h := h r
  generalize q r = x, p r.visible = y at h hleaves ⊢
  cases h with
  | @ok v r' c hmoved =>
      have hle := hmoved.le_length
      have hlength : r'.visible.length + d ≤ r.visible.length := hleaves.2
      rw [hmoved.visible_eq, List.length_drop] at hlength
      exact ⟨c, by omega, hmoved⟩
  | fail hmoved => exact ⟨_, hmoved⟩
  | panic hmoved => exact ⟨_, hmoved⟩
  | timeout => exact hleaves

end ByteCodec

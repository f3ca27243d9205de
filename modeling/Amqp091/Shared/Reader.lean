import Amqp091.Shared.BigEndian
import Mathlib.Data.List.Infix

/-! # Byte readers

A reader consumes a prefix of the bytes it is given. It distinguishes an input that
ends before the first requested byte from one that ends inside a request, keeps its
position when it fails, and has two further outcomes for code that crashes or loops. -/

namespace ByteCodec

inductive ReadError (ε : Type) where
  | eof
  | unexpectedEOF
  | other (e : ε)
  deriving DecidableEq, Repr

inductive Result (ε α : Type) where
  | ok (v : α) (rest : Bytes)
  | fail (e : ReadError ε) (rest : Bytes)
  | panic
  | timeout
  deriving DecidableEq, Repr

def Reader (ε α : Type) := Bytes → Result ε α

variable {ε α β : Type}

def Result.andThen (r : Result ε α) (f : α → Reader ε β) : Result ε β :=
  match r with
  | .ok v rest => f v rest
  | .fail e rest => .fail e rest
  | .panic => .panic
  | .timeout => .timeout

@[simp] theorem Result.andThen_ok (v : α) (rest : Bytes) (f : α → Reader ε β) :
    (Result.ok v rest).andThen f = f v rest := rfl

@[simp] theorem Result.andThen_fail (e : ReadError ε) (rest : Bytes) (f : α → Reader ε β) :
    (Result.fail e rest).andThen f = .fail e rest := rfl

@[simp] theorem Result.andThen_panic (f : α → Reader ε β) :
    (Result.panic : Result ε α).andThen f = .panic := rfl

@[simp] theorem Result.andThen_timeout (f : α → Reader ε β) :
    (Result.timeout : Result ε α).andThen f = .timeout := rfl

namespace Reader

instance : Monad (Reader ε) where
  pure v := fun bs => .ok v bs
  bind p f := fun bs => (p bs).andThen f

@[simp] theorem pure_apply (v : α) (bs : Bytes) :
    (pure v : Reader ε α) bs = .ok v bs := rfl

@[simp] theorem bind_apply (p : Reader ε α) (f : α → Reader ε β) (bs : Bytes) :
    (p >>= f) bs = (p bs).andThen f := rfl

theorem bind_bind {γ : Type} (p : Reader ε α) (f : α → Reader ε β) (g : β → Reader ε γ) :
    ((p >>= f) >>= g) = p >>= fun v => f v >>= g := by
  funext bs
  simp only [bind_apply]
  cases p bs <;> rfl

theorem pure_then (v : α) (f : α → Reader ε β) : (pure v >>= f) = f v := rfl

theorem bind_return (p : Reader ε α) : (p >>= fun v => pure v) = p := by
  funext bs
  rw [bind_apply]
  cases p bs <;> rfl

/-- Fails without consuming input. -/
def throw (e : ReadError ε) : Reader ε α := fun bs => .fail e bs

def panic : Reader ε α := fun _ => .panic

def timeout : Reader ε α := fun _ => .timeout

@[simp] theorem throw_apply (e : ReadError ε) (bs : Bytes) :
    (throw e : Reader ε α) bs = .fail e bs := rfl

@[simp] theorem panic_apply (bs : Bytes) : (panic : Reader ε α) bs = .panic := rfl

@[simp] theorem timeout_apply (bs : Bytes) : (timeout : Reader ε α) bs = .timeout := rfl

/-- Fills a buffer of `n` bytes. A request that cannot be met consumes what there is. -/
def readFull (n : ℕ) : Reader ε Bytes := fun bs =>
  if n ≤ bs.length then .ok (bs.take n) (bs.drop n)
  else if bs = [] then .fail .eof []
  else .fail .unexpectedEOF []

/-- Runs `p` on at most `n` bytes of the input; what `p` leaves goes back in front. -/
def limited (n : ℕ) (p : Reader ε α) : Reader ε α := fun bs =>
  match p (bs.take n) with
  | .ok v rest => .ok v (rest ++ bs.drop n)
  | .fail e rest => .fail e (rest ++ bs.drop n)
  | .panic => .panic
  | .timeout => .timeout

/-- Runs `p` on a buffer of its own and discards what it leaves there. -/
def onBuffer (buf : Bytes) (p : Reader ε α) : Reader ε α := fun bs =>
  match p buf with
  | .ok v _ => .ok v bs
  | .fail e _ => .fail e bs
  | .panic => .panic
  | .timeout => .timeout

/-- Turns a failure into a value, keeping the position it was raised at. -/
def attempt (p : Reader ε α) : Reader ε (Except (ReadError ε) α) := fun bs =>
  match p bs with
  | .ok v rest => .ok (.ok v) rest
  | .fail e rest => .ok (.error e) rest
  | .panic => .panic
  | .timeout => .timeout

def readUInt8 : Reader ε UInt8 := do
  let bs ← readFull 1
  return UInt8.ofNat (getBE bs)

def readUInt16 : Reader ε UInt16 := do
  let bs ← readFull 2
  return UInt16.ofNat (getBE bs)

def readUInt32 : Reader ε UInt32 := do
  let bs ← readFull 4
  return UInt32.ofNat (getBE bs)

def readUInt64 : Reader ε UInt64 := do
  let bs ← readFull 8
  return UInt64.ofNat (getBE bs)

theorem readFull_append (bs rest : Bytes) :
    (readFull bs.length : Reader ε Bytes) (bs ++ rest) = .ok bs rest := by
  simp [readFull]

theorem readFull_of_lt {n : ℕ} {bs : Bytes} (h : bs.length < n) :
    ∃ e, (readFull n : Reader ε Bytes) bs = .fail e [] := by
  by_cases hnil : bs = []
  · have hn : n ≠ 0 := Nat.ne_of_gt (Nat.zero_lt_of_lt h)
    exact ⟨.eof, by simp [readFull, hnil, hn]⟩
  · exact ⟨.unexpectedEOF, by simp [readFull, hnil, Nat.not_le.mpr h]⟩

/-- A sequence succeeds when both of its parts do, the second on what the first left. -/
theorem bind_eq_ok {p : Reader ε α} {f : α → Reader ε β} {bs rest : Bytes} {w : β} :
    (p >>= f) bs = .ok w rest ↔ ∃ v mid, p bs = .ok v mid ∧ f v mid = .ok w rest := by
  rw [bind_apply]
  cases h : p bs with
  | ok v mid =>
      constructor
      · intro hw
        exact ⟨v, mid, rfl, hw⟩
      · rintro ⟨v', mid', heq, hw⟩
        cases heq
        exact hw
  | fail e mid => simp
  | panic => simp
  | timeout => simp

theorem readFull_eq_ok {n : ℕ} {bs v rest : Bytes} :
    (readFull n : Reader ε Bytes) bs = .ok v rest ↔ v.length = n ∧ bs = v ++ rest := by
  unfold readFull
  split
  · rename_i h
    constructor
    · intro heq
      cases heq
      exact ⟨List.length_take_of_le h, (List.take_append_drop n bs).symm⟩
    · rintro ⟨rfl, rfl⟩
      simp
  · rename_i h
    constructor
    · intro heq
      split at heq <;> cases heq
    · rintro ⟨rfl, rfl⟩
      simp at h

end Reader

/-! ## Exact decoding -/

/-- On every input that starts with `enc`, `p` returns `v` and leaves what follows. -/
def Reads (p : Reader ε α) (enc : Bytes) (v : α) : Prop :=
  ∀ rest, p (enc ++ rest) = .ok v rest

/-- `p` reports an error on every input that ends inside `enc`. -/
def Refuses (p : Reader ε α) (enc : Bytes) : Prop :=
  ∀ front, front <+: enc → front ≠ enc → ∃ e rest, p front = .fail e rest

/-- `p` reads `enc` exactly and refuses every proper prefix of it. -/
structure Decodes (p : Reader ε α) (enc : Bytes) (v : α) : Prop where
  reads : Reads p enc v
  refuses : Refuses p enc

theorem Reads.pure (v : α) : Reads (Pure.pure v : Reader ε α) [] v := fun _ => rfl

theorem Reads.bind {p : Reader ε α} {f : α → Reader ε β} {enc enc' : Bytes} {v : α} {w : β}
    (hp : Reads p enc v) (hf : Reads (f v) enc' w) : Reads (p >>= f) (enc ++ enc') w := by
  intro rest
  rw [List.append_assoc, Reader.bind_apply, hp]
  exact hf rest

/-- A prefix of a concatenation ends inside its first part or extends it. -/
theorem prefix_append_cases {front xs ys : Bytes} (h : front <+: xs ++ ys) :
    (front <+: xs ∧ front ≠ xs) ∨ ∃ tail, front = xs ++ tail ∧ tail <+: ys := by
  rcases List.prefix_or_prefix_of_prefix h (List.prefix_append xs ys) with hle | ⟨tail, rfl⟩
  · by_cases heq : front = xs
    · exact .inr ⟨[], by simp [heq], List.nil_prefix⟩
    · exact .inl ⟨hle, heq⟩
  · exact .inr ⟨tail, rfl, (List.prefix_append_right_inj xs).mp h⟩

theorem Decodes.pure (v : α) : Decodes (Pure.pure v : Reader ε α) [] v where
  reads := Reads.pure v
  refuses := fun _ hpre hne => (hne (List.prefix_nil.mp hpre)).elim

theorem Decodes.bind {p : Reader ε α} {f : α → Reader ε β} {enc enc' : Bytes} {v : α} {w : β}
    (hp : Decodes p enc v) (hf : Decodes (f v) enc' w) :
    Decodes (p >>= f) (enc ++ enc') w where
  reads := hp.reads.bind hf.reads
  refuses := by
    intro front hpre hne
    rcases prefix_append_cases hpre with ⟨hle, hlt⟩ | ⟨tail, rfl, htail⟩
    · obtain ⟨e, rest, h⟩ := hp.refuses front hle hlt
      exact ⟨e, rest, by rw [Reader.bind_apply, h, Result.andThen_fail]⟩
    · obtain ⟨e, rest, h⟩ := hf.refuses tail htail (by rintro rfl; exact hne rfl)
      exact ⟨e, rest, by rw [Reader.bind_apply, hp.reads, Result.andThen_ok, h]⟩

theorem Decodes.map {p : Reader ε α} {enc : Bytes} {v : α} (hp : Decodes p enc v)
    (f : α → β) : Decodes (do let x ← p; return f x) enc (f v) := by
  have h := hp.bind (f := fun x => Pure.pure (f x)) (Decodes.pure (f v))
  rwa [List.append_nil] at h

theorem decodes_readFull (bs : Bytes) :
    Decodes (Reader.readFull bs.length : Reader ε Bytes) bs bs where
  reads := Reader.readFull_append bs
  refuses := by
    intro front hpre hne
    have hlt : front.length < bs.length :=
      lt_of_le_of_ne hpre.length_le fun h => hne (hpre.eq_of_length h)
    obtain ⟨e, h⟩ := Reader.readFull_of_lt (ε := ε) hlt
    exact ⟨e, [], h⟩

/-- A fixed-width request decodes any byte string of that width. -/
theorem decodes_readFull_of_length {n : ℕ} {bs : Bytes} (h : bs.length = n) :
    Decodes (Reader.readFull n : Reader ε Bytes) bs bs :=
  h ▸ decodes_readFull bs

theorem decodes_readUInt8 (v : UInt8) :
    Decodes (Reader.readUInt8 : Reader ε UInt8) (putBE 1 v.toNat) v := by
  have h := (decodes_readFull_of_length (ε := ε) (length_putBE 1 v.toNat)).map
    fun bs => UInt8.ofNat (getBE bs)
  rwa [getBE_putBE_of_lt v.toNat_lt, UInt8.ofNat_toNat] at h

theorem decodes_readUInt16 (v : UInt16) :
    Decodes (Reader.readUInt16 : Reader ε UInt16) (putBE 2 v.toNat) v := by
  have h := (decodes_readFull_of_length (ε := ε) (length_putBE 2 v.toNat)).map
    fun bs => UInt16.ofNat (getBE bs)
  rwa [getBE_putBE_of_lt v.toNat_lt, UInt16.ofNat_toNat] at h

theorem decodes_readUInt32 (v : UInt32) :
    Decodes (Reader.readUInt32 : Reader ε UInt32) (putBE 4 v.toNat) v := by
  have h := (decodes_readFull_of_length (ε := ε) (length_putBE 4 v.toNat)).map
    fun bs => UInt32.ofNat (getBE bs)
  rwa [getBE_putBE_of_lt v.toNat_lt, UInt32.ofNat_toNat] at h

theorem decodes_readUInt64 (v : UInt64) :
    Decodes (Reader.readUInt64 : Reader ε UInt64) (putBE 8 v.toNat) v := by
  have h := (decodes_readFull_of_length (ε := ε) (length_putBE 8 v.toNat)).map
    fun bs => UInt64.ofNat (getBE bs)
  rwa [getBE_putBE_of_lt v.toNat_lt, UInt64.ofNat_toNat] at h

/-! ## Numbers that were read -/

/-- The bytes of a successful request are the numeral of the number it denotes. -/
theorem readFull_numeral {n : ℕ} {bs v rest : Bytes}
    (h : (Reader.readFull n : Reader ε Bytes) bs = .ok v rest) :
    getBE v < 256 ^ n ∧ bs = putBE n (getBE v) ++ rest := by
  obtain ⟨hlen, rfl⟩ := Reader.readFull_eq_ok.mp h
  refine ⟨hlen ▸ getBE_lt v, ?_⟩
  rw [← hlen, putBE_getBE]

theorem readUInt8_eq_ok {bs rest : Bytes} {n : UInt8} :
    (Reader.readUInt8 : Reader ε UInt8) bs = .ok n rest ↔ bs = putBE 1 n.toNat ++ rest := by
  constructor
  · intro h
    obtain ⟨v, mid, hfull, hret⟩ := Reader.bind_eq_ok.mp h
    obtain ⟨hlt, hbs⟩ := readFull_numeral hfull
    cases hret
    rw [hbs, UInt8.toNat_ofNat_of_lt' hlt]
  · rintro rfl
    exact (decodes_readUInt8 n).reads rest

theorem readUInt16_eq_ok {bs rest : Bytes} {n : UInt16} :
    (Reader.readUInt16 : Reader ε UInt16) bs = .ok n rest ↔ bs = putBE 2 n.toNat ++ rest := by
  constructor
  · intro h
    obtain ⟨v, mid, hfull, hret⟩ := Reader.bind_eq_ok.mp h
    obtain ⟨hlt, hbs⟩ := readFull_numeral hfull
    cases hret
    rw [hbs, UInt16.toNat_ofNat_of_lt' hlt]
  · rintro rfl
    exact (decodes_readUInt16 n).reads rest

theorem readUInt32_eq_ok {bs rest : Bytes} {n : UInt32} :
    (Reader.readUInt32 : Reader ε UInt32) bs = .ok n rest ↔ bs = putBE 4 n.toNat ++ rest := by
  constructor
  · intro h
    obtain ⟨v, mid, hfull, hret⟩ := Reader.bind_eq_ok.mp h
    obtain ⟨hlt, hbs⟩ := readFull_numeral hfull
    cases hret
    rw [hbs, UInt32.toNat_ofNat_of_lt' hlt]
  · rintro rfl
    exact (decodes_readUInt32 n).reads rest

theorem readUInt64_eq_ok {bs rest : Bytes} {n : UInt64} :
    (Reader.readUInt64 : Reader ε UInt64) bs = .ok n rest ↔ bs = putBE 8 n.toNat ++ rest := by
  constructor
  · intro h
    obtain ⟨v, mid, hfull, hret⟩ := Reader.bind_eq_ok.mp h
    obtain ⟨hlt, hbs⟩ := readFull_numeral hfull
    cases hret
    rw [hbs, UInt64.toNat_ofNat_of_lt' hlt]
  · rintro rfl
    exact (decodes_readUInt64 n).reads rest

end ByteCodec

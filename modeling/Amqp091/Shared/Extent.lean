import Amqp091.Shared.Reader

/-! # How far a reader gets

`Spans p extent` says that the number of bytes a successful run of `p` consumes can be
told from the input. -/

namespace ByteCodec

variable {ε α β : Type}

def Spans (p : Reader ε α) (extent : Bytes → ℕ) : Prop :=
  ∀ bs v rest, p bs = .ok v rest → extent bs ≤ bs.length ∧ rest = bs.drop (extent bs)

namespace Spans

theorem length_eq {p : Reader ε α} {extent : Bytes → ℕ} (hp : Spans p extent) {bs rest : Bytes}
    {v : α} (h : p bs = .ok v rest) : bs.length = extent bs + rest.length := by
  obtain ⟨hle, rfl⟩ := hp bs v rest h
  rw [List.length_drop]
  omega

theorem pure (v : α) : Spans (Pure.pure v : Reader ε α) (fun _ => 0) := by
  intro bs w rest h
  cases h
  exact ⟨Nat.zero_le _, rfl⟩

theorem throw (e : ReadError ε) (extent : Bytes → ℕ) :
    Spans (Reader.throw e : Reader ε α) extent := by
  intro bs v rest h
  cases h

/-- The second part starts where the first one ends. -/
theorem bind {p : Reader ε α} {f : α → Reader ε β} {extent extent' : Bytes → ℕ}
    (hp : Spans p extent) (hf : ∀ v, Spans (f v) extent') :
    Spans (p >>= f) (fun bs => extent bs + extent' (bs.drop (extent bs))) := by
  intro bs w rest h
  obtain ⟨v, mid, hv, hw⟩ := Reader.bind_eq_ok.mp h
  obtain ⟨hle, rfl⟩ := hp bs v mid hv
  obtain ⟨hle', rfl⟩ := hf v _ w rest hw
  rw [List.length_drop] at hle'
  exact ⟨by simp only; omega, List.drop_drop⟩

theorem map {p : Reader ε α} {extent : Bytes → ℕ} (hp : Spans p extent) (f : α → β) :
    Spans (do let x ← p; return f x) extent :=
  hp.bind fun v => Spans.pure (f v)

end Spans

/-! ## Values of fixed size -/

/-- `p` takes `n` bytes of any kind and fails when there are fewer. -/
def Takes (p : Reader ε α) (n : ℕ) : Prop :=
  ∀ bs, (n ≤ bs.length → ∃ v, p bs = .ok v (bs.drop n)) ∧
    (bs.length < n → ∃ e rest, p bs = .fail e rest)

namespace Takes

theorem pure (v : α) : Takes (Pure.pure v : Reader ε α) 0 :=
  fun _ => ⟨fun _ => ⟨v, rfl⟩, fun h => absurd h (Nat.not_lt_zero _)⟩

theorem readFull (n : ℕ) : Takes (Reader.readFull n : Reader ε Bytes) n := by
  intro bs
  refine ⟨fun h => ⟨bs.take n, ?_⟩, fun h => ?_⟩
  · rw [Reader.readFull, if_pos h]
  · obtain ⟨e, he⟩ := Reader.readFull_of_lt (ε := ε) h
    exact ⟨e, [], he⟩

theorem bind {p : Reader ε α} {f : α → Reader ε β} {m n : ℕ} (hp : Takes p m)
    (hf : ∀ v, Takes (f v) n) : Takes (p >>= f) (m + n) := by
  intro bs
  obtain ⟨hok, hfail⟩ := hp bs
  constructor
  · intro hle
    obtain ⟨v, hv⟩ := hok (by omega)
    obtain ⟨w, hw⟩ := (hf v (bs.drop m)).1 (by rw [List.length_drop]; omega)
    exact ⟨w, by rw [Reader.bind_apply, hv, Result.andThen_ok, hw, List.drop_drop]⟩
  · intro hlt
    by_cases hm : bs.length < m
    · obtain ⟨e, rest, he⟩ := hfail hm
      exact ⟨e, rest, by rw [Reader.bind_apply, he, Result.andThen_fail]⟩
    · obtain ⟨v, hv⟩ := hok (by omega)
      obtain ⟨e, rest, he⟩ := (hf v (bs.drop m)).2 (by rw [List.length_drop]; omega)
      exact ⟨e, rest, by rw [Reader.bind_apply, hv, Result.andThen_ok, he]⟩

theorem map {p : Reader ε α} {n : ℕ} (hp : Takes p n) (f : α → β) :
    Takes (do let x ← p; return f x) n :=
  hp.bind fun v => Takes.pure (f v)

/-- A success has taken the bytes off the front. -/
theorem spans {p : Reader ε α} {n : ℕ} (hp : Takes p n) : Spans p (fun _ => n) := by
  intro bs v rest h
  obtain ⟨hok, hfail⟩ := hp bs
  by_cases hle : n ≤ bs.length
  · obtain ⟨w, hw⟩ := hok hle
    rw [h] at hw
    cases hw
    exact ⟨hle, rfl⟩
  · obtain ⟨e, rest', he⟩ := hfail (by omega)
    rw [h] at he
    cases he

theorem readUInt8 : Takes (Reader.readUInt8 : Reader ε UInt8) 1 := (readFull 1).map _

theorem readUInt16 : Takes (Reader.readUInt16 : Reader ε UInt16) 2 := (readFull 2).map _

theorem readUInt32 : Takes (Reader.readUInt32 : Reader ε UInt32) 4 := (readFull 4).map _

theorem readUInt64 : Takes (Reader.readUInt64 : Reader ε UInt64) 8 := (readFull 8).map _

end Takes

/-- What follows a number may depend on it. -/
theorem Spans.readUInt16_bind {f : UInt16 → Reader ε β} {extent : UInt16 → Bytes → ℕ}
    (hf : ∀ n, Spans (f n) (extent n)) :
    Spans (Reader.readUInt16 >>= f)
      (fun bs => 2 + extent (UInt16.ofNat (getBE (bs.take 2))) (bs.drop 2)) := by
  intro bs w rest h
  obtain ⟨n, mid, hn, hw⟩ := Reader.bind_eq_ok.mp h
  rw [readUInt16_eq_ok] at hn
  subst hn
  have htake : (putBE 2 n.toNat ++ mid).take 2 = putBE 2 n.toNat :=
    List.take_left' (length_putBE 2 _)
  have hdrop : (putBE 2 n.toNat ++ mid).drop 2 = mid := List.drop_left' (length_putBE 2 _)
  have hnum : UInt16.ofNat (getBE (putBE 2 n.toNat)) = n := by
    rw [getBE_putBE_of_lt n.toNat_lt, UInt16.ofNat_toNat]
  obtain ⟨hle, rfl⟩ := hf n mid w rest hw
  simp only [htake, hdrop, hnum]
  refine ⟨by simpa [Nat.add_comm] using hle, ?_⟩
  rw [← List.drop_drop, hdrop]

end ByteCodec

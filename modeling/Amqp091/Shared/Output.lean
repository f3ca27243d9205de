import Amqp091.Shared.BigEndian

/-! # Buffered output

Writing code as the bytes it has put into its destination together with how it ended.
Bytes written before a failure stay written. -/

namespace ByteCodec

structure Output (ε α : Type) where
  out : Bytes
  result : Except ε α

variable {ε α β : Type}

namespace Output

def andThen (w : Output ε α) (f : α → Output ε β) : Output ε β :=
  match w.result with
  | .ok v => ⟨w.out ++ (f v).out, (f v).result⟩
  | .error e => ⟨w.out, .error e⟩

instance : Monad (Output ε) where
  pure v := ⟨[], .ok v⟩
  bind := andThen

def emit (bs : Bytes) : Output ε Unit := ⟨bs, .ok ()⟩

def throw (e : ε) : Output ε α := ⟨[], .error e⟩

/-- Runs `w` into a buffer of its own; nothing reaches the destination. -/
def capture (w : Output ε α) : Output ε Bytes :=
  match w.result with
  | .ok _ => ⟨[], .ok w.out⟩
  | .error e => ⟨[], .error e⟩

theorem bind_of_ok {out : Bytes} {v : α} (f : α → Output ε β) :
    ((⟨out, .ok v⟩ : Output ε α) >>= f) = ⟨out ++ (f v).out, (f v).result⟩ := rfl

theorem bind_bind {γ : Type} (w : Output ε α) (f : α → Output ε β) (g : β → Output ε γ) :
    ((w >>= f) >>= g) = w >>= fun v => f v >>= g := by
  obtain ⟨out, result⟩ := w
  cases result with
  | ok v =>
      simp only [bind_of_ok]
      obtain ⟨out', result'⟩ := f v
      cases result' with
      | ok u =>
          simp only [bind_of_ok]
          rw [List.append_assoc]
      | error e => rfl
  | error e => rfl

theorem bind_pure_unit (w : Output ε Unit) : (w >>= fun _ => pure ()) = w := by
  obtain ⟨out, result⟩ := w
  cases result with
  | ok v =>
      rw [bind_of_ok]
      exact congrArg (Output.mk · _) (List.append_nil out)
  | error e => rfl

/-- A sequence succeeds when both of its parts do. -/
theorem bind_result_eq_ok {w : Output ε α} {f : α → Output ε β} {u : β} :
    (w >>= f).result = .ok u ↔ ∃ v, w.result = .ok v ∧ (f v).result = .ok u := by
  obtain ⟨out, result⟩ := w
  cases result with
  | ok v =>
      rw [bind_of_ok]
      simp
  | error e =>
      change (Except.error e : Except ε β) = .ok u ↔ _
      simp

theorem capture_result_eq_ok {w : Output ε α} {buf : Bytes} :
    w.capture.result = .ok buf ↔ w.out = buf ∧ ∃ v, w.result = .ok v := by
  unfold capture
  split <;> simp [*]

/-- What runs into a buffer of its own leaves no trace when it fails. -/
theorem capture_bind_of_error {w : Output ε α} {e : ε} (h : w.result = .error e)
    (f : Bytes → Output ε β) : (w.capture >>= f) = ⟨[], .error e⟩ := by
  unfold capture
  rw [h]
  rfl

end Output

/-- `w` succeeds, having written exactly `enc`. -/
def Writes (w : Output ε Unit) (enc : Bytes) : Prop := w = ⟨enc, .ok ()⟩

theorem Writes.pure : Writes (Pure.pure () : Output ε Unit) [] := rfl

theorem Writes.emit (bs : Bytes) : Writes (Output.emit bs : Output ε Unit) bs := rfl

theorem Writes.bind {w : Output ε Unit} {f : Unit → Output ε Unit} {enc enc' : Bytes}
    (hw : Writes w enc) (hf : Writes (f ()) enc') : Writes (w >>= f) (enc ++ enc') := by
  rw [Writes] at hw hf ⊢
  rw [hw, Output.bind_of_ok, hf]

theorem Writes.of_bind {w : Output ε Unit} {f : Unit → Output ε Unit} {enc enc' : Bytes}
    (hw : Writes w enc) (h : Writes (w >>= f) enc') :
    ∃ rest, enc' = enc ++ rest ∧ Writes (f ()) rest := by
  rw [Writes] at hw h
  rw [hw, Output.bind_of_ok, Output.mk.injEq] at h
  refine ⟨(f ()).out, h.1.symm, ?_⟩
  rw [Writes, ← h.2]

/-- A captured buffer is handed on and contributes no output of its own. -/
theorem Writes.capture_bind {w : Output ε Unit} {f : Bytes → Output ε Unit}
    {buf enc : Bytes} (hw : Writes w buf) (hf : Writes (f buf) enc) :
    Writes (w.capture >>= f) enc := by
  rw [Writes] at hw hf ⊢
  rw [hw, Output.capture, Output.bind_of_ok, hf, List.nil_append]

theorem Writes.out_eq {w : Output ε Unit} {enc : Bytes} (hw : Writes w enc) :
    w.out = enc := by
  rw [hw]

/-- `w` succeeds. -/
def Completes (w : Output ε Unit) : Prop := ∃ enc, Writes w enc

theorem Completes.pure : Completes (Pure.pure () : Output ε Unit) := ⟨_, .pure⟩

theorem Completes.emit (bs : Bytes) : Completes (Output.emit bs : Output ε Unit) :=
  ⟨_, .emit bs⟩

theorem Completes.bind {w : Output ε Unit} {f : Unit → Output ε Unit} (hw : Completes w)
    (hf : Completes (f ())) : Completes (w >>= f) := by
  obtain ⟨enc, hw⟩ := hw
  obtain ⟨enc', hf⟩ := hf
  exact ⟨_, hw.bind hf⟩

theorem Completes.capture_bind {w : Output ε Unit} {f : Bytes → Output ε Unit}
    (hw : Completes w) (hf : ∀ buf, Completes (f buf)) : Completes (w.capture >>= f) := by
  obtain ⟨buf, hw⟩ := hw
  obtain ⟨enc, hf⟩ := hf buf
  exact ⟨_, hw.capture_bind hf⟩

theorem Completes.result_eq {w : Output ε Unit} (hw : Completes w) : w.result = .ok () := by
  obtain ⟨enc, hw⟩ := hw
  rw [hw]

end ByteCodec

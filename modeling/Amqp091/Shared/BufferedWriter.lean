import Amqp091.Shared.BigEndian
import Mathlib.Data.Nat.Notation

/-! # A buffered writer

Bytes are collected in a buffer and reach the sink when the buffer is full or flushed.
The first error of the sink sticks: nothing is written after it. -/

namespace Buffered

open ByteCodec

/-- How the writes to a sink end: the write of a given number fails with an error after
some bytes, or takes all of them. -/
abbrev Behaviour (ε : Type) := ℕ → Option (ε × ℕ)

/-- `received` has reached the sink in a number of `writes`. -/
structure Writer (ε : Type) where
  received : Bytes
  writes : ℕ
  buf : Bytes
  err : Option ε

variable {ε : Type} {t : Behaviour ε} {size : ℕ}

namespace Writer

def flush (t : Behaviour ε) (w : Writer ε) : Writer ε :=
  if w.err.isSome ∨ w.buf = [] then w
  else
    match t w.writes with
    | none => { w with received := w.received ++ w.buf, writes := w.writes + 1, buf := [] }
    | some (e, n) =>
        { received := w.received ++ w.buf.take n
          writes := w.writes + 1
          buf := w.buf.drop n
          err := some e }

/-- A write to the sink past the empty buffer, with the bytes that are left. -/
def writeDirect (t : Behaviour ε) (w : Writer ε) (p : Bytes) : Writer ε × Bytes :=
  match t w.writes with
  | none => ({ w with received := w.received ++ p, writes := w.writes + 1 }, [])
  | some (e, n) =>
      ({ w with received := w.received ++ p.take n, writes := w.writes + 1, err := some e },
        p.drop n)

/-- The bytes do not fit into the buffer. -/
def Full (size : ℕ) (w : Writer ε) (p : Bytes) : Prop :=
  p.length > size - w.buf.length ∧ w.err.isNone

instance (size : ℕ) (w : Writer ε) (p : Bytes) : Decidable (Full size w p) :=
  inferInstanceAs (Decidable (_ ∧ _))

/-- The loop of `write`, for as long as the bytes do not fit into the buffer. -/
def writeLoop (size : ℕ) (t : Behaviour ε) : ℕ → Writer ε → Bytes → Writer ε × Bytes
  | 0, w, p => (w, p)
  | rounds + 1, w, p =>
      if Full size w p then
        if w.buf = [] then
          writeLoop size t rounds (w.writeDirect t p).1 (w.writeDirect t p).2
        else
          let n := size - w.buf.length
          writeLoop size t rounds (flush t { w with buf := w.buf ++ p.take n }) (p.drop n)
      else (w, p)

section Rounds

variable {w : Writer ε} {p : Bytes}

theorem buf_flush (h : (w.flush t).err = none) : (w.flush t).buf = [] := by
  rw [flush] at h ⊢
  split at h
  · rename_i hskip
    rw [if_pos hskip]
    rw [h] at hskip
    simpa using hskip
  · rename_i hskip
    rw [if_neg hskip]
    cases hsink : t w.writes with
    | none => rfl
    | some failure =>
        rw [hsink] at h
        cases h

theorem rest_writeDirect (h : (w.writeDirect t p).1.err = none) : (w.writeDirect t p).2 = [] := by
  rw [writeDirect] at h ⊢
  cases hsink : t w.writes with
  | none => rfl
  | some failure =>
      rw [hsink] at h
      cases h

theorem not_full_of_err {e : ε} (h : w.err = some e) : ¬ Full size w p := by
  simp [Full, h]

theorem writeLoop_of_not_full (h : ¬ Full size w p) (rounds : ℕ) :
    writeLoop size t rounds w p = (w, p) := by
  cases rounds with
  | zero => rfl
  | succ rounds => rw [writeLoop, if_neg h]

/-- With an empty buffer one round is enough. -/
theorem not_full_writeLoop_one (hbuf : w.buf = []) :
    ¬ Full size (writeLoop size t 1 w p).1 (writeLoop size t 1 w p).2 := by
  by_cases hfull : Full size w p
  · rw [writeLoop, if_pos hfull, if_pos hbuf, writeLoop]
    cases herr : (w.writeDirect t p).1.err with
    | none =>
        rw [rest_writeDirect herr]
        exact fun h => Nat.not_lt_zero _ h.1
    | some e => exact not_full_of_err herr
  · rw [writeLoop_of_not_full hfull]
    exact hfull

/-- The loop has ended after two rounds. -/
theorem not_full_writeLoop :
    ¬ Full size (writeLoop size t 2 w p).1 (writeLoop size t 2 w p).2 := by
  by_cases hfull : Full size w p
  · rw [writeLoop, if_pos hfull]
    split
    · rename_i hbuf
      apply not_full_writeLoop_one
      rw [writeDirect]
      split <;> exact hbuf
    · -- the buffer is full and is flushed
      cases herr : (flush t { w with buf := w.buf ++ p.take (size - w.buf.length) }).err with
      | none => exact not_full_writeLoop_one (buf_flush herr)
      | some e =>
          rw [writeLoop_of_not_full (not_full_of_err herr)]
          exact not_full_of_err herr
  · rw [writeLoop_of_not_full hfull]
    exact hfull

end Rounds

/-- What the loop leaves. The buffer is emptied in the first round at the latest, and the second
one writes everything. -/
def writeRounds (size : ℕ) (t : Behaviour ε) (w : Writer ε) (p : Bytes) :
    { r : Writer ε × Bytes // ¬ Full size r.1 r.2 } :=
  ⟨writeLoop size t 2 w p, not_full_writeLoop⟩

def write (size : ℕ) (t : Behaviour ε) (w : Writer ε) (p : Bytes) : Writer ε :=
  let (w, rest) := (writeRounds size t w p).val
  if w.err.isNone then { w with buf := w.buf ++ rest } else w

/-- Writes one after the other, up to the first error. -/
def writeAll (size : ℕ) (t : Behaviour ε) (w : Writer ε) : List Bytes → Writer ε
  | [] => w
  | p :: ps =>
      if (w.write size t p).err.isSome then w.write size t p
      else writeAll size t (w.write size t p) ps

end Writer

/-- From `w`, which has no error, to `w'` a writer has accepted the bytes `bs`, unless the
sink has failed. -/
structure Accepts (t : Behaviour ε) (w w' : Writer ε) (bs : Bytes) : Prop where
  writes_le : w.writes ≤ w'.writes
  failed : w'.err.isSome = true ↔ ∃ k, w.writes ≤ k ∧ k < w'.writes ∧ (t k).isSome
  stream : w'.err = none → w'.received ++ w'.buf = w.received ++ w.buf ++ bs

namespace Accepts

variable {w w' w'' : Writer ε} {bs cs : Bytes}

theorem refl (h : w.err = none) : Accepts t w w [] where
  writes_le := le_rfl
  failed := by
    simp only [h, Option.isSome_none, Bool.false_eq_true, false_iff]
    rintro ⟨k, hle, hlt, -⟩
    omega
  stream := fun _ => (List.append_nil _).symm

/-- Another step after one that did not fail. -/
theorem trans (h : Accepts t w w' bs) (hok : w'.err = none) (h' : Accepts t w' w'' cs) :
    Accepts t w w'' (bs ++ cs) where
  writes_le := h.writes_le.trans h'.writes_le
  failed := by
    have hnone : ¬ ∃ k, w.writes ≤ k ∧ k < w'.writes ∧ (t k).isSome := by
      rw [← h.failed, hok]
      simp
    rw [h'.failed]
    constructor
    · rintro ⟨k, hle, hlt, hk⟩
      exact ⟨k, h.writes_le.trans hle, hlt, hk⟩
    · rintro ⟨k, hle, hlt, hk⟩
      refine ⟨k, ?_, hlt, hk⟩
      by_contra hbefore
      exact hnone ⟨k, hle, by omega, hk⟩
  stream := by
    intro hok'
    rw [h'.stream hok', h.stream hok, List.append_assoc]

/-- After a failure it does not matter what was to be written. -/
theorem of_failed (h : Accepts t w w' bs) (hfailed : w'.err.isSome) : Accepts t w w' cs where
  writes_le := h.writes_le
  failed := h.failed
  stream := by
    intro hok
    rw [hok] at hfailed
    cases hfailed

end Accepts

namespace Writer

variable {w : Writer ε} {p : Bytes}

/-- One write to the sink that ends without an error. -/
theorem accepts_of_ok {w' : Writer ε} {bs : Bytes} (hsink : t w.writes = none)
    (hwrites : w'.writes = w.writes + 1) (herr : w'.err = none)
    (hstream : w'.received ++ w'.buf = w.received ++ w.buf ++ bs) : Accepts t w w' bs where
  writes_le := by omega
  failed := by
    simp only [herr, Option.isSome_none, Bool.false_eq_true, false_iff]
    rintro ⟨k, hle, hlt, hk⟩
    have hself : k = w.writes := by omega
    rw [hself, hsink] at hk
    cases hk
  stream := fun _ => hstream

/-- One write to the sink that fails. -/
theorem accepts_of_failure {w' : Writer ε} {e : ε} {n : ℕ} (hsink : t w.writes = some (e, n))
    (hwrites : w'.writes = w.writes + 1) (herr : w'.err = some e) (bs : Bytes) :
    Accepts t w w' bs where
  writes_le := by omega
  failed := by
    simp only [herr, Option.isSome_some, true_iff]
    exact ⟨w.writes, le_rfl, by omega, by rw [hsink]; rfl⟩
  stream := by
    intro hok
    rw [herr] at hok
    cases hok

theorem flush_accepts (h : w.err = none) : Accepts t w (w.flush t) [] := by
  rw [flush]
  split
  · exact Accepts.refl h
  · split
    · rename_i hsink
      exact accepts_of_ok hsink rfl h (by simp)
    · rename_i e n hsink
      exact accepts_of_failure hsink rfl rfl []

theorem flush_err_iff (h : w.err = none) :
    (w.flush t).err = none ↔ w.buf = [] ∨ t w.writes = none := by
  rw [flush]
  by_cases hbuf : w.buf = []
  · simp [hbuf, h]
  · rw [if_neg (by simp [hbuf, h])]
    cases t w.writes with
    | none => simp [h]
    | some failure => simp [hbuf]

theorem flush_of_err {e : ε} (h : w.err = some e) : w.flush t = w := by
  rw [flush, if_pos (.inl (by rw [h]; rfl))]

theorem writeDirect_accepts (h : w.err = none) (hbuf : w.buf = []) :
    Accepts t w (w.writeDirect t p).1 p := by
  rw [writeDirect]
  cases hsink : t w.writes with
  | none => exact accepts_of_ok hsink rfl h (by simp [hbuf])
  | some failure => exact accepts_of_failure hsink rfl rfl p

/-- A round of the loop passes on a part of the bytes. -/
theorem writeLoop_accepts (h : w.err = none) (size rounds : ℕ) (p : Bytes) :
    ∃ done, Accepts t w (writeLoop size t rounds w p).1 done ∧
      ((writeLoop size t rounds w p).1.err = none →
        done ++ (writeLoop size t rounds w p).2 = p) := by
  induction rounds generalizing w p with
  | zero => exact ⟨[], Accepts.refl h, fun _ => rfl⟩
  | succ rounds ih =>
      -- the rest of the loop, behind a round that has passed on `front`
      have hrest : ∀ {w' : Writer ε} {front rest : Bytes}, Accepts t w w' front →
          (w'.err = none → front ++ rest = p) →
          ∃ done, Accepts t w (writeLoop size t rounds w' rest).1 done ∧
            ((writeLoop size t rounds w' rest).1.err = none →
              done ++ (writeLoop size t rounds w' rest).2 = p) := by
        intro w' front rest hround hfront
        cases herr : w'.err with
        | none =>
            obtain ⟨done, haccepts, hdone⟩ := ih herr rest
            refine ⟨front ++ done, hround.trans herr haccepts, fun hok => ?_⟩
            rw [List.append_assoc, hdone hok, hfront herr]
        | some e =>
            have hstop : writeLoop size t rounds w' rest = (w', rest) :=
              writeLoop_of_not_full (not_full_of_err herr) rounds
            rw [hstop]
            exact ⟨front, hround, fun hok => by rw [herr] at hok; cases hok⟩
      rw [writeLoop]
      split
      · split
        · rename_i hbuf
          refine hrest (writeDirect_accepts h hbuf) fun hok => ?_
          rw [rest_writeDirect hok, List.append_nil]
        · have hfill : Accepts t w { w with buf := w.buf ++ p.take (size - w.buf.length) }
              (p.take (size - w.buf.length)) :=
            ⟨le_rfl, (Accepts.refl h).failed, fun _ => (List.append_assoc _ _ _).symm⟩
          have hflush := hfill.trans h (flush_accepts h)
          rw [List.append_nil] at hflush
          exact hrest hflush fun _ => List.take_append_drop _ _
      · exact ⟨[], Accepts.refl h, fun _ => rfl⟩

theorem write_accepts (h : w.err = none) : Accepts t w (w.write size t p) p := by
  obtain ⟨done, haccepts, hdone⟩ := writeLoop_accepts h size 2 p
  rw [write, show (writeRounds size t w p).val = writeLoop size t 2 w p from rfl]
  generalize writeLoop size t 2 w p = result at haccepts hdone ⊢
  obtain ⟨w', rest⟩ := result
  cases herr : w'.err with
  | none =>
      have hlast : Accepts t w' { w' with buf := w'.buf ++ rest } rest :=
        ⟨le_rfl, (Accepts.refl herr).failed, fun _ => (List.append_assoc _ _ _).symm⟩
      have hall := haccepts.trans herr hlast
      rw [hdone herr] at hall
      simpa [herr] using hall
  | some e =>
      simp only [herr, Option.isNone_some, Bool.false_eq_true, if_false]
      exact haccepts.of_failed (by rw [herr]; rfl)

theorem writeAll_accepts (h : w.err = none) (ps : List Bytes) :
    Accepts t w (w.writeAll size t ps) ps.flatten := by
  induction ps generalizing w with
  | nil => exact Accepts.refl h
  | cons p ps ih =>
      have hwrite : Accepts t w (w.write size t p) p := write_accepts h
      rw [writeAll]
      cases herr : (w.write size t p).err with
      | none => exact hwrite.trans herr (ih herr)
      | some e => exact hwrite.of_failed (by rw [herr]; rfl)

end Writer

end Buffered

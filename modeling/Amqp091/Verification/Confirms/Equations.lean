import Amqp091.Algorithm.Confirms
import Mathlib.Tactic.Basic

/-! # Computation rules for the resequencer -/

namespace Amqp091

namespace Confirms

section Generic

variable {τ : Type} [DecidableEq τ] [Add τ] [OfNat τ 1]

@[simp] theorem confirm_expecting (c : Confirms τ) (confirmation : Confirmation τ) :
    (c.confirm confirmation).expecting = c.expecting + 1 := rfl

@[simp] theorem confirm_published (c : Confirms τ) (confirmation : Confirmation τ) :
    (c.confirm confirmation).published = c.published := rfl

@[simp] theorem confirm_sequencer (c : Confirms τ) (confirmation : Confirmation τ) :
    (c.confirm confirmation).sequencer = c.sequencer.erase c.expecting := rfl

@[simp] theorem confirm_listeners (c : Confirms τ) (confirmation : Confirmation τ) :
    (c.confirm confirmation).listeners = c.listeners.map (· ++ [confirmation]) := rfl

@[simp] theorem confirm_deferred (c : Confirms τ) (confirmation : Confirmation τ) :
    (c.confirm confirmation).deferredConfirmations = c.deferredConfirmations := rfl

theorem length_keys_confirm {c : Confirms τ} {sequenced : Confirmation τ}
    (h : c.sequencer.lookup c.expecting = some sequenced)
    (confirmation : Confirmation τ) :
    c.sequencer.keys.length = (c.confirm confirmation).sequencer.keys.length + 1 := by
  have hmem : c.expecting ∈ c.sequencer.keys :=
    AList.mem_keys.mp (AList.lookup_isSome.mp (by rw [h]; rfl))
  rw [confirm_sequencer, AList.keys_erase, List.length_erase_of_mem hmem]
  have hpos := List.length_pos_of_mem hmem
  omega

/-- A confirmation of the expected tag is delivered at once. -/
theorem oneHead_of_eq (c : Confirms τ) (ack : Bool) :
    c.oneHead ⟨c.expecting, ack⟩ =
      { c with
        deferredConfirmations := c.deferredConfirmations.confirm ⟨c.expecting, ack⟩
        }.confirm ⟨c.expecting, ack⟩ :=
  if_pos rfl

/-- A confirmation of any other tag is stored. -/
theorem oneHead_of_ne {c : Confirms τ} {confirmed : Confirmation τ}
    (h : c.expecting ≠ confirmed.deliveryTag) :
    c.oneHead confirmed =
      { c with
        deferredConfirmations := c.deferredConfirmations.confirm confirmed
        sequencer := c.sequencer.insert confirmed.deliveryTag confirmed } :=
  if_neg h

variable [LE τ] [DecidableLE τ]

/-- The bound on the rounds is never met: `resequence` is the loop of the source. -/
theorem resequence_eq (c : Confirms τ) :
    c.resequence = if c.expecting ≤ c.published then
        match c.sequencer.lookup c.expecting with
        | none => c
        | some sequenced => (c.confirm sequenced).resequence
      else c := by
  cases hfound : c.sequencer.lookup c.expecting with
  | none =>
      rw [resequence]
      cases c.sequencer.keys.length with
      | zero => simp [resequenceLoop]
      | succ rounds => simp [resequenceLoop, hfound]
  | some sequenced =>
      rw [resequence, length_keys_confirm hfound sequenced, resequenceLoop, hfound]
      rfl

/-- A property that each confirmation out of the sequencer keeps is kept by `resequence`. -/
theorem resequence_induction {P : Confirms τ → Prop}
    (hstep : ∀ c sequenced, P c → c.expecting ≤ c.published →
      c.sequencer.lookup c.expecting = some sequenced → P (c.confirm sequenced))
    (c : Confirms τ) (h : P c) : P c.resequence := by
  unfold resequence
  generalize c.sequencer.keys.length = rounds
  induction rounds generalizing c with
  | zero => exact h
  | succ rounds ih =>
      unfold resequenceLoop
      split
      · rename_i hle
        split
        · exact h
        · rename_i sequenced hfound
          exact ih _ (hstep c sequenced h hle hfound)
      · exact h

theorem resequence_deferred (c : Confirms τ) :
    c.resequence.deferredConfirmations = c.deferredConfirmations ∧
      c.resequence.published = c.published :=
  resequence_induction
    (P := fun c' => c'.deferredConfirmations = c.deferredConfirmations ∧
      c'.published = c.published)
    (fun _ _ h _ _ => h) c ⟨rfl, rfl⟩

/-- `resequence` stops where the next tag is unpublished or unknown. -/
theorem resequence_stops (c : Confirms τ)
    (hle : c.resequence.expecting ≤ c.resequence.published) :
    c.resequence.sequencer.lookup c.resequence.expecting = none := by
  have hrec : ∀ rounds (c : Confirms τ), c.sequencer.keys.length = rounds →
      c.resequence.expecting ≤ c.resequence.published →
      c.resequence.sequencer.lookup c.resequence.expecting = none := by
    intro rounds
    induction rounds with
    | zero =>
        intro c hlen _
        have hnil : c.sequencer.keys = [] := List.length_eq_zero_iff.mp hlen
        have hself : c.resequence = c := by rw [resequence, hlen, resequenceLoop]
        rw [hself, AList.lookup_eq_none, AList.mem_keys, hnil]
        exact List.not_mem_nil
    | succ rounds ih =>
        intro c hlen hle
        have heq := resequence_eq c
        by_cases hpublished : c.expecting ≤ c.published
        · rw [if_pos hpublished] at heq
          cases hfound : c.sequencer.lookup c.expecting with
          | none =>
              rw [hfound] at heq
              rw [heq]
              exact hfound
          | some sequenced =>
              rw [hfound] at heq
              rw [heq] at hle ⊢
              have hkeys := length_keys_confirm hfound sequenced
              exact ih (c.confirm sequenced) (by omega) hle
        · rw [if_neg hpublished] at heq
          rw [heq] at hle
          exact absurd hle hpublished
  exact hrec _ c rfl hle

/-- A property that each confirmation of the loop of `Multiple` keeps holds behind it. -/
theorem multipleLoop_induction {P : Confirms τ → Prop} {confirmed : Confirmation τ}
    (hstep : ∀ c, P c → c.expecting ≤ confirmed.deliveryTag →
      P (c.confirm ⟨c.expecting, confirmed.ack⟩))
    {rounds : ℕ} {c c' : Confirms τ} (h : P c)
    (hloop : multipleLoop rounds c confirmed = some c') :
    P c' ∧ ¬ c'.expecting ≤ confirmed.deliveryTag := by
  induction rounds generalizing c with
  | zero => cases hloop
  | succ rounds ih =>
      unfold multipleLoop at hloop
      split at hloop
      · rename_i hle
        exact ih (hstep c h hle) hloop
      · rename_i hgt
        cases hloop
        exact ⟨h, hgt⟩

end Generic

/-- Where tags do not wrap around, `Multiple` confirms one tag a round and ends. -/
theorem multipleLoop_terminates (c : Confirms ℕ) (confirmed : Confirmation ℕ) :
    ∃ c', multipleLoop (confirmed.deliveryTag + 1 - c.expecting + 1) c confirmed = some c' := by
  generalize hn : confirmed.deliveryTag + 1 - c.expecting = n
  induction n generalizing c with
  | zero => exact ⟨c, by rw [multipleLoop, if_neg (by omega)]⟩
  | succ n ih =>
      rw [multipleLoop, if_pos (by omega)]
      exact ih (c.confirm ⟨c.expecting, confirmed.ack⟩) (by rw [confirm_expecting]; omega)

end Confirms

end Amqp091

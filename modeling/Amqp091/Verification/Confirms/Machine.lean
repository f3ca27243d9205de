import Amqp091.Algorithm.Confirming
import Amqp091.Shared.Positions
import Amqp091.Shared.Transition
import Amqp091.Verification.Confirms.Deferred
import Amqp091.Verification.Confirms.Equations
import Mathlib.Tactic.Tauto

/-! # Steps of publishing and confirming -/

namespace Amqp091

namespace ServerConfirm

/-- The tags a confirmation speaks about. -/
def Covers : ServerConfirm → ℕ → Prop
  | one confirmed, t => t = confirmed.deliveryTag
  | multiple confirmed, t => 1 ≤ t ∧ t ≤ confirmed.deliveryTag

instance (e : ServerConfirm) (t : ℕ) : Decidable (e.Covers t) := by
  cases e <;> unfold Covers <;> infer_instance

/-! ## The effect on deferred confirmations -/

/-- The effect of a confirmation on the deferred confirmations. -/
def defer (d : DeferredConfirmations ℕ) : ServerConfirm → DeferredConfirmations ℕ
  | one confirmed => d.confirm confirmed
  | multiple confirmed => d.confirmMultiple confirmed

theorem head_deferred {c c' : Confirms ℕ} {e : ServerConfirm} (h : e.head c = some c') :
    c'.deferredConfirmations = e.defer c.deferredConfirmations ∧
      c'.published = c.published := by
  cases e with
  | one confirmed =>
      cases h
      obtain ⟨tag, ack⟩ := confirmed
      by_cases htag : c.expecting = tag
      · subst htag
        rw [Confirms.oneHead_of_eq]
        exact ⟨rfl, rfl⟩
      · rw [Confirms.oneHead_of_ne htag]
        exact ⟨rfl, rfl⟩
  | multiple confirmed =>
      refine (Confirms.multipleLoop_induction
        (P := fun c' => c'.deferredConfirmations =
          c.deferredConfirmations.confirmMultiple confirmed ∧ c'.published = c.published)
        (fun _ hc _ => hc) ?_ h).1
      exact ⟨rfl, rfl⟩

/-- A property kept by settling pending tags the confirmation covers is kept by it. -/
theorem defer_induction {P : DeferredConfirmations ℕ → Prop} {e : ServerConfirm}
    (hstep : ∀ d t p, P d → (1 ≤ t → e.Covers t) → d.confirmations.lookup t = some p →
      P (d.settle t p (DeferredConfirmation.setAck e.confirmed.ack)))
    (d : DeferredConfirmations ℕ) (h : P d) : P (e.defer d) := by
  cases e with
  | one confirmed =>
      exact DeferredConfirmations.confirm_induction
        (fun p hp => hstep d _ p h (fun _ => rfl) hp) h
  | multiple confirmed =>
      rw [defer, DeferredConfirmations.confirmMultiple]
      refine DeferredConfirmations.settleAll_induction (fun d t p hd hsel hp => ?_) d h
      exact hstep d t p hd (fun ht => ⟨ht, by simpa using hsel⟩) hp

/-- A tag that is still pending afterwards is not covered. -/
theorem lookup_defer {d : DeferredConfirmations ℕ} {e : ServerConfirm} {t p : ℕ}
    (h : (e.defer d).confirmations.lookup t = some p) : ¬ e.Covers t := by
  cases e with
  | one confirmed => exact (DeferredConfirmations.lookup_confirm.mp h).1
  | multiple confirmed =>
      intro hcov
      rw [defer, DeferredConfirmations.confirmMultiple, DeferredConfirmations.lookup_settleAll,
        if_pos (by simpa using hcov.2)] at h
      cases h

/-- Exactly the covered tags are gone. -/
theorem lookup_defer_iff {d : DeferredConfirmations ℕ} {e : ServerConfirm} {t p : ℕ}
    (ht : 1 ≤ t) : (e.defer d).confirmations.lookup t = some p ↔
      d.confirmations.lookup t = some p ∧ ¬ e.Covers t := by
  cases e with
  | one confirmed =>
      rw [defer, DeferredConfirmations.lookup_confirm, Covers]
      tauto
  | multiple confirmed =>
      rw [defer, DeferredConfirmations.confirmMultiple, DeferredConfirmations.lookup_settleAll,
        Covers]
      by_cases hle : t ≤ confirmed.deliveryTag
      · simp [hle, ht]
      · simp [hle]

end ServerConfirm

/-! ## The machine -/

namespace ConfirmState

/-- Some confirmation processed so far covers the tag. -/
def Confirmed (s : ConfirmState) (t : ℕ) : Prop := ∃ e ∈ s.history, e.Covers t

theorem confirmed_append {s : ConfirmState} {e : ServerConfirm} {c : Confirms ℕ} {b : Bool}
    {t : ℕ} : Confirmed ⟨c, b, s.history ++ [e]⟩ t ↔ s.Confirmed t ∨ e.Covers t := by
  simp [Confirmed, or_and_right, exists_or]

/-- What each action does, with the conditions under which it is enabled. -/
theorem next_cases {s s' : ConfirmState} {a : ConfirmAction} (h : s.next a = some s') :
    (a = .listen ∧ s.busy = false ∧ s' = { s with confirms := s.confirms.listen }) ∨
    (a = .publish ∧ s' = { s with confirms := s.confirms.publish.1 }) ∨
    (∃ e c, a = .confirm e ∧ s.busy = false ∧ e.head s.confirms = some c ∧
      s' = ⟨c, true, s.history ++ [e]⟩) ∨
    (a = .resequence ∧ s.busy = true ∧
      s' = { s with confirms := s.confirms.resequence, busy := false }) := by
  cases a with
  | listen =>
      cases hb : s.busy
      · refine .inl ⟨rfl, rfl, ?_⟩
        simpa [next, hb] using h.symm
      · simp [next, hb] at h
  | publish => exact .inr (.inl ⟨rfl, by simpa [next] using h.symm⟩)
  | confirm e =>
      cases hb : s.busy
      · simp only [next, hb, Bool.false_eq_true, if_false, Option.map_eq_some_iff] at h
        obtain ⟨c, hc, rfl⟩ := h
        exact .inr (.inr (.inl ⟨e, c, rfl, rfl, hc, rfl⟩))
      · simp [next, hb] at h
  | resequence =>
      cases hb : s.busy
      · simp [next, hb] at h
      · refine .inr (.inr (.inr ⟨rfl, rfl, ?_⟩))
        simpa [next, hb] using h.symm

/-- A confirmation can always be processed when `c.m` is free. -/
theorem head_terminates (c : Confirms ℕ) (e : ServerConfirm) : ∃ c', e.head c = some c' := by
  cases e with
  | one confirmed => exact ⟨_, rfl⟩
  | multiple confirmed => exact Confirms.multipleLoop_terminates _ confirmed

end ConfirmState

end Amqp091

import Amqp091.Algorithm.Confirms
import Mathlib.Tactic.Basic

/-! # Rules for the map of deferred confirmations -/

namespace Amqp091

namespace DeferredConfirmations

variable {τ : Type} [DecidableEq τ]

@[simp] theorem settle_heap (d : DeferredConfirmations τ) (tag : τ) (p : ℕ)
    (f : DeferredConfirmation τ → DeferredConfirmation τ) :
    (d.settle tag p f).heap = d.heap.modify p f := rfl

@[simp] theorem settle_confirmations (d : DeferredConfirmations τ) (tag : τ) (p : ℕ)
    (f : DeferredConfirmation τ → DeferredConfirmation τ) :
    (d.settle tag p f).confirmations = d.confirmations.erase tag := rfl

/-- What a `lookup` still finds after a settlement it found before, under another tag. -/
theorem lookup_settle {d : DeferredConfirmations τ} {tag t : τ} {p q : ℕ}
    {f : DeferredConfirmation τ → DeferredConfirmation τ} :
    (d.settle tag p f).confirmations.lookup t = some q ↔
      t ≠ tag ∧ d.confirmations.lookup t = some q := by
  rw [settle_confirmations]
  by_cases h : t = tag
  · subst h
    simp
  · simp [AList.lookup_erase_ne h, h]

/-- A settlement changes the confirmation it points to and no other. -/
theorem getElem?_settle {d : DeferredConfirmations τ} {tag : τ} {p i : ℕ}
    {f : DeferredConfirmation τ → DeferredConfirmation τ} {dc : DeferredConfirmation τ} :
    (d.settle tag p f).heap[i]? = some dc ↔
      ∃ old, d.heap[i]? = some old ∧ (if p = i then f old else old) = dc := by
  rw [settle_heap, List.getElem?_modify, Option.map_eq_map, Option.map_eq_some_iff]

/-- `Confirm` settles its tag if it is pending. -/
theorem confirm_induction {P : DeferredConfirmations τ → Prop} {d : DeferredConfirmations τ}
    {confirmation : Confirmation τ}
    (hstep : ∀ p, d.confirmations.lookup confirmation.deliveryTag = some p →
      P (d.settle confirmation.deliveryTag p (DeferredConfirmation.setAck confirmation.ack)))
    (h : P d) : P (d.confirm confirmation) := by
  unfold confirm
  split
  · exact h
  · rename_i p hp
    exact hstep p hp

/-- So does `remove`. -/
theorem remove_induction {P : DeferredConfirmations τ → Prop} {d : DeferredConfirmations τ}
    {tag : τ} (hstep : ∀ p, d.confirmations.lookup tag = some p →
      P (d.settle tag p DeferredConfirmation.closeDone)) (h : P d) : P (d.remove tag) := by
  unfold remove
  split
  · exact h
  · rename_i p hp
    exact hstep p hp

/-- Both leave every other tag alone. -/
theorem lookup_settle_or_skip {d : DeferredConfirmations τ} {tag t : τ} {q : ℕ}
    {f : DeferredConfirmation τ → DeferredConfirmation τ} :
    (match d.confirmations.lookup tag with
      | none => d
      | some p => d.settle tag p f).confirmations.lookup t = some q ↔
      t ≠ tag ∧ d.confirmations.lookup t = some q := by
  split
  · rename_i hnone
    constructor
    · intro h
      refine ⟨?_, h⟩
      rintro rfl
      rw [hnone] at h
      cases h
    · exact fun h => h.2
  · exact lookup_settle

theorem lookup_confirm {d : DeferredConfirmations τ} {confirmation : Confirmation τ} {t : τ}
    {q : ℕ} : (d.confirm confirmation).confirmations.lookup t = some q ↔
      t ≠ confirmation.deliveryTag ∧ d.confirmations.lookup t = some q :=
  lookup_settle_or_skip

theorem lookup_remove {d : DeferredConfirmations τ} {tag t : τ} {q : ℕ} :
    (d.remove tag).confirmations.lookup t = some q ↔
      t ≠ tag ∧ d.confirmations.lookup t = some q :=
  lookup_settle_or_skip

/-- A property kept by each settlement of a pending tag is kept by the whole loop. -/
theorem settleAll_induction {P : DeferredConfirmations τ → Prop} {selected : τ → Bool}
    {ack : Bool}
    (hstep : ∀ d t p, P d → selected t = true → d.confirmations.lookup t = some p →
      P (d.settle t p (DeferredConfirmation.setAck ack)))
    (d : DeferredConfirmations τ) (h : P d) : P (d.settleAll selected ack) := by
  -- the entries still to be visited are in the map, since their keys are distinct
  have hloop : ∀ (entries : List (Sigma fun _ : τ => ℕ)) (d : DeferredConfirmations τ), P d →
      entries.NodupKeys → (∀ e ∈ entries, d.confirmations.lookup e.1 = some e.2) →
      P (entries.foldl (fun d e =>
        if selected e.1 then d.settle e.1 e.2 (DeferredConfirmation.setAck ack) else d) d) := by
    intro entries
    induction entries with
    | nil => exact fun d h _ _ => h
    | cons e entries ih =>
        intro d h hnodup hmem
        rw [List.foldl_cons]
        rw [List.nodupKeys_cons] at hnodup
        have hrest : ∀ e' ∈ entries, d.confirmations.lookup e'.1 = some e'.2 :=
          fun e' he' => hmem e' (List.mem_cons_of_mem _ he')
        split
        · rename_i hsel
          refine ih _ (hstep d e.1 e.2 h hsel (hmem e List.mem_cons_self)) hnodup.2 ?_
          intro e' he'
          refine lookup_settle.mpr ⟨?_, hrest e' he'⟩
          rintro heq
          exact hnodup.1 (heq ▸ List.mem_keys_of_mem he')
        · exact ih d h hnodup.2 hrest
  refine hloop _ d h d.confirmations.nodupKeys fun e he => ?_
  exact AList.mem_lookup_iff.mpr he

/-- Every selected tag is gone after the loop, and only these. -/
theorem lookup_settleAll (d : DeferredConfirmations τ) (selected : τ → Bool) (ack : Bool)
    (t : τ) :
    (d.settleAll selected ack).confirmations.lookup t =
      if selected t then none else d.confirmations.lookup t := by
  have hloop : ∀ (entries : List (Sigma fun _ : τ => ℕ)) (d : DeferredConfirmations τ),
      (entries.foldl (fun d e =>
        if selected e.1 then d.settle e.1 e.2 (DeferredConfirmation.setAck ack) else d)
          d).confirmations.lookup t =
        if selected t = true ∧ t ∈ entries.keys then none else d.confirmations.lookup t := by
    intro entries
    induction entries with
    | nil => simp
    | cons e entries ih =>
        intro d
        rw [List.foldl_cons, ih, List.keys_cons]
        by_cases hsel : selected e.1
        · by_cases heq : t = e.1
          · subst heq
            simp [hsel]
          · simp [hsel, heq, AList.lookup_erase_ne heq]
        · have hne : selected t = true → t ≠ e.1 := by
            rintro ht rfl
            exact hsel ht
          by_cases ht : selected t
          · simp [hsel, ht, hne ht]
          · simp [hsel, ht]
  rw [settleAll, hloop]
  by_cases ht : selected t
  · by_cases hmem : t ∈ d.confirmations.keys
    · simp [ht, AList.keys] at hmem ⊢
      exact fun h => absurd hmem h
    · have hnone : d.confirmations.lookup t = none := AList.lookup_eq_none.mpr hmem
      simp [ht, hnone]
  · simp [ht]

end DeferredConfirmations

end Amqp091

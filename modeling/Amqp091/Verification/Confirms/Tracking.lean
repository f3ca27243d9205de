import Amqp091.Verification.Confirms.Machine

/-! # Every deferred confirmation is pending or was closed once -/

namespace Amqp091

open Positions

namespace DeferredConfirmations

variable {τ : Type} [DecidableEq τ] {d d' : DeferredConfirmations τ}

/-- A deferred confirmation is pending under one tag with its `done` channel open, or its
channel was closed exactly once. -/
structure Tracked (d : DeferredConfirmations τ) : Prop where
  pending : ∀ t p, d.confirmations.lookup t = some p →
    ∃ dc, d.heap[p]? = some dc ∧ dc.closes = 0
  unique : ∀ t t' p, d.confirmations.lookup t = some p →
    d.confirmations.lookup t' = some p → t = t'
  settled : ∀ p dc, d.heap[p]? = some dc →
    dc.closes = 1 ∨ ∃ t, d.confirmations.lookup t = some p

namespace Tracked

theorem lt_length (h : d.Tracked) {t : τ} {p : ℕ} (hp : d.confirmations.lookup t = some p) :
    p < d.heap.length := by
  obtain ⟨dc, hdc, -⟩ := h.pending t p hp
  exact (List.getElem?_eq_some_iff.mp hdc).1

theorem closes_le_one (h : d.Tracked) {dc : DeferredConfirmation τ} (hdc : dc ∈ d.heap) :
    dc.closes ≤ 1 := by
  obtain ⟨p, hp⟩ := List.mem_iff_getElem?.mp hdc
  rcases h.settled p dc hp with hclosed | ⟨t, ht⟩
  · omega
  · obtain ⟨dc', hdc', hopen⟩ := h.pending t p ht
    rw [hp] at hdc'
    cases hdc'
    omega

/-- What is not pending was closed. -/
theorem closed_of_not_pending (h : d.Tracked) {p : ℕ} (hp : p < d.heap.length)
    (hnone : ∀ t, d.confirmations.lookup t ≠ some p) :
    ∃ dc, d.heap[p]? = some dc ∧ dc.closes = 1 := by
  refine ⟨d.heap[p], List.getElem?_eq_getElem hp, ?_⟩
  rcases h.settled p _ (List.getElem?_eq_getElem hp) with hclosed | ⟨t, ht⟩
  · exact hclosed
  · exact absurd ht (hnone t)

theorem settle (h : d.Tracked) {t : τ} {p : ℕ}
    {f : DeferredConfirmation τ → DeferredConfirmation τ}
    (hp : d.confirmations.lookup t = some p) (hf : ∀ dc, (f dc).closes = dc.closes + 1) :
    (d.settle t p f).Tracked where
  pending := by
    intro t' q hq
    obtain ⟨hne, hq⟩ := lookup_settle.mp hq
    obtain ⟨dc, hdc, hopen⟩ := h.pending t' q hq
    refine ⟨dc, getElem?_settle.mpr ⟨dc, hdc, if_neg ?_⟩, hopen⟩
    rintro rfl
    exact hne (h.unique _ _ _ hq hp)
  unique := fun t₁ t₂ q h₁ h₂ =>
    h.unique t₁ t₂ q (lookup_settle.mp h₁).2 (lookup_settle.mp h₂).2
  settled := by
    intro q dc hdc
    obtain ⟨old, hold, rfl⟩ := getElem?_settle.mp hdc
    split
    · rename_i heq
      subst heq
      obtain ⟨dc, hdc, hopen⟩ := h.pending t p hp
      rw [hold] at hdc
      cases hdc
      exact .inl (by rw [hf, hopen])
    · rename_i hne
      refine (h.settled q old hold).imp_right fun ⟨t', ht'⟩ => ⟨t', lookup_settle.mpr ⟨?_, ht'⟩⟩
      rintro rfl
      rw [hp] at ht'
      cases ht'
      exact hne rfl

theorem lookup_add {tag t : τ} {p : ℕ} :
    (d.add tag).1.confirmations.lookup t = some p ↔
      t = tag ∧ p = d.heap.length ∨ t ≠ tag ∧ d.confirmations.lookup t = some p := by
  by_cases ht : t = tag
  · subst ht
    simp [add, eq_comm]
  · simp [add, ht, AList.lookup_insert_ne ht]

/-- A tag without a pending entry can be given out. -/
theorem add (h : d.Tracked) {tag : τ} (hfresh : d.confirmations.lookup tag = none) :
    (d.add tag).1.Tracked where
  pending := by
    intro t p hp
    rcases lookup_add.mp hp with ⟨rfl, rfl⟩ | ⟨-, hp⟩
    · exact ⟨{ deliveryTag := t }, by simp [DeferredConfirmations.add], rfl⟩
    · obtain ⟨dc, hdc, hopen⟩ := h.pending t p hp
      refine ⟨dc, ?_, hopen⟩
      rw [DeferredConfirmations.add, List.getElem?_append_left (h.lt_length hp), hdc]
  unique := by
    intro t t' p hp hp'
    rcases lookup_add.mp hp with ⟨rfl, hlast⟩ | ⟨-, hold⟩
    · rcases lookup_add.mp hp' with ⟨rfl, -⟩ | ⟨-, hold'⟩
      · rfl
      · exact absurd (h.lt_length hold') (by omega)
    · rcases lookup_add.mp hp' with ⟨rfl, hlast⟩ | ⟨-, hold'⟩
      · exact absurd (h.lt_length hold) (by omega)
      · exact h.unique t t' p hold hold'
  settled := by
    intro p dc hdc
    by_cases hp : p < d.heap.length
    · rw [DeferredConfirmations.add, List.getElem?_append_left hp] at hdc
      refine (h.settled p dc hdc).imp_right fun ⟨t, ht⟩ => ⟨t, lookup_add.mpr (.inr ⟨?_, ht⟩)⟩
      rintro rfl
      rw [hfresh] at ht
      cases ht
    · have hlast : p = d.heap.length := by
        have hlt := (List.getElem?_eq_some_iff.mp hdc).1
        rw [DeferredConfirmations.add, List.length_append, List.length_singleton] at hlt
        omega
      exact .inr ⟨tag, lookup_add.mpr (.inl ⟨rfl, hlast⟩)⟩

end Tracked

/-! ## Settling pending entries -/

/-- `d'` arises from `d` by settling pending entries. -/
structure Settles (d d' : DeferredConfirmations τ) : Prop where
  tracked : d'.Tracked
  length : d'.heap.length = d.heap.length
  lookup : ∀ t p, d'.confirmations.lookup t = some p → d.confirmations.lookup t = some p

namespace Settles

theorem refl (h : d.Tracked) : d.Settles d := ⟨h, rfl, fun _ _ hp => hp⟩

theorem settle (h : d.Settles d') {t : τ} {p : ℕ}
    {f : DeferredConfirmation τ → DeferredConfirmation τ}
    (hp : d'.confirmations.lookup t = some p) (hf : ∀ dc, (f dc).closes = dc.closes + 1) :
    d.Settles (d'.settle t p f) where
  tracked := h.tracked.settle hp hf
  length := by rw [settle_heap, List.length_modify, h.length]
  lookup := fun t' q hq => h.lookup t' q (lookup_settle.mp hq).2

theorem remove (h : d.Tracked) (tag : τ) : d.Settles (d.remove tag) :=
  remove_induction (fun _ hp => (refl h).settle hp fun _ => rfl) (refl h)

theorem close (h : d.Tracked) : d.Settles d.close :=
  settleAll_induction (fun _ _ _ hd _ hp => hd.settle hp fun _ => rfl) d (refl h)

theorem defer {d : DeferredConfirmations ℕ} (h : d.Tracked) (e : ServerConfirm) :
    d.Settles (e.defer d) :=
  ServerConfirm.defer_induction (fun _ _ _ hd _ hp => hd.settle hp fun _ => rfl) d (refl h)

/-- A pending entry stays as it is or is dropped with its channel closed. -/
theorem kept_or_closed (h : d.Settles d') (hd : d.Tracked) {t : τ} {p : ℕ}
    (hp : d.confirmations.lookup t = some p) :
    d'.confirmations.lookup t = some p ∨
      d'.confirmations.lookup t = none ∧ ∃ dc, d'.heap[p]? = some dc ∧ dc.closes = 1 := by
  cases hp' : d'.confirmations.lookup t with
  | some q =>
      rw [h.lookup t q hp'] at hp
      exact .inl hp
  | none =>
      refine .inr ⟨rfl, h.tracked.closed_of_not_pending ?_ fun t' ht' => ?_⟩
      · rw [h.length]
        exact hd.lt_length hp
      · have heq := hd.unique t' t p (h.lookup t' p ht') hp
        rw [heq, hp'] at ht'
        cases ht'

end Settles

/-! ## Delivery tags -/

/-- The tags of all deferred confirmations ever allocated. -/
def tags (d : DeferredConfirmations τ) : List τ :=
  d.heap.map DeferredConfirmation.deliveryTag

@[simp] theorem tags_add (d : DeferredConfirmations τ) (tag : τ) :
    (d.add tag).1.tags = d.tags ++ [tag] := by
  simp [tags, DeferredConfirmations.add]

theorem tags_settle (d : DeferredConfirmations τ) (tag : τ) (p : ℕ)
    {f : DeferredConfirmation τ → DeferredConfirmation τ}
    (hf : ∀ dc, (f dc).deliveryTag = dc.deliveryTag) : (d.settle tag p f).tags = d.tags := by
  rw [tags, settle_heap]
  exact map_modify_eq hf

@[simp] theorem tags_remove (d : DeferredConfirmations τ) (tag : τ) :
    (d.remove tag).tags = d.tags :=
  remove_induction (P := fun d' => d'.tags = d.tags) (fun _ _ => tags_settle _ _ _ fun _ => rfl) rfl

@[simp] theorem tags_close (d : DeferredConfirmations τ) : d.close.tags = d.tags :=
  settleAll_induction (P := fun d' => d'.tags = d.tags)
    (fun _ _ _ hd _ _ => Eq.trans (tags_settle _ _ _ fun _ => rfl) hd) d rfl

@[simp] theorem tags_defer (d : DeferredConfirmations ℕ) (e : ServerConfirm) :
    (e.defer d).tags = d.tags :=
  ServerConfirm.defer_induction (P := fun d' => d'.tags = d.tags)
    (fun _ _ _ hd _ _ => Eq.trans (tags_settle _ _ _ fun _ => rfl) hd) d rfl

theorem lookup_close (d : DeferredConfirmations τ) (t : τ) :
    d.close.confirmations.lookup t = none := by
  rw [close, lookup_settleAll, if_pos rfl]

end DeferredConfirmations

end Amqp091

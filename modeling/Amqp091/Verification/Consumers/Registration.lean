import Amqp091.Verification.Consumers.Delivery

/-! # Which consumer is registered under a tag -/

namespace Amqp091.Consumers

open ByteCodec Positions

variable {δ : Type} {subs subs' : Consumers δ} {tag : Bytes}

/-- The tags of all consumers ever added. -/
def tags (subs : Consumers δ) : List Bytes := subs.consumers.map (·.tag)

theorem tags_remove (subs : Consumers δ) (tag : Bytes) (i : ℕ) :
    (subs.remove tag i).tags = subs.tags :=
  map_modify_eq fun _ => rfl

theorem tags_cancel (subs : Consumers δ) (tag : Bytes) :
    (subs.cancel tag).1.tags = subs.tags := by
  rw [cancel]
  split
  · exact tags_remove _ _ _
  · rfl

theorem lookup_cancel_of_ne {tag' : Bytes} (hne : tag' ≠ tag) :
    (subs.cancel tag).1.chans.lookup tag' = subs.chans.lookup tag' := by
  rw [cancel]
  split
  · exact AList.lookup_erase_ne hne
  · rfl

theorem tags_add (subs : Consumers δ) (tag : Bytes) (capacity : ℕ) :
    (subs.add tag capacity).tags = subs.tags ++ [tag] := by
  have hcancel := tags_cancel subs tag
  rw [add_eq]
  rw [tags] at hcancel ⊢
  rw [List.map_append, hcancel]
  rfl

theorem lookup_add (subs : Consumers δ) (tag : Bytes) (capacity : ℕ) :
    (subs.add tag capacity).chans.lookup tag = some subs.tags.length := by
  rw [add_eq, ← tags_cancel subs tag, tags, List.length_map]
  exact AList.lookup_insert _

theorem lookup_add_of_ne (capacity : ℕ) {tag' : Bytes} (hne : tag' ≠ tag) :
    (subs.add tag capacity).chans.lookup tag' = subs.chans.lookup tag' := by
  have hlookup : (subs.cancel tag).1.chans.lookup tag' = subs.chans.lookup tag' :=
    lookup_cancel_of_ne hne
  rw [add_eq, ← hlookup]
  exact AList.lookup_insert_ne hne

/-- The loop of `close` over the map. -/
theorem removeAll_frame (l : List (Sigma fun _ : Bytes => ℕ)) (subs : Consumers δ) :
    (l.foldl (fun subs e => subs.remove e.1 e.2) subs).tags = subs.tags ∧
      ∀ tag, (l.foldl (fun subs e => subs.remove e.1 e.2) subs).chans.lookup tag =
        if tag ∈ l.map (·.1) then none else subs.chans.lookup tag := by
  induction l generalizing subs with
  | nil => exact ⟨rfl, fun _ => rfl⟩
  | cons e l ih =>
      obtain ⟨htags, hlookup⟩ := ih (subs.remove e.1 e.2)
      refine ⟨htags.trans (tags_remove _ _ _), fun tag => ?_⟩
      rw [List.foldl_cons, hlookup]
      by_cases htag : tag = e.1
      · subst htag
        simp [Consumers.remove, AList.lookup_erase]
      · have hmem : tag ∈ (e :: l).map (·.1) ↔ tag ∈ l.map (·.1) := by
          rw [List.map_cons, List.mem_cons]
          exact or_iff_right htag
        simp only [hmem, Consumers.remove, AList.lookup_erase_ne htag]

theorem tags_close (subs : Consumers δ) : subs.close.tags = subs.tags :=
  (removeAll_frame _ _).1

theorem lookup_close (subs : Consumers δ) (tag : Bytes) : subs.close.chans.lookup tag = none := by
  refine ((removeAll_frame _ _).2 tag).trans ?_
  split
  · rfl
  · next hmem => exact AList.lookup_eq_none.mpr hmem

/-- Deliveries register nothing. -/
theorem deliver_frame {a : Action δ} (hnext : subs.next a = some subs')
    (ha : ∀ tag capacity, a ≠ .add tag capacity) (hcancel : ∀ tag, a ≠ .cancel tag)
    (hclose : a ≠ .close) : subs'.tags = subs.tags ∧ subs'.chans = subs.chans := by
  cases a with
  | add tag capacity => exact absurd rfl (ha tag capacity)
  | cancel tag => exact absurd rfl (hcancel tag)
  | close => exact absurd rfl hclose
  | send tag delivery =>
      obtain ⟨-, ⟨⟩⟩ := Option.ite_none_right_eq_some.mp hnext
      rw [send]
      split
      · exact ⟨map_modify_eq fun _ => rfl, rfl⟩
      · exact ⟨rfl, rfl⟩
  | accept =>
      rw [next, accept] at hnext
      split at hnext
      · split at hnext
        · next hc =>
          split at hnext
          · cases hnext
            exact ⟨map_set_eq hc rfl, rfl⟩
          · obtain ⟨-, ⟨⟩⟩ := Option.ite_none_right_eq_some.mp hnext
            exact ⟨map_set_eq hc rfl, rfl⟩
        · cases hnext
      · cases hnext
  | wait =>
      rw [next, wait] at hnext
      split at hnext
      · obtain ⟨-, ⟨⟩⟩ := Option.ite_none_right_eq_some.mp hnext
        exact ⟨rfl, rfl⟩
      · cases hnext
  | step i step =>
      rw [next, stepConsumer] at hnext
      split at hnext
      · next hc =>
        obtain ⟨c', hc', rfl⟩ := Option.map_eq_some_iff.mp hnext
        exact ⟨map_set_eq hc (Consumer.step_frame hc').2, rfl⟩
      · cases hnext

end Amqp091.Consumers

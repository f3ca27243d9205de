import Amqp091.Shared.KeyMap
import Amqp091.Verification.Confirms.Machine
import Mathlib.Algebra.Group.Nat.Defs
import Mathlib.Data.List.Range

/-! # The values of 64-bit tags

Up to the largest tag, the operations of the resequencer on 64-bit tags have the values they
have on natural numbers. -/

namespace Amqp091

open KeyMap

/-- `2^64 - 1`. -/
def lastTag : UInt64 := 18446744073709551615

namespace Confirms

theorem toNat_lastTag : lastTag.toNat = 2 ^ 64 - 1 := rfl

theorem ne_lastTag_iff {tag : UInt64} : tag ≠ lastTag ↔ tag.toNat < 2 ^ 64 - 1 := by
  have hlt := tag.toNat_lt
  rw [Ne, ← UInt64.toNat_inj, toNat_lastTag]
  omega

theorem toNat_add_one {tag : UInt64} (h : tag.toNat < 2 ^ 64 - 1) :
    (tag + 1).toNat = tag.toNat + 1 := by
  rw [UInt64.toNat_add, UInt64.toNat_one]
  omega

end Confirms

theorem toNat_injective : Function.Injective UInt64.toNat := fun _ _ => UInt64.toNat_inj.mp

def Confirmation.toNat (x : Confirmation UInt64) : Confirmation ℕ := ⟨x.deliveryTag.toNat, x.ack⟩

def DeferredConfirmation.toNat (dc : DeferredConfirmation UInt64) : DeferredConfirmation ℕ :=
  ⟨dc.deliveryTag.toNat, dc.ack, dc.closes⟩

def DeferredConfirmations.toNat (d : DeferredConfirmations UInt64) : DeferredConfirmations ℕ where
  heap := d.heap.map DeferredConfirmation.toNat
  confirmations := rename toNat_injective id d.confirmations

def Confirms.toNat (c : Confirms UInt64) : Confirms ℕ where
  listeners := c.listeners.map (·.map Confirmation.toNat)
  closed := c.closed.map (·.map Confirmation.toNat)
  sequencer := rename toNat_injective Confirmation.toNat c.sequencer
  deferredConfirmations := c.deferredConfirmations.toNat
  published := c.published.toNat
  expecting := c.expecting.toNat

/-! ## Deferred confirmations -/

namespace DeferredConfirmations

variable (d : DeferredConfirmations UInt64) (tag : UInt64)

theorem lookup_toNat : d.toNat.confirmations.lookup tag.toNat = d.confirmations.lookup tag := by
  have hlookup := lookup_rename (g := id) toNat_injective d.confirmations tag
  rwa [Option.map_id_fun, id] at hlookup

theorem toNat_add : (d.toNat.add tag.toNat).1 = (d.add tag).1.toNat := by
  have hinsert := insert_rename (g := id) toNat_injective d.confirmations tag d.heap.length
  simp only [add, toNat, List.map_append, List.length_map]
  exact congrArg (DeferredConfirmations.mk _) hinsert

theorem map_modify_toNat {f : DeferredConfirmation UInt64 → DeferredConfirmation UInt64}
    {g : DeferredConfirmation ℕ → DeferredConfirmation ℕ} (h : ∀ dc, g dc.toNat = (f dc).toNat)
    (heap : List (DeferredConfirmation UInt64)) (p : ℕ) :
    (heap.map DeferredConfirmation.toNat).modify p g =
      (heap.modify p f).map DeferredConfirmation.toNat := by
  induction heap generalizing p with
  | nil => simp
  | cons dc heap ih =>
      cases p with
      | zero => simp [h]
      | succ p => simp [ih]

theorem toNat_settle {f : DeferredConfirmation UInt64 → DeferredConfirmation UInt64}
    {g : DeferredConfirmation ℕ → DeferredConfirmation ℕ} (h : ∀ dc, g dc.toNat = (f dc).toNat)
    (p : ℕ) : d.toNat.settle tag.toNat p g = (d.settle tag p f).toNat := by
  simp only [settle, toNat, map_modify_toNat h]
  exact congrArg (DeferredConfirmations.mk _)
    (erase_rename (g := id) toNat_injective d.confirmations tag)

theorem toNat_remove : d.toNat.remove tag.toNat = (d.remove tag).toNat := by
  rw [remove, remove, lookup_toNat]
  split
  · rfl
  · exact toNat_settle d tag (fun _ => rfl) _

theorem toNat_confirm (x : Confirmation UInt64) :
    d.toNat.confirm x.toNat = (d.confirm x).toNat := by
  rw [confirm, confirm, show x.toNat.deliveryTag = x.deliveryTag.toNat from rfl, lookup_toNat]
  split
  · rfl
  · exact toNat_settle d _ (fun _ => rfl) _

/-- The loop over the map, from any state on. -/
theorem toNat_settleAll {selected : UInt64 → Bool} {selected' : ℕ → Bool}
    (h : ∀ tag, selected' tag.toNat = selected tag) (ack : Bool) :
    d.toNat.settleAll selected' ack = (d.settleAll selected ack).toNat := by
  rw [settleAll, settleAll, show d.toNat.confirmations.entries =
    d.confirmations.entries.map (entry UInt64.toNat id) from rfl, List.foldl_map]
  generalize d.confirmations.entries = entries
  induction entries generalizing d with
  | nil => rfl
  | cons e entries ih =>
      have hround : (if selected' e.1.toNat then
            d.toNat.settle e.1.toNat e.2 (DeferredConfirmation.setAck ack) else d.toNat) =
          (if selected e.1 then d.settle e.1 e.2 (DeferredConfirmation.setAck ack)
            else d).toNat := by
        rw [h]
        split
        · exact toNat_settle d e.1 (fun _ => rfl) e.2
        · rfl
      exact (congrArg (fun d => entries.foldl _ d) hround).trans (ih _)

theorem toNat_confirmMultiple (x : Confirmation UInt64) :
    d.toNat.confirmMultiple x.toNat = (d.confirmMultiple x).toNat := by
  apply toNat_settleAll
  intro tag
  simp only [UInt64.le_iff_toNat_le]
  rfl

theorem toNat_close : d.toNat.close = d.close.toNat := toNat_settleAll d (fun _ => rfl) false

end DeferredConfirmations

/-! ## The resequencer -/

namespace Confirms

variable {c c' : Confirms UInt64}

theorem toNat_newConfirms : newConfirms.toNat = newConfirms := rfl

theorem toNat_listen (c : Confirms UInt64) : c.toNat.listen = c.listen.toNat := by
  simp [listen, toNat]

theorem toNat_publish (h : c.published.toNat < 2 ^ 64 - 1) :
    c.toNat.publish.1 = c.publish.1.toNat := by
  have hpublished : (c.published + 1).toNat = c.published.toNat + 1 := toNat_add_one h
  simp only [publish, toNat, hpublished]
  rw [← hpublished, DeferredConfirmations.toNat_add]

theorem toNat_unpublish (h : c.published.toNat ≠ 0) : c.toNat.unpublish = c.unpublish.toNat := by
  have hpublished : (c.published - 1).toNat = c.published.toNat - 1 := by
    apply UInt64.toNat_sub_of_le
    rw [UInt64.le_iff_toNat_le, UInt64.toNat_one]
    omega
  simp only [unpublish, toNat, hpublished, DeferredConfirmations.toNat_remove]

theorem toNat_confirm (h : c.expecting.toNat < 2 ^ 64 - 1) (x : Confirmation UInt64) :
    c.toNat.confirm x.toNat = (c.confirm x).toNat := by
  simp only [confirm, toNat, toNat_add_one h, List.map_map, erase_rename]
  congr 1
  simp [Function.comp_def]

theorem lookup_toNat (c : Confirms UInt64) :
    c.toNat.sequencer.lookup c.toNat.expecting =
      (c.sequencer.lookup c.expecting).map Confirmation.toNat :=
  lookup_rename toNat_injective c.sequencer c.expecting

theorem toNat_oneHead {x : Confirmation UInt64} (h : x.deliveryTag.toNat < 2 ^ 64 - 1) :
    c.toNat.oneHead x.toNat = (c.oneHead x).toNat := by
  have hdefer : ({ c.toNat with
        deferredConfirmations := c.toNat.deferredConfirmations.confirm x.toNat } : Confirms ℕ) =
      Confirms.toNat { c with deferredConfirmations := c.deferredConfirmations.confirm x } :=
    congrArg (fun d => { c.toNat with deferredConfirmations := d })
      (DeferredConfirmations.toNat_confirm _ x)
  rw [oneHead, oneHead, hdefer]
  generalize ({ c with deferredConfirmations := c.deferredConfirmations.confirm x } :
    Confirms UInt64) = c
  by_cases htag : c.expecting = x.deliveryTag
  · have htag' : c.toNat.expecting = x.toNat.deliveryTag := congrArg UInt64.toNat htag
    rw [if_pos htag, if_pos htag']
    exact toNat_confirm (by rw [htag]; exact h) x
  · have htag' : c.toNat.expecting ≠ x.toNat.deliveryTag := fun heq => htag (toNat_injective heq)
    rw [if_neg htag, if_neg htag']
    exact congrArg (fun m => { c.toNat with sequencer := m })
      (insert_rename toNat_injective c.sequencer x.deliveryTag x)

theorem toNat_multipleLoop {x : Confirmation UInt64} (h : x.deliveryTag.toNat < 2 ^ 64 - 1)
    (rounds : ℕ) (c : Confirms UInt64) :
    multipleLoop rounds c.toNat x.toNat = (multipleLoop rounds c x).map toNat := by
  induction rounds generalizing c with
  | zero => rfl
  | succ rounds ih =>
      have hiff : c.expecting ≤ x.deliveryTag ↔ c.toNat.expecting ≤ x.toNat.deliveryTag :=
        UInt64.le_iff_toNat_le
      rw [multipleLoop, multipleLoop]
      by_cases hle : c.expecting ≤ x.deliveryTag
      · have hlast : c.expecting.toNat < 2 ^ 64 - 1 := Nat.lt_of_le_of_lt (hiff.mp hle) h
        rw [if_pos hle, if_pos (hiff.mp hle), ← ih, ← toNat_confirm hlast]
        rfl
      · rw [if_neg hle, if_neg fun hle' => hle (hiff.mpr hle')]
        rfl

theorem toNat_multipleHead {x : Confirmation UInt64} (h : x.deliveryTag.toNat < 2 ^ 64 - 1)
    (rounds : ℕ) (c : Confirms UInt64) :
    c.toNat.multipleHead rounds x.toNat = (c.multipleHead rounds x).map toNat := by
  rw [multipleHead, multipleHead, ← toNat_multipleLoop h]
  exact congrArg (fun d => multipleLoop rounds { c.toNat with deferredConfirmations := d } x.toNat)
    (DeferredConfirmations.toNat_confirmMultiple _ x)

theorem toNat_close (c : Confirms UInt64) : c.toNat.close = c.close.toNat := by
  simp only [close, toNat, DeferredConfirmations.toNat_close, List.map_append, List.map_nil]

end Confirms

def TagConfirm.toNat : TagConfirm → ServerConfirm
  | one confirmed => .one confirmed.toNat
  | multiple confirmed => .multiple confirmed.toNat

theorem TagConfirm.toNat_head {e : TagConfirm} (h : e.deliveryTag.toNat < 2 ^ 64 - 1)
    (c : Confirms UInt64) : e.toNat.head c.toNat = (e.head c).map Confirms.toNat := by
  cases e with
  | one confirmed => exact congrArg some (Confirms.toNat_oneHead h)
  | multiple confirmed => exact Confirms.toNat_multipleHead h _ c

/-- Below the largest tag `Multiple` ends, as it does where tags do not wrap around. -/
theorem TagConfirm.head_terminates {e : TagConfirm} (h : e.deliveryTag ≠ lastTag)
    (c : Confirms UInt64) : ∃ c', e.head c = some c' := by
  obtain ⟨d, hd⟩ := ConfirmState.head_terminates c.toNat e.toNat
  rw [toNat_head (Confirms.ne_lastTag_iff.mp h)] at hd
  obtain ⟨c', hc', -⟩ := Option.map_eq_some_iff.mp hd
  exact ⟨c', hc'⟩

end Amqp091

import Amqp091.Verification.Confirms.Machine
import Mathlib.Order.Bounds.Basic

/-! # Confirmations reach the listeners in order -/

namespace Amqp091

open Transition

/-- The resequencer between two confirmations, for a set `Conf` of confirmed tags. Tags
from `expecting` up to `m` are being delivered without having been stored. -/
structure Sequencing (Conf : ℕ → Prop) (m : ℕ) (c : Confirms ℕ) : Prop where
  pos : 1 ≤ c.expecting
  range : ∀ t, Conf t → 1 ≤ t ∧ t ≤ c.published
  delivered : ∀ t, 1 ≤ t → t < c.expecting → Conf t
  delivering : ∀ t, c.expecting ≤ t → t ≤ m → Conf t
  stored : ∀ t, m < t → c.expecting ≤ t → Conf t → t ∈ c.sequencer
  sound : ∀ t, t ∈ c.sequencer → Conf t
  tags : ∀ t sequenced, c.sequencer.lookup t = some sequenced → sequenced.deliveryTag = t

namespace Sequencing

variable {Conf : ℕ → Prop} {m : ℕ} {c : Confirms ℕ}

/-- Delivering the expected tag, once it is confirmed, moves on to the next one. -/
theorem confirm (h : Sequencing Conf m c) (hconf : Conf c.expecting)
    (confirmation : Confirmation ℕ) : Sequencing Conf m (c.confirm confirmation) where
  pos := Nat.le_add_left 1 _
  range := h.range
  delivered := by
    intro t ht hlt
    rcases Nat.lt_succ_iff_lt_or_eq.mp hlt with hlt | rfl
    · exact h.delivered t ht hlt
    · exact hconf
  delivering := fun t hle => h.delivering t (Nat.le_of_succ_le hle)
  stored := by
    intro t hm hle ht
    have hlt : c.expecting < t := hle
    exact AList.mem_erase.mpr ⟨hlt.ne', h.stored t hm hlt.le ht⟩
  sound := fun t ht => h.sound t (AList.mem_erase.mp ht).2
  tags := by
    intro t sequenced hfound
    rw [Confirms.confirm_sequencer] at hfound
    by_cases heq : t = c.expecting
    · rw [heq, AList.lookup_erase] at hfound
      cases hfound
    · rw [AList.lookup_erase_ne heq] at hfound
      exact h.tags t sequenced hfound

theorem publish (h : Sequencing Conf m c) : Sequencing Conf m c.publish.1 :=
  { h with range := fun t ht => ⟨(h.range t ht).1, (h.range t ht).2.trans (Nat.le_succ _)⟩ }

/-- A tag that is stored is confirmed. -/
theorem of_lookup (h : Sequencing Conf m c) {t : ℕ} {sequenced : Confirmation ℕ}
    (hfound : c.sequencer.lookup t = some sequenced) : Conf t :=
  h.sound t (AList.lookup_isSome.mp (by rw [hfound]; rfl))

theorem resequence (h : Sequencing Conf m c) : Sequencing Conf m c.resequence := by
  refine Confirms.resequence_induction (P := Sequencing Conf m) ?_ c h
  intro c sequenced hc _ hfound
  exact hc.confirm (hc.of_lookup hfound) sequenced

/-- Behind `resequence` the expected tag is not confirmed. -/
theorem not_confirmed_resequence (h : Sequencing Conf m c) (hm : m < c.resequence.expecting) :
    ¬ Conf c.resequence.expecting := by
  intro hconf
  have hstop := Confirms.resequence_stops c (h.resequence.range _ hconf).2
  exact AList.lookup_eq_none.mp hstop (h.resequence.stored _ hm le_rfl hconf)

/-- Behind the tags being delivered nothing is in between any more. -/
theorem settled (h : Sequencing Conf m c) (hm : m < c.expecting) : Sequencing Conf 0 c :=
  { h with
    delivering := by
      intro t hle ht
      have hpos := h.pos
      omega
    stored := fun t _ hle => h.stored t (hm.trans_le hle) hle }

/-- New confirmed tags, of which those up to `m` are about to be delivered. -/
theorem extend {Conf' : ℕ → Prop} {d : DeferredConfirmations ℕ} (h : Sequencing Conf 0 c)
    (hmono : ∀ t, Conf t → Conf' t) (hrange : ∀ t, Conf' t → 1 ≤ t ∧ t ≤ c.published)
    (hupto : ∀ t, c.expecting ≤ t → t ≤ m → Conf' t)
    (habove : ∀ t, m < t → c.expecting ≤ t → Conf' t → Conf t) :
    Sequencing Conf' m { c with deferredConfirmations := d } where
  pos := h.pos
  range := hrange
  delivered := fun t ht hlt => hmono t (h.delivered t ht hlt)
  delivering := hupto
  stored := by
    intro t hm hle ht
    exact h.stored t (h.pos.trans hle) hle (habove t hm hle ht)
  sound := fun t ht => hmono t (h.sound t ht)
  tags := h.tags

/-- Storing a confirmation makes its tag one of the confirmed ones. -/
theorem insert {Conf' : ℕ → Prop} {confirmed : Confirmation ℕ} (h : Sequencing Conf 0 c)
    (hconf : ∀ t, Conf' t ↔ Conf t ∨ t = confirmed.deliveryTag)
    (hrange : 1 ≤ confirmed.deliveryTag ∧ confirmed.deliveryTag ≤ c.published) :
    Sequencing Conf' 0
      { c with sequencer := c.sequencer.insert confirmed.deliveryTag confirmed } where
  pos := h.pos
  range := by
    intro t ht
    rcases (hconf t).mp ht with ht | rfl
    · exact h.range t ht
    · exact hrange
  delivered := fun t ht hlt => (hconf t).mpr (.inl (h.delivered t ht hlt))
  delivering := by
    intro t hle ht
    have hpos : 1 ≤ c.expecting := h.pos
    have hle' : c.expecting ≤ t := hle
    omega
  stored := by
    intro t hm hle ht
    rw [AList.mem_insert]
    rcases (hconf t).mp ht with ht | rfl
    · exact .inr (h.stored t hm hle ht)
    · exact .inl rfl
  sound := by
    intro t ht
    rw [AList.mem_insert] at ht
    rcases ht with rfl | ht
    · exact (hconf _).mpr (.inr rfl)
    · exact (hconf t).mpr (.inl (h.sound t ht))
  tags := by
    intro t sequenced hfound
    by_cases heq : t = confirmed.deliveryTag
    · rw [heq, AList.lookup_insert] at hfound
      cases hfound
      exact heq.symm
    · rw [AList.lookup_insert_ne heq] at hfound
      exact h.tags t sequenced hfound

end Sequencing

/-- How the first part of `One` and `Multiple` treats a property `P`: it is kept by
delivering an expected tag the confirmation covers, or by storing its tag. -/
theorem head_induction {Conf : ℕ → Prop} {c c' : Confirms ℕ} {e : ServerConfirm}
    {P : Confirms ℕ → Prop} (hseq : Sequencing Conf 0 c)
    (hrange : ∀ t, e.Covers t → 1 ≤ t ∧ t ≤ c.published) (hhead : e.head c = some c')
    (hinit : ∀ d, P { c with deferredConfirmations := d })
    (hdeliver : ∀ c, P c → e.Covers c.expecting →
      P (c.confirm ⟨c.expecting, e.confirmed.ack⟩))
    (hstore : ∀ d confirmed, e = .one confirmed → c.expecting ≠ confirmed.deliveryTag →
      P { c with
          deferredConfirmations := d
          sequencer := c.sequencer.insert confirmed.deliveryTag confirmed }) :
    P c' ∧ Sequencing (fun t => Conf t ∨ e.Covers t) 0 c' := by
  have hrange' : ∀ t, Conf t ∨ e.Covers t → 1 ≤ t ∧ t ≤ c.published := by
    rintro t (ht | ht)
    · exact hseq.range t ht
    · exact hrange t ht
  cases e with
  | one confirmed =>
      obtain ⟨tag, ack⟩ := confirmed
      cases hhead
      by_cases htag : c.expecting = tag
      · subst htag
        rw [Confirms.oneHead_of_eq]
        have hext := hseq.extend (m := c.expecting)
          (d := c.deferredConfirmations.confirm ⟨c.expecting, ack⟩)
          (fun t ht => .inl ht) hrange'
          (fun t hle hm => .inr (le_antisymm hm hle))
          (fun t hm _ ht => ht.resolve_right hm.ne')
        refine ⟨hdeliver _ (hinit _) rfl, ?_⟩
        exact (hext.confirm (.inr rfl) _).settled (Nat.lt_succ_self _)
      · rw [Confirms.oneHead_of_ne htag]
        refine ⟨hstore _ ⟨tag, ack⟩ rfl htag, ?_⟩
        have hext := hseq.extend (m := 0) (d := c.deferredConfirmations.confirm ⟨tag, ack⟩)
          (fun t ht => ht) hseq.range hseq.delivering (fun t _ _ ht => ht)
        exact hext.insert (fun t => Iff.rfl) (hrange _ rfl)
  | multiple confirmed =>
      have hext := hseq.extend (m := confirmed.deliveryTag)
        (d := c.deferredConfirmations.confirmMultiple confirmed)
        (fun t ht => .inl ht) hrange'
        (fun t hle hm => .inr ⟨hseq.pos.trans hle, hm⟩)
        (fun t hm _ ht => ht.resolve_right fun hcov => absurd hcov.2 (Nat.not_le.mpr hm))
      obtain ⟨⟨hP, hS⟩, hgt⟩ := Confirms.multipleLoop_induction
        (P := fun c => P c ∧
          Sequencing (fun t => Conf t ∨ (ServerConfirm.multiple confirmed).Covers t)
            confirmed.deliveryTag c)
        (fun c ⟨hP, hS⟩ hle => ⟨hdeliver c hP ⟨hS.pos, hle⟩, hS.confirm (.inr ⟨hS.pos, hle⟩) _⟩)
        ⟨hinit _, hext⟩ hhead
      exact ⟨hP, hS.settled (Nat.lt_of_not_le hgt)⟩

/-- The first `n` listeners have received the tags below the expected one, in order, and
nothing below it is stored. -/
structure Delivered (n : ℕ) (c : Confirms ℕ) : Prop where
  registered : n ≤ c.listeners.length
  logs : ∀ log ∈ c.listeners.take n,
    log.map Confirmation.deliveryTag = List.range' 1 (c.expecting - 1)
  fresh : ∀ t, t ∈ c.sequencer → c.expecting ≤ t

namespace Delivered

variable {n : ℕ} {c : Confirms ℕ}

theorem confirm (h : Delivered n c) (hpos : 1 ≤ c.expecting) {confirmation : Confirmation ℕ}
    (htag : confirmation.deliveryTag = c.expecting) : Delivered n (c.confirm confirmation) where
  registered := by simpa using h.registered
  logs := by
    intro log hlog
    rw [Confirms.confirm_listeners, ← List.map_take] at hlog
    obtain ⟨old, hold, rfl⟩ := List.mem_map.mp hlog
    obtain ⟨e, he⟩ := Nat.exists_eq_add_of_le hpos
    rw [List.map_append, h.logs old hold, Confirms.confirm_expecting, List.map_singleton, htag, he]
    simp [Nat.add_comm 1 e, List.range'_1_concat]
  fresh := by
    intro t ht
    obtain ⟨hne, ht⟩ := AList.mem_erase.mp ht
    exact Nat.lt_of_le_of_ne (h.fresh t ht) hne.symm

theorem resequence {Conf : ℕ → Prop} {m : ℕ} (h : Delivered n c) (hseq : Sequencing Conf m c) :
    Delivered n c.resequence := by
  refine (Confirms.resequence_induction
    (P := fun c => Delivered n c ∧ Sequencing Conf m c) ?_ c ⟨h, hseq⟩).1
  rintro c sequenced ⟨hc, hs⟩ _ hfound
  exact ⟨hc.confirm hs.pos (hs.tags _ _ hfound), hs.confirm (hs.of_lookup hfound) sequenced⟩

end Delivered

namespace ConfirmState

/-- `One` for published tags that are not confirmed yet, `Multiple` for published tags. -/
def WellBehaved (s : ConfirmState) : ConfirmAction → Prop
  | .confirm (.one confirmed) =>
      1 ≤ confirmed.deliveryTag ∧ confirmed.deliveryTag ≤ s.confirms.published ∧
        ¬ s.Confirmed confirmed.deliveryTag
  | .confirm (.multiple confirmed) => confirmed.deliveryTag ≤ s.confirms.published
  | _ => True

theorem WellBehaved.range {s : ConfirmState} {e : ServerConfirm}
    (h : s.WellBehaved (.confirm e)) (t : ℕ) (ht : e.Covers t) :
    1 ≤ t ∧ t ≤ s.confirms.published := by
  cases e with
  | one confirmed =>
      cases ht
      exact ⟨h.1, h.2.1⟩
  | multiple confirmed => exact ⟨ht.1, ht.2.trans h⟩

structure InOrder (n : ℕ) (s : ConfirmState) : Prop where
  sequencing : Sequencing s.Confirmed 0 s.confirms
  delivered : Delivered n s.confirms
  maximal : s.busy = false → ¬ s.Confirmed s.confirms.expecting

theorem inOrder_start (n : ℕ) : InOrder n (start n) where
  sequencing := by
    constructor <;> simp [start, Confirms.newConfirms, Confirmed, Nat.one_le_iff_ne_zero]
  delivered := by
    refine ⟨by simp [start], ?_, by simp [start, Confirms.newConfirms]⟩
    intro log hlog
    rw [List.eq_of_mem_replicate (List.mem_of_mem_take hlog)]
    rfl
  maximal := by simp [start, Confirmed]

theorem InOrder.head {n : ℕ} {s : ConfirmState} {e : ServerConfirm} {c : Confirms ℕ}
    (h : InOrder n s) (hguard : s.WellBehaved (.confirm e))
    (hhead : e.head s.confirms = some c) : InOrder n ⟨c, true, s.history ++ [e]⟩ := by
  have hconf : Confirmed ⟨c, true, s.history ++ [e]⟩ = fun t => s.Confirmed t ∨ e.Covers t :=
    funext fun t => propext confirmed_append
  obtain ⟨⟨hpos, hdelivered⟩, hseq⟩ := head_induction
    (P := fun c => 1 ≤ c.expecting ∧ Delivered n c) h.sequencing hguard.range hhead
    (fun d => ⟨h.sequencing.pos, { h.delivered with }⟩)
    (fun c hc _ => ⟨Nat.le_add_left 1 _, hc.2.confirm hc.1 rfl⟩)
    (fun d confirmed hone _ => ⟨h.sequencing.pos, { h.delivered with
      fresh := by
        subst hone
        intro t ht
        rw [AList.mem_insert] at ht
        rcases ht with rfl | ht
        · -- the tags below the expected one are all confirmed, and this one was not
          by_contra hlt
          exact hguard.2.2 (h.sequencing.delivered _ hguard.1 (Nat.lt_of_not_le hlt))
        · exact h.delivered.fresh t ht }⟩)
  exact ⟨hconf ▸ hseq, hdelivered, fun hb => by cases hb⟩

theorem InOrder.step {n : ℕ} {s s' : ConfirmState} {a : ConfirmAction} (h : InOrder n s)
    (hguard : s.WellBehaved a) (hnext : s.next a = some s') : InOrder n s' := by
  obtain ⟨rfl, hbusy, rfl⟩ | ⟨rfl, rfl⟩ | ⟨e, c, rfl, -, hhead, rfl⟩ | ⟨rfl, hbusy, rfl⟩ :=
    next_cases hnext
  · refine ⟨{ h.sequencing with }, { h.delivered with registered := ?_, logs := ?_ }, h.maximal⟩
    · exact h.delivered.registered.trans (by simp [Confirms.listen])
    · simpa [Confirms.listen, List.take_append_of_le_length h.delivered.registered]
        using h.delivered.logs
  · exact ⟨h.sequencing.publish, { h.delivered with }, h.maximal⟩
  · exact h.head hguard hhead
  · have hseq := h.sequencing.resequence
    exact ⟨hseq, h.delivered.resequence h.sequencing,
      fun _ => h.sequencing.not_confirmed_resequence hseq.pos⟩

/-- Every listener registered at the start has received the tags below `expecting`, once
each and in order. When no `One` or `Multiple` is under way these are as many as the
confirmations allow. The sequencer holds the confirmed tags that are left. -/
theorem listeners_receive_in_order {n : ℕ} {as : List ConfirmAction} {s : ConfirmState}
    (h : Run next WellBehaved (start n) as s) :
    (n ≤ s.confirms.listeners.length ∧ ∀ log ∈ s.confirms.listeners.take n,
      log.map Confirmation.deliveryTag = List.range' 1 (s.confirms.expecting - 1)) ∧
    (s.busy = false →
      IsGreatest {m | ∀ t, 1 ≤ t → t ≤ m → s.Confirmed t} (s.confirms.expecting - 1)) ∧
    ∀ t, t ∈ s.confirms.sequencer.keys ↔ s.Confirmed t ∧ s.confirms.expecting ≤ t := by
  have hinv : InOrder n s :=
    h.invariant (inOrder_start n) fun s a s' hs hguard hnext => hs.step hguard hnext
  have hpos := hinv.sequencing.pos
  refine ⟨⟨hinv.delivered.registered, hinv.delivered.logs⟩, fun hbusy => ⟨?_, ?_⟩, fun t => ?_⟩
  · intro t ht hle
    exact hinv.sequencing.delivered t ht (by omega)
  · intro m hm
    by_contra hlt
    exact hinv.maximal hbusy (hm _ hpos (by omega))
  · rw [← AList.mem_keys]
    constructor
    · intro ht
      exact ⟨hinv.sequencing.sound t ht, hinv.delivered.fresh t ht⟩
    · rintro ⟨ht, hle⟩
      exact hinv.sequencing.stored t (hpos.trans hle) hle ht

/-- Two publishings whose confirmations arrive in the reverse order. -/
theorem listeners_receive_in_order_reversed :
    ∃ s, Run next WellBehaved (start 1)
        [.publish, .publish, .confirm (.one ⟨2, true⟩), .resequence,
          .confirm (.one ⟨1, true⟩), .resequence] s ∧
      s.confirms.expecting = 3 ∧ ∀ log ∈ s.confirms.listeners.take 1,
        log.map Confirmation.deliveryTag = [1, 2] := by
  have hrun : ∃ s, Run next WellBehaved (start 1)
      [.publish, .publish, .confirm (.one ⟨2, true⟩), .resequence,
        .confirm (.one ⟨1, true⟩), .resequence] s ∧ s.confirms.expecting = 3 := by
    refine ⟨_, .cons trivial rfl (.cons trivial rfl (.cons ?_ rfl (.cons trivial rfl
      (.cons ?_ rfl (.cons trivial rfl (.nil _)))))), rfl⟩
    · exact ⟨by decide, by decide, by simp [Confirmed, start]⟩
    · exact ⟨by decide, by decide, by simp [Confirmed, start, ServerConfirm.Covers]⟩
  obtain ⟨s, h, hexpecting⟩ := hrun
  have hlogs := (listeners_receive_in_order h).1.2
  rw [hexpecting] at hlogs
  exact ⟨s, h, hexpecting, hlogs⟩

end ConfirmState

end Amqp091

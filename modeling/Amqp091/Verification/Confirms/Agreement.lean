import Amqp091.Verification.Confirms.Resequencing

/-! # Agreement on the outcome of a publishing

A listener, the deferred confirmation and the server each know an outcome for a tag.
They agree as long as no confirmation contradicts one that is stored but not delivered. -/

namespace Amqp091

open Positions Transition

/-! ## The first confirmation of a tag -/

def firstAck (history : List ServerConfirm) (t : ℕ) : Option Bool :=
  (history.find? fun e => e.Covers t).map fun e => e.confirmed.ack

theorem firstAck_append (history : List ServerConfirm) (e : ServerConfirm) (t : ℕ) :
    firstAck (history ++ [e]) t =
      (firstAck history t).or (if e.Covers t then some e.confirmed.ack else none) := by
  simp only [firstAck, List.find?_append]
  cases hfind : history.find? fun e => e.Covers t with
  | none =>
      by_cases hcov : e.Covers t
      · simp [hcov]
      · simp [hcov]
  | some e' => simp

theorem firstAck_isSome {history : List ServerConfirm} {t : ℕ} :
    (firstAck history t).isSome ↔ ∃ e ∈ history, e.Covers t := by
  simp [firstAck]

/-- The first confirmation of a tag stays the first. -/
theorem firstAck_append_of_some {history : List ServerConfirm} {e : ServerConfirm} {t : ℕ}
    {ack : Bool} (h : firstAck history t = some ack) :
    firstAck (history ++ [e]) t = some ack := by
  rw [firstAck_append, h, Option.some_or]

theorem firstAck_append_of_covers {history : List ServerConfirm} {e : ServerConfirm} {t : ℕ}
    (h : ¬ ∃ e ∈ history, e.Covers t) (hcov : e.Covers t) :
    firstAck (history ++ [e]) t = some e.confirmed.ack := by
  have hnone : firstAck history t = none := by
    rw [← Option.not_isSome_iff_eq_none, firstAck_isSome]
    exact h
  rw [firstAck_append, hnone, Option.none_or, if_pos hcov]

/-! ## Deferred confirmations -/

/-- Every publishing has a deferred confirmation. It is pending until the first
confirmation of its tag, whose outcome it takes. `Conf` are the tags confirmed before. -/
structure DeferredAgrees (Conf : ℕ → Prop) (history : List ServerConfirm) (published : ℕ)
    (d : DeferredConfirmations ℕ) : Prop where
  length : d.heap.length = published
  tags : ∀ i dc, d.heap[i]? = some dc → dc.deliveryTag = i + 1
  pending : ∀ t p, d.confirmations.lookup t = some p →
    1 ≤ t ∧ t ≤ published ∧ p + 1 = t ∧ ¬ Conf t
  resolved : ∀ i dc, d.heap[i]? = some dc → d.confirmations.lookup (i + 1) = none →
    firstAck history (i + 1) = some dc.ack

namespace DeferredAgrees

variable {Conf : ℕ → Prop} {history : List ServerConfirm} {published : ℕ}
  {d : DeferredConfirmations ℕ}

theorem settle (h : DeferredAgrees Conf history published d) {t p : ℕ} {ack : Bool}
    (hp : d.confirmations.lookup t = some p) (hfirst : firstAck history t = some ack) :
    DeferredAgrees Conf history published (d.settle t p (DeferredConfirmation.setAck ack)) where
  length := by simpa using h.length
  tags := by
    intro i dc hdc
    obtain ⟨old, hold, rfl⟩ := DeferredConfirmations.getElem?_settle.mp hdc
    split
    · exact h.tags i old hold
    · exact h.tags i old hold
  pending := fun t' p' hp' => h.pending t' p' (DeferredConfirmations.lookup_settle.mp hp').2
  resolved := by
    intro i dc hdc hnone
    obtain ⟨old, hold, rfl⟩ := DeferredConfirmations.getElem?_settle.mp hdc
    obtain ⟨-, -, rfl, -⟩ := h.pending t p hp
    split
    · rename_i heq
      subst heq
      exact hfirst
    · rename_i hne
      rw [DeferredConfirmations.settle_confirmations,
        AList.lookup_erase_ne (fun heq => hne (Nat.succ_injective heq).symm)] at hnone
      exact h.resolved i old hold hnone

theorem publish (h : DeferredAgrees Conf history published d)
    (hrange : ∀ t, Conf t → t ≤ published) :
    DeferredAgrees Conf history (published + 1) (d.add (published + 1)).1 := by
  have hlookup : ∀ t, (d.add (published + 1)).1.confirmations.lookup t =
      if t = published + 1 then some d.heap.length else d.confirmations.lookup t := by
    intro t
    split
    · rename_i heq
      rw [heq]
      exact AList.lookup_insert _
    · rename_i hne
      exact AList.lookup_insert_ne hne
  have hheap : (d.add (published + 1)).1.heap = d.heap ++ [{ deliveryTag := published + 1 }] := rfl
  refine ⟨by rw [hheap]; simp [h.length], ?_, ?_, ?_⟩
  · intro i dc hdc
    rw [hheap] at hdc
    rcases getElem?_concat_cases hdc with hdc | ⟨rfl, rfl⟩
    · exact h.tags i dc hdc
    · rw [h.length]
  · intro t p hp
    rw [hlookup] at hp
    split at hp
    · rename_i heq
      cases hp
      refine ⟨by omega, heq.le, by rw [h.length, heq], fun ht => ?_⟩
      have := hrange t ht
      omega
    · obtain ⟨h1, h2, h3, h4⟩ := h.pending t p hp
      exact ⟨h1, h2.trans (Nat.le_succ _), h3, h4⟩
  · intro i dc hdc hnone
    rw [hlookup] at hnone
    split at hnone
    · cases hnone
    · rename_i hne
      rw [hheap, List.getElem?_append_left] at hdc
      · exact h.resolved i dc hdc hnone
      · have hlt := (List.getElem?_eq_some_iff.mp hdc).1
        rw [List.length_append, List.length_singleton] at hlt
        have hlen := h.length
        omega

/-- A server confirmation settles the covered tags that nothing has confirmed before. -/
theorem defer (h : DeferredAgrees (fun t => ∃ e ∈ history, e.Covers t) history published d)
    (e : ServerConfirm) :
    DeferredAgrees (fun t => ∃ e' ∈ history ++ [e], e'.Covers t) (history ++ [e]) published
      (e.defer d) := by
  have hsettled : DeferredAgrees (fun t => ∃ e ∈ history, e.Covers t) (history ++ [e])
      published (e.defer d) := by
    refine e.defer_induction (fun d t p hd hcov hp => hd.settle hp ?_) d
      { h with resolved := fun i dc hdc hnone =>
          firstAck_append_of_some (h.resolved i dc hdc hnone) }
    obtain ⟨ht, -, -, hconf⟩ := hd.pending t p hp
    exact firstAck_append_of_covers hconf (hcov ht)
  refine { hsettled with pending := fun t p hp => ?_ }
  obtain ⟨h1, h2, h3, hconf⟩ := hsettled.pending t p hp
  refine ⟨h1, h2, h3, ?_⟩
  rintro ⟨e', he', hcov⟩
  rcases List.mem_append.mp he' with he' | he'
  · exact hconf ⟨e', he', hcov⟩
  · rw [List.mem_singleton.mp he'] at hcov
    exact ServerConfirm.lookup_defer hp hcov

end DeferredAgrees

/-! ## Listeners -/

/-- What was delivered, and what is stored to be delivered, has the first outcome. -/
structure ListenersAgree (history : List ServerConfirm) (c : Confirms ℕ) : Prop where
  delivered : ∀ log ∈ c.listeners, ∀ confirmation ∈ log,
    firstAck history confirmation.deliveryTag = some confirmation.ack
  stored : ∀ t sequenced, c.sequencer.lookup t = some sequenced → c.expecting ≤ t →
    firstAck history t = some sequenced.ack

namespace ListenersAgree

variable {history : List ServerConfirm} {c : Confirms ℕ}

theorem confirm (h : ListenersAgree history c) {confirmation : Confirmation ℕ}
    (hfirst : firstAck history confirmation.deliveryTag = some confirmation.ack) :
    ListenersAgree history (c.confirm confirmation) where
  delivered := by
    intro log hlog
    obtain ⟨old, hold, rfl⟩ := List.mem_map.mp hlog
    intro x hx
    rcases List.mem_append.mp hx with hx | hx
    · exact h.delivered old hold x hx
    · rw [List.mem_singleton.mp hx]
      exact hfirst
  stored := by
    intro t sequenced hfound hle
    have hlt : c.expecting < t := hle
    rw [Confirms.confirm_sequencer, AList.lookup_erase_ne hlt.ne'] at hfound
    exact h.stored t sequenced hfound hlt.le

theorem resequence {Conf : ℕ → Prop} {m : ℕ} (h : ListenersAgree history c)
    (hseq : Sequencing Conf m c) : ListenersAgree history c.resequence := by
  refine (Confirms.resequence_induction
    (P := fun c => ListenersAgree history c ∧ Sequencing Conf m c) ?_ c ⟨h, hseq⟩).1
  rintro c sequenced ⟨hc, hs⟩ _ hfound
  refine ⟨hc.confirm ?_, hs.confirm (hs.of_lookup hfound) sequenced⟩
  rw [hs.tags _ _ hfound]
  exact hc.stored _ _ hfound le_rfl

theorem insert (h : ListenersAgree history c) {confirmed : Confirmation ℕ}
    (hfirst : c.expecting ≤ confirmed.deliveryTag →
      firstAck history confirmed.deliveryTag = some confirmed.ack) :
    ListenersAgree history
      { c with sequencer := c.sequencer.insert confirmed.deliveryTag confirmed } where
  delivered := h.delivered
  stored := by
    intro t sequenced hfound hle
    by_cases heq : t = confirmed.deliveryTag
    · subst heq
      rw [AList.lookup_insert] at hfound
      cases hfound
      exact hfirst hle
    · rw [AList.lookup_insert_ne heq] at hfound
      exact h.stored t sequenced hfound hle

end ListenersAgree

namespace ConfirmState

/-- The server confirms published tags only. -/
def Published (s : ConfirmState) : ConfirmAction → Prop
  | .confirm e => e.confirmed.deliveryTag ≤ s.confirms.published ∧
      ∀ t, e.Covers t → 1 ≤ t
  | _ => True

theorem Published.range {s : ConfirmState} {e : ServerConfirm} (h : s.Published (.confirm e))
    (t : ℕ) (ht : e.Covers t) : 1 ≤ t ∧ t ≤ s.confirms.published := by
  refine ⟨h.2 t ht, ?_⟩
  cases e with
  | one confirmed =>
      cases ht
      exact h.1
  | multiple confirmed => exact ht.2.trans h.1

/-- A confirmation repeats the outcome of every covered tag that is stored and not
delivered yet. -/
def Consistent (s : ConfirmState) : ConfirmAction → Prop
  | .confirm e => ∀ t sequenced, e.Covers t → s.confirms.expecting ≤ t →
      s.confirms.sequencer.lookup t = some sequenced → sequenced.ack = e.confirmed.ack
  | _ => True

/-- For every delivered tag the listener, the deferred confirmation and the first
confirmation by the server have one outcome. -/
def Agrees (s : ConfirmState) : Prop :=
  ∀ log ∈ s.confirms.listeners, ∀ confirmation ∈ log,
    firstAck s.history confirmation.deliveryTag = some confirmation.ack ∧
    (∃ dc ∈ s.confirms.deferredConfirmations.heap,
      dc.deliveryTag = confirmation.deliveryTag) ∧
    ∀ dc ∈ s.confirms.deferredConfirmations.heap,
      dc.deliveryTag = confirmation.deliveryTag → dc.ack = confirmation.ack

structure Agreeing (s : ConfirmState) : Prop where
  sequencing : Sequencing s.Confirmed 0 s.confirms
  listeners : ListenersAgree s.history s.confirms
  deferred : DeferredAgrees s.Confirmed s.history s.confirms.published
    s.confirms.deferredConfirmations

theorem agreeing_start (n : ℕ) : Agreeing (start n) where
  sequencing := (inOrder_start n).sequencing
  listeners := by
    refine ⟨fun log hlog => ?_, by simp [start, Confirms.newConfirms]⟩
    rw [List.eq_of_mem_replicate hlog]
    simp
  deferred := by
    constructor <;> simp [start, Confirms.newConfirms]

/-- A consistent confirmation is the first one of each tag it delivers, or repeats it. -/
theorem Agreeing.firstAck_covered {s : ConfirmState} {e : ServerConfirm} (h : Agreeing s)
    (hguard : s.Consistent (.confirm e)) {t : ℕ} (hcov : e.Covers t)
    (hle : s.confirms.expecting ≤ t) :
    firstAck (s.history ++ [e]) t = some e.confirmed.ack := by
  by_cases hconf : s.Confirmed t
  · have hmem := h.sequencing.stored t (h.sequencing.pos.trans hle) hle hconf
    obtain ⟨sequenced, hfound⟩ := Option.isSome_iff_exists.mp (AList.lookup_isSome.mpr hmem)
    rw [← hguard t sequenced hcov hle hfound]
    exact firstAck_append_of_some (h.listeners.stored t sequenced hfound hle)
  · exact firstAck_append_of_covers hconf hcov

theorem Agreeing.head {s : ConfirmState} {e : ServerConfirm} {c : Confirms ℕ}
    (h : Agreeing s) (hpublished : s.Published (.confirm e))
    (hconsistent : s.Consistent (.confirm e)) (hhead : e.head s.confirms = some c) :
    Agreeing ⟨c, true, s.history ++ [e]⟩ := by
  have hconf : Confirmed ⟨c, true, s.history ++ [e]⟩ = fun t => s.Confirmed t ∨ e.Covers t :=
    funext fun t => propext confirmed_append
  have hold : ListenersAgree (s.history ++ [e]) s.confirms :=
    ⟨fun log hlog x hx => firstAck_append_of_some (h.listeners.delivered log hlog x hx),
      fun t x hx hle => firstAck_append_of_some (h.listeners.stored t x hx hle)⟩
  -- while tags are delivered the expected one only grows
  obtain ⟨⟨-, hpub, hlisteners⟩, hseq⟩ := head_induction
    (P := fun c => s.confirms.expecting ≤ c.expecting ∧
      c.published = s.confirms.published ∧ ListenersAgree (s.history ++ [e]) c)
    h.sequencing hpublished.range hhead
    (fun d => ⟨le_rfl, rfl, { hold with }⟩)
    (fun c ⟨hle, hpub, hc⟩ hcov => ⟨hle.trans (Nat.le_succ _), hpub,
      hc.confirm (h.firstAck_covered hconsistent hcov hle)⟩)
    (fun d confirmed hone hne => ⟨le_rfl, rfl,
      ({ hold with } : ListenersAgree _ { s.confirms with deferredConfirmations := d }).insert
        fun hle => by
          subst hone
          exact h.firstAck_covered hconsistent rfl hle⟩)
  refine ⟨hconf ▸ hseq, hlisteners, ?_⟩
  rw [hpub, (ServerConfirm.head_deferred hhead).1]
  exact h.deferred.defer e

theorem Agreeing.step {s s' : ConfirmState} {a : ConfirmAction} (h : Agreeing s)
    (hguard : s.Published a ∧ s.Consistent a) (hnext : s.next a = some s') : Agreeing s' := by
  obtain ⟨rfl, -, rfl⟩ | ⟨rfl, rfl⟩ | ⟨e, c, rfl, -, hhead, rfl⟩ | ⟨rfl, -, rfl⟩ :=
    next_cases hnext
  · refine ⟨{ h.sequencing with }, { h.listeners with delivered := ?_ }, { h.deferred with }⟩
    intro log hlog
    rcases List.mem_append.mp hlog with hlog | hlog
    · exact h.listeners.delivered log hlog
    · rw [List.mem_singleton.mp hlog]
      simp
  · refine ⟨h.sequencing.publish, { h.listeners with }, ?_⟩
    exact h.deferred.publish fun t ht => (h.sequencing.range t ht).2
  · exact h.head hguard.1 hguard.2 hhead
  · refine ⟨h.sequencing.resequence, h.listeners.resequence h.sequencing, ?_⟩
    obtain ⟨hdeferred, hpub⟩ := Confirms.resequence_deferred s.confirms
    rw [hdeferred, hpub]
    exact h.deferred

theorem Agreeing.agrees {s : ConfirmState} (h : Agreeing s) : s.Agrees := by
  intro log hlog confirmation hmem
  have hfirst := h.listeners.delivered log hlog confirmation hmem
  have hconf : s.Confirmed confirmation.deliveryTag :=
    firstAck_isSome.mp (by rw [hfirst]; rfl)
  obtain ⟨hpos, hle⟩ := h.sequencing.range _ hconf
  obtain ⟨i, hi⟩ := Nat.exists_eq_add_of_le' hpos
  have hnone : s.confirms.deferredConfirmations.confirmations.lookup (i + 1) = none := by
    by_contra hne
    obtain ⟨p, hp⟩ := Option.ne_none_iff_exists'.mp hne
    exact (h.deferred.pending _ p hp).2.2.2 (hi ▸ hconf)
  have hlen : i < s.confirms.deferredConfirmations.heap.length := by
    rw [h.deferred.length]
    omega
  refine ⟨hfirst, ⟨_, List.getElem_mem hlen, ?_⟩, ?_⟩
  · rw [h.deferred.tags i _ (List.getElem?_eq_getElem hlen), hi]
  · intro dc hdc htag
    obtain ⟨j, hj⟩ := List.mem_iff_getElem?.mp hdc
    have hij : j = i := by
      have htags := h.deferred.tags j dc hj
      omega
    subst hij
    have hresolved := h.deferred.resolved j dc hj hnone
    rw [← hi, hfirst] at hresolved
    exact (Option.some.inj hresolved).symm

/-- In every run whose confirmations repeat the outcomes that are stored, everybody
agrees on the outcome of every delivered tag. -/
theorem agreement_of_consistent {n : ℕ} {as : List ConfirmAction} {s : ConfirmState}
    (h : Run next (fun s a => s.Published a ∧ s.Consistent a) (start n) as s) : s.Agrees :=
  (h.invariant (agreeing_start n) fun _ _ _ hs hguard hnext => hs.step hguard hnext).agrees

/-- A cumulative nack that spans a tag nacked before. -/
theorem agreement_of_consistent_nacks :
    ∃ s, Run next (fun s a => s.Published a ∧ s.Consistent a) (start 1)
        [.publish, .publish, .confirm (.one ⟨2, false⟩), .resequence,
          .confirm (.multiple ⟨2, false⟩), .resequence] s ∧
      s.confirms.listeners = [[⟨1, false⟩, ⟨2, false⟩]] ∧ s.Agrees := by
  have hrun : ∃ s, Run next (fun s a => s.Published a ∧ s.Consistent a) (start 1)
      [.publish, .publish, .confirm (.one ⟨2, false⟩), .resequence,
        .confirm (.multiple ⟨2, false⟩), .resequence] s ∧
      s.confirms.listeners = [[⟨1, false⟩, ⟨2, false⟩]] := by
    refine ⟨_, .cons ⟨trivial, trivial⟩ rfl (.cons ⟨trivial, trivial⟩ rfl (.cons ⟨?_, ?_⟩ rfl
      (.cons ⟨trivial, trivial⟩ rfl (.cons ⟨?_, ?_⟩ rfl
        (.cons ⟨trivial, trivial⟩ rfl (.nil _)))))), rfl⟩
    · exact ⟨by decide, fun t ht => by cases ht; decide⟩
    · rintro t sequenced rfl - hfound
      cases hfound
    · exact ⟨by decide, fun t ht => ht.1⟩
    · rintro t sequenced ⟨hpos, hle⟩ - hfound
      obtain rfl | rfl : t = 1 ∨ t = 2 := by
        have hle' : t ≤ 2 := hle
        omega
      · cases hfound
      · cases hfound
        rfl
  obtain ⟨s, h, hlisteners⟩ := hrun
  exact ⟨s, h, hlisteners, agreement_of_consistent h⟩

/-- A cumulative ack overtakes a stored nack: the listener is told that tag 2 was acked,
the deferred confirmation and the server say that it was nacked. -/
theorem multiple_overwrites_stored_nack :
    ∃ s, Run next Published (start 1)
        [.publish, .publish, .confirm (.one ⟨2, false⟩), .resequence,
          .confirm (.multiple ⟨2, true⟩), .resequence] s ∧
      s.confirms.listeners = [[⟨1, true⟩, ⟨2, true⟩]] ∧
      s.confirms.deferredConfirmations.heap = [⟨1, true, 1⟩, ⟨2, false, 1⟩] ∧
      firstAck s.history 2 = some false ∧ ¬ s.Agrees := by
  have hrun : ∃ s, Run next Published (start 1)
      [.publish, .publish, .confirm (.one ⟨2, false⟩), .resequence,
        .confirm (.multiple ⟨2, true⟩), .resequence] s ∧
      s.confirms.listeners = [[⟨1, true⟩, ⟨2, true⟩]] ∧
      s.confirms.deferredConfirmations.heap = [⟨1, true, 1⟩, ⟨2, false, 1⟩] ∧
      firstAck s.history 2 = some false := by
    refine ⟨_, .cons trivial rfl (.cons trivial rfl (.cons ?_ rfl (.cons trivial rfl
      (.cons ?_ rfl (.cons trivial rfl (.nil _)))))), rfl, rfl, rfl⟩
    · exact ⟨by decide, fun t ht => by cases ht; decide⟩
    · exact ⟨by decide, fun t ht => ht.1⟩
  obtain ⟨s, h, hlisteners, hheap, hfirst⟩ := hrun
  refine ⟨s, h, hlisteners, hheap, hfirst, fun hagrees => ?_⟩
  have hlog : [⟨1, true⟩, ⟨2, true⟩] ∈ s.confirms.listeners := by
    rw [hlisteners]
    exact List.mem_singleton_self _
  have hack := (hagrees _ hlog ⟨2, true⟩ (by simp)).1
  rw [hfirst] at hack
  cases hack

end ConfirmState

end Amqp091

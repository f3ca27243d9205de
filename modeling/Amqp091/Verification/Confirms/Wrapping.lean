import Amqp091.Verification.Confirms.Tags

/-! # Confirmations of any 64-bit tag

The server may confirm any tag at any time. The loop of `Multiple` compares `expecting`
with the tag, so it does not end for the largest one, and `expecting` goes on to zero
behind it. -/

namespace Amqp091

open Transition

namespace Confirms

section Rounds

variable {τ : Type} [DecidableEq τ] [LE τ] [DecidableLE τ] [Add τ] [OfNat τ 1]

/-- A round removes a key of the sequencer, the last one finds nothing to do. -/
theorem resequenceRounds_eq (c : Confirms τ) :
    resequenceRounds (c.sequencer.keys.length + 1) c = some c.resequence := by
  generalize hlen : c.sequencer.keys.length = n
  induction n generalizing c with
  | zero =>
      have hnil : c.sequencer.keys = [] := List.length_eq_zero_iff.mp hlen
      have hnone : c.sequencer.lookup c.expecting = none := by
        rw [AList.lookup_eq_none, AList.mem_keys, hnil]
        exact List.not_mem_nil
      rw [resequenceRounds, resequence_eq, hnone]
      split <;> rfl
  | succ n ih =>
      rw [resequenceRounds, resequence_eq]
      split
      · cases hfound : c.sequencer.lookup c.expecting with
        | none => rfl
        | some sequenced =>
            have hkeys := length_keys_confirm hfound sequenced
            exact ih (c.confirm sequenced) (by omega)
      · rfl

/-- `One` ends with what the model has for it. -/
theorem one_terminates (c : Confirms τ) (confirmed : Confirmation τ) :
    ∃ rounds, c.one rounds confirmed = some (c.oneHead confirmed).resequence :=
  ⟨_, resequenceRounds_eq (c.oneHead confirmed)⟩

end Rounds

/-- Every tag is at most the largest one. -/
theorem multipleLoop_lastTag {confirmed : Confirmation UInt64}
    (h : confirmed.deliveryTag = lastTag) (rounds : ℕ) (c : Confirms UInt64) :
    multipleLoop rounds c confirmed = none := by
  induction rounds generalizing c with
  | zero => rfl
  | succ rounds ih =>
      have hle : c.expecting ≤ confirmed.deliveryTag := by
        have hlt := c.expecting.toNat_lt
        rw [h, UInt64.le_iff_toNat_le, toNat_lastTag]
        omega
      rw [multipleLoop, if_pos hle]
      exact ih _

/-- `Multiple` ends for every tag but the largest one. -/
theorem multiple_terminates_iff (c : Confirms UInt64) (confirmed : Confirmation UInt64) :
    (∃ rounds rounds' c', c.multiple rounds rounds' confirmed = some c') ↔
      confirmed.deliveryTag ≠ lastTag := by
  constructor
  · rintro ⟨rounds, rounds', c', h⟩ hlast
    rw [multiple, multipleHead, multipleLoop_lastTag hlast] at h
    cases h
  · intro h
    obtain ⟨c', hc'⟩ := TagConfirm.head_terminates (e := .multiple confirmed) h c
    rw [TagConfirm.head] at hc'
    refine ⟨confirmed.deliveryTag.toNat + 1 - c.expecting.toNat + 1,
      c'.sequencer.keys.length + 1, c'.resequence, ?_⟩
    rw [multiple, hc']
    exact resequenceRounds_eq c'

end Confirms

/-! ## Runs -/

namespace TagState

/-- No confirmation is one of the largest tag. -/
def BelowLast (_ : TagState) (a : TagAction) : Prop :=
  ∀ e, a = .confirm e → e.deliveryTag ≠ lastTag

/-- The tags of a listener are the consecutive numbers from `first` to before `stop`. -/
def Consecutive (log : List (Confirmation UInt64)) (stop : ℕ) : Prop :=
  ∃ first, log.map (fun x => x.deliveryTag.toNat) = List.range' first log.length ∧
    first + log.length = stop

theorem Consecutive.append {log : List (Confirmation UInt64)} {tag : UInt64}
    (h : Consecutive log tag.toNat) (ack : Bool) :
    Consecutive (log ++ [⟨tag, ack⟩]) (tag.toNat + 1) := by
  obtain ⟨first, htags, hstop⟩ := h
  refine ⟨first, ?_, ?_⟩
  · rw [List.map_append, htags, List.length_append, List.length_singleton, List.range'_concat]
    simp [hstop]
  · rw [List.length_append, List.length_singleton]
    omega

theorem consecutive_nil (stop : ℕ) : Consecutive [] stop := ⟨stop, rfl, rfl⟩

/-- What delivers a tag keeps: the listeners are at `expecting`, and the sequencer has no
entry for the largest tag. -/
structure InOrder (c : Confirms UInt64) : Prop where
  listeners : ∀ log ∈ c.listeners, Consecutive log c.expecting.toNat
  closed : ∀ log ∈ c.closed, ∃ stop, Consecutive log stop
  stored : ∀ tag sequenced, c.sequencer.lookup tag = some sequenced →
    sequenced.deliveryTag = tag ∧ tag ≠ lastTag

theorem inOrder_new : InOrder .newConfirms where
  listeners := by simp [Confirms.newConfirms]
  closed := by simp [Confirms.newConfirms]
  stored := by simp [Confirms.newConfirms]

theorem InOrder.confirm {c : Confirms UInt64} (h : InOrder c) (hne : c.expecting ≠ lastTag)
    (ack : Bool) : InOrder (c.confirm ⟨c.expecting, ack⟩) where
  listeners := by
    intro log hlog
    obtain ⟨log, hmem, rfl⟩ := List.mem_map.mp hlog
    rw [Confirms.confirm_expecting, Confirms.toNat_add_one (Confirms.ne_lastTag_iff.mp hne)]
    exact (h.listeners log hmem).append ack
  closed := h.closed
  stored := by
    intro tag sequenced hfound
    rw [Confirms.confirm_sequencer] at hfound
    by_cases heq : tag = c.expecting
    · rw [heq, AList.lookup_erase] at hfound
      cases hfound
    · rw [AList.lookup_erase_ne heq] at hfound
      exact h.stored tag sequenced hfound

theorem InOrder.resequence {c : Confirms UInt64} (h : InOrder c) : InOrder c.resequence := by
  refine Confirms.resequence_induction (P := InOrder) ?_ c h
  intro c sequenced hc _ hfound
  obtain ⟨htag, hne⟩ := hc.stored _ _ hfound
  obtain ⟨tag, ack⟩ := sequenced
  cases htag
  exact hc.confirm hne ack

theorem InOrder.head {c c' : Confirms UInt64} {e : TagConfirm} (h : InOrder c)
    (hne : e.deliveryTag ≠ lastTag) (hhead : e.head c = some c') : InOrder c' := by
  have hdefer : ∀ d, InOrder { c with deferredConfirmations := d } :=
    fun _ => ⟨h.listeners, h.closed, h.stored⟩
  cases e with
  | one confirmed =>
      cases hhead
      obtain ⟨tag, ack⟩ := confirmed
      by_cases htag : c.expecting = tag
      · subst htag
        rw [Confirms.oneHead_of_eq]
        exact (hdefer _).confirm hne ack
      · rw [Confirms.oneHead_of_ne htag]
        refine ⟨h.listeners, h.closed, ?_⟩
        intro tag' sequenced hfound
        by_cases heq : tag' = tag
        · rw [heq, AList.lookup_insert] at hfound
          cases hfound
          exact ⟨heq.symm, heq ▸ hne⟩
        · rw [AList.lookup_insert_ne heq] at hfound
          exact h.stored tag' sequenced hfound
  | multiple confirmed =>
      refine (Confirms.multipleLoop_induction (P := InOrder) ?_ (hdefer _) hhead).1
      intro c hc hle
      refine hc.confirm ?_ confirmed.ack
      have hlast := Confirms.ne_lastTag_iff.mp hne
      rw [UInt64.le_iff_toNat_le] at hle
      exact Confirms.ne_lastTag_iff.mpr (lt_of_le_of_lt hle hlast)

theorem InOrder.close {c : Confirms UInt64} (h : InOrder c) : InOrder c.close where
  listeners := by simp [Confirms.close]
  closed := by
    intro log hlog
    rcases List.mem_append.mp hlog with hlog | hlog
    · exact h.closed log hlog
    · exact ⟨_, h.listeners log hlog⟩
  stored := h.stored

theorem InOrder.listen {c : Confirms UInt64} (h : InOrder c) : InOrder c.listen where
  listeners := by
    intro log hlog
    rcases List.mem_append.mp hlog with hlog | hlog
    · exact h.listeners log hlog
    · rw [List.mem_singleton.mp hlog]
      exact consecutive_nil _
  closed := h.closed
  stored := h.stored

theorem inOrder_next {s s' : TagState} {a : TagAction} (h : InOrder s.confirms)
    (hguard : s.BelowLast a) (hnext : s.next a = some s') : InOrder s'.confirms := by
  cases a with
  | listen =>
      simp only [next] at hnext
      split at hnext <;> cases hnext
      exact h.listen
  | publish =>
      cases hnext
      exact ⟨h.listeners, h.closed, h.stored⟩
  | unpublish =>
      cases hnext
      exact ⟨h.listeners, h.closed, h.stored⟩
  | confirm e =>
      simp only [next] at hnext
      split at hnext
      · cases hnext
      · obtain ⟨c, hhead, rfl⟩ := Option.map_eq_some_iff.mp hnext
        exact h.head (hguard e rfl) hhead
  | resequence =>
      simp only [next] at hnext
      split at hnext <;> cases hnext
      exact h.resequence
  | close =>
      simp only [next] at hnext
      split at hnext <;> cases hnext
      exact h.close

/-- `One` ends for every tag, `Multiple` for every tag but the largest one, and in every run
without confirmations of that tag each listener receives consecutive tags. -/
theorem confirmations_terminate_and_ascend (c : Confirms UInt64)
    (confirmed : Confirmation UInt64) (as : List TagAction) (s : TagState) :
    (∃ rounds c', c.one rounds confirmed = some c') ∧
    ((∃ rounds rounds' c', c.multiple rounds rounds' confirmed = some c') ↔
      confirmed.deliveryTag ≠ lastTag) ∧
    (Run next BelowLast start as s → ∀ log ∈ s.confirms.listeners ++ s.confirms.closed,
      ∃ first, log.map (fun x => x.deliveryTag.toNat) = List.range' first log.length) := by
  refine ⟨?_, Confirms.multiple_terminates_iff c confirmed, ?_⟩
  · obtain ⟨rounds, hone⟩ := c.one_terminates confirmed
    exact ⟨rounds, _, hone⟩
  · intro hrun log hlog
    have horder : InOrder s.confirms :=
      hrun.invariant (P := fun s => InOrder s.confirms) inOrder_new
        fun _ _ _ hs hguard hnext => inOrder_next hs hguard hnext
    rcases List.mem_append.mp hlog with hlog | hlog
    · obtain ⟨first, htags, -⟩ := horder.listeners log hlog
      exact ⟨first, htags⟩
    · obtain ⟨stop, first, htags, -⟩ := horder.closed log hlog
      exact ⟨first, htags⟩

/-- Tags confirmed in reverse, one of them twice, and one that was never published. -/
theorem confirmations_ascend_reversed :
    ∃ s, Run next BelowLast start
        [.listen, .publish, .publish, .confirm (.one ⟨2, true⟩), .resequence,
          .confirm (.one ⟨1, false⟩), .resequence, .confirm (.one ⟨2, true⟩), .resequence,
          .confirm (.one ⟨9, true⟩), .resequence] s ∧
      s.confirms.listeners = [[⟨1, false⟩, ⟨2, true⟩]] ∧
      ∃ first, [1, 2] = List.range' first 2 := by
  have hother : ∀ (s : TagState) (a : TagAction), (∀ e, a ≠ .confirm e) → s.BelowLast a :=
    fun _ _ hne e heq => absurd heq (hne e)
  have hone : ∀ (s : TagState) (tag : UInt64) (ack : Bool), tag ≠ lastTag →
      s.BelowLast (.confirm (.one ⟨tag, ack⟩)) := by
    rintro s tag ack hne e heq
    cases heq
    exact hne
  have hrun : Run next BelowLast start _ _ :=
    .cons (hother _ .listen (by simp)) rfl (.cons (hother _ .publish (by simp)) rfl
      (.cons (hother _ .publish (by simp)) rfl (.cons (hone _ 2 true (by decide)) rfl
      (.cons (hother _ .resequence (by simp)) rfl (.cons (hone _ 1 false (by decide)) rfl
      (.cons (hother _ .resequence (by simp)) rfl (.cons (hone _ 2 true (by decide)) rfl
      (.cons (hother _ .resequence (by simp)) rfl (.cons (hone _ 9 true (by decide)) rfl
      (.cons (hother _ .resequence (by simp)) rfl (.nil _)))))))))))
  refine ⟨_, hrun, rfl, ?_⟩
  exact (confirmations_terminate_and_ascend .newConfirms ⟨1, true⟩ _ _).2.2 hrun
    [⟨1, false⟩, ⟨2, true⟩] (List.mem_cons_self)

/-- One listener, an empty sequencer and nothing published. -/
structure Untouched (c : Confirms UInt64) : Prop where
  listeners : ∃ log, c.listeners = [log]
  sequencer : c.sequencer = ∅
  published : c.published = 0

theorem Untouched.confirm {c : Confirms UInt64} (h : Untouched c) (x : Confirmation UInt64) :
    Untouched (c.confirm x) where
  listeners := by
    obtain ⟨log, hlog⟩ := h.listeners
    exact ⟨log ++ [x], by rw [Confirms.confirm_listeners, hlog]; rfl⟩
  sequencer := by
    rw [Confirms.confirm_sequencer, h.sequencer]
    rfl
  published := h.published

theorem Untouched.defer {c : Confirms UInt64} (h : Untouched c)
    (d : DeferredConfirmations UInt64) : Untouched { c with deferredConfirmations := d } :=
  ⟨h.listeners, h.sequencer, h.published⟩

theorem Untouched.resequence {c : Confirms UInt64} (h : Untouched c) : c.resequence = c := by
  rw [Confirms.resequence_eq, h.sequencer]
  split <;> rfl

/-- The expected tag is confirmed and nothing follows from it. -/
theorem Untouched.one {c : Confirms UInt64} (h : Untouched c) {tag : UInt64}
    (htag : c.expecting = tag) (ack : Bool) :
    ∃ c', Run next (fun _ _ => True) ⟨c, false⟩ [.confirm (.one ⟨tag, ack⟩), .resequence]
        ⟨c', false⟩ ∧ Untouched c' ∧ c'.expecting = tag + 1 ∧
      c'.listeners = c.listeners.map (· ++ [⟨tag, ack⟩]) := by
  subst htag
  have hhead : Untouched (c.oneHead ⟨c.expecting, ack⟩) := by
    rw [Confirms.oneHead_of_eq]
    exact (h.defer _).confirm _
  refine ⟨c.oneHead ⟨c.expecting, ack⟩, .cons trivial rfl (.cons trivial ?_ (.nil _)), hhead,
    ?_, ?_⟩
  · simp only [next, if_true, hhead.resequence]
  · rw [Confirms.oneHead_of_eq]
    rfl
  · rw [Confirms.oneHead_of_eq]
    rfl

theorem Untouched.multiple {c : Confirms UInt64} (h : Untouched c) {tag : UInt64}
    (hne : tag ≠ lastTag) (ack : Bool) :
    ∃ c', Run next (fun _ _ => True) ⟨c, false⟩ [.confirm (.multiple ⟨tag, ack⟩), .resequence]
        ⟨c', false⟩ ∧ Untouched c' ∧ tag.toNat < c'.expecting.toNat := by
  obtain ⟨c', hhead⟩ := TagConfirm.head_terminates (e := .multiple ⟨tag, ack⟩) hne c
  obtain ⟨hfree, hstop⟩ := Confirms.multipleLoop_induction (P := Untouched)
    (fun c hc _ => hc.confirm _) (h.defer _) hhead
  refine ⟨c', .cons (m := ⟨c', true⟩) trivial ?_ (.cons trivial ?_ (.nil _)), hfree, ?_⟩
  · exact Option.map_eq_some_iff.mpr ⟨c', hhead, rfl⟩
  · simp only [next, if_true, hfree.resequence]
  · rw [UInt64.le_iff_toNat_le] at hstop
    exact Nat.lt_of_not_le hstop

/-- `Multiple` of the largest tag never ends. With all tags below it confirmed, the
listener receives the largest tag and then zero. -/
theorem lastTag_repeats :
    (∀ rounds rounds', Confirms.newConfirms.multiple rounds rounds' ⟨lastTag, true⟩ = none) ∧
    ∃ s, Run next (fun _ _ => True) start
        [.listen, .confirm (.multiple ⟨lastTag - 1, true⟩), .resequence,
          .confirm (.one ⟨lastTag, true⟩), .resequence, .confirm (.one ⟨0, true⟩), .resequence] s ∧
      ∃ log ∈ s.confirms.listeners,
        ¬ ∃ first, log.map (fun x => x.deliveryTag.toNat) = List.range' first log.length := by
  constructor
  · intro rounds rounds'
    rw [Confirms.multiple, Confirms.multipleHead, Confirms.multipleLoop_lastTag rfl]
    rfl
  · have hlisten : Run next (fun _ _ => True) start [.listen]
        ⟨Confirms.newConfirms.listen, false⟩ := .cons trivial rfl (.nil _)
    obtain ⟨c, hrun, hfree, hstop⟩ := Untouched.multiple (c := Confirms.newConfirms.listen)
      ⟨⟨[], rfl⟩, rfl, rfl⟩ (show lastTag - 1 ≠ lastTag by decide) true
    have hlast : c.expecting = lastTag := by
      have hlt := c.expecting.toNat_lt
      have hbefore : (lastTag - 1).toNat = 2 ^ 64 - 2 := rfl
      rw [← UInt64.toNat_inj, Confirms.toNat_lastTag]
      omega
    obtain ⟨c₁, hrun₁, hfree₁, hexpecting₁, hlisteners₁⟩ := hfree.one hlast true
    have hwrap : lastTag + 1 = 0 := by decide
    rw [hwrap] at hexpecting₁
    obtain ⟨c₂, hrun₂, -, -, hlisteners₂⟩ := hfree₁.one hexpecting₁ true
    obtain ⟨log, hlog⟩ := hfree.listeners
    refine ⟨⟨c₂, false⟩, hlisten.append (hrun.append (hrun₁.append hrun₂)),
      (log ++ [⟨lastTag, true⟩]) ++ [⟨0, true⟩], ?_, ?_⟩
    · rw [hlisteners₂, hlisteners₁, hlog]
      exact List.mem_singleton_self _
    · rintro ⟨first, heq⟩
      rw [List.map_append, List.length_append, List.length_singleton, List.range'_concat] at heq
      have hzero := List.append_inj_right' heq rfl
      simp at hzero

end TagState

end Amqp091

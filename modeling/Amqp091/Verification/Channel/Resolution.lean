import Amqp091.Verification.Channel.Machine
import Amqp091.Verification.Channel.Send
import Amqp091.Verification.Confirms.Tracking

/-! # Deferred confirmations on a channel in confirm mode -/

namespace Amqp091

open Transition

variable {rt : GoRuntime} {frameSize : ℤ} {id : UInt16}

namespace ChannelState

/-- The confirmation of the publish in progress belongs to the last published tag. Once
`shutdown` has run, no other is pending, and that publish cannot succeed. -/
structure Accounted (s : ChannelState rt) : Prop where
  confirming : s.confirming = true
  tracked : s.deferred.Tracked
  bounded : ∀ t p, s.deferred.confirmations.lookup t = some p → t ≤ s.confirms.published
  returned : ∀ p ∈ s.returned, p < s.deferred.heap.length
  counted : ∀ h ∈ s.holder, h.dc.isSome = h.call.isPublish
  holder : ∀ h ∈ s.holder, ∀ p, h.dc = some p → p < s.deferred.heap.length ∧
    p ∉ s.returned ∧ ∀ t, s.deferred.confirmations.lookup t = some p → t = s.confirms.published
  swept : s.destroyed = true → s.link.closed = true ∧
    ∀ t p, s.deferred.confirmations.lookup t = some p → ∃ h ∈ s.holder, h.dc = some p
  refused : s.destroyed = true → ∀ h ∈ s.holder, h.dc.isSome = true →
    h.point = .send ∨ ∃ e, h.point = .done (.returned (some e))

variable {s s' : ChannelState rt} {a : ChannelAction rt}

/-! ## The map of pending confirmations -/

/-- A publish adds an entry under a new tag; everything else settles pending entries. -/
theorem Accounted.deferred_step (h : Accounted s) (hstep : Step frameSize id s a s') :
    s'.deferred = (s.deferred.add (s.confirms.published + 1)).1 ∨
      s.deferred.Settles s'.deferred := by
  cases hstep with
  | publish => exact .inl rfl
  | unpublish => exact .inr (.remove h.tracked _)
  | @serverConfirm e c _ _ hhead =>
      right
      rw [deferred, deferred, (ServerConfirm.head_deferred hhead).1]
      exact .defer h.tracked e
  | resequence =>
      right
      rw [deferred, deferred, (Confirms.resequence_deferred s.confirms).1]
      exact .refl h.tracked
  | shutdown => exact .inr (.close h.tracked)
  | _ => exact .inr (.refl h.tracked)

theorem Accounted.fresh (h : Accounted s) :
    s.deferred.confirmations.lookup (s.confirms.published + 1) = none := by
  cases hlookup : s.deferred.confirmations.lookup (s.confirms.published + 1) with
  | none => rfl
  | some p => exact absurd (h.bounded _ p hlookup) (by omega)

/-- No step replaces an entry that is pending. -/
theorem Accounted.kept_or_closed (h : Accounted s) (hstep : Step frameSize id s a s') {t p : ℕ}
    (hp : s.deferred.confirmations.lookup t = some p) :
    s'.deferred.confirmations.lookup t = some p ∨
      s'.deferred.confirmations.lookup t = none ∧
        ∃ dc, s'.deferred.heap[p]? = some dc ∧ dc.closes = 1 := by
  rcases h.deferred_step hstep with hadd | hsettles
  · left
    rw [hadd]
    refine DeferredConfirmations.Tracked.lookup_add.mpr (.inr ⟨?_, hp⟩)
    rintro rfl
    rw [h.fresh] at hp
    cases hp
  · exact hsettles.kept_or_closed h.tracked hp

/-! ## Steps -/

theorem Accounted.publish (h : Accounted s) (hfree : s.holder = none) {call : Call rt}
    (hpublish : call.isPublish = true) :
    Accounted { s with
      confirms := s.confirms.publish.1
      holder := some ⟨call, some s.confirms.publish.2, .send⟩ } := by
  have hlength : (s.deferred.add (s.confirms.published + 1)).1.heap.length =
      s.deferred.heap.length + 1 := by
    simp [DeferredConfirmations.add]
  have hlookup : ∀ t p, (s.deferred.add (s.confirms.published + 1)).1.confirmations.lookup t =
      some p → t = s.confirms.published + 1 ∧ p = s.deferred.heap.length ∨
        s.deferred.confirmations.lookup t = some p := fun t p hp =>
    (DeferredConfirmations.Tracked.lookup_add.mp hp).imp_right fun h => h.2
  refine ⟨h.confirming, h.tracked.add h.fresh, ?_, ?_, ?_, ?_, ?_, ?_⟩
  · intro t p hp
    rcases hlookup t p hp with ⟨rfl, -⟩ | hp
    · exact le_rfl
    · exact (h.bounded t p hp).trans (Nat.le_succ _)
  · intro p hp
    have hlt := h.returned p hp
    exact hlength ▸ Nat.lt_succ_of_lt hlt
  · intro x hx
    cases hx
    exact hpublish.symm
  · intro x hx p hp
    cases hx
    cases hp
    refine ⟨hlength ▸ Nat.lt_succ_self _, fun hp => ?_, fun t hp => ?_⟩
    · exact absurd (h.returned _ hp) (lt_irrefl _)
    · rcases hlookup t _ hp with ⟨rfl, -⟩ | hp
      · rfl
      · exact absurd (h.tracked.lt_length hp) (lt_irrefl _)
  · intro hdestroyed
    obtain ⟨hclosed, hpending⟩ := h.swept hdestroyed
    refine ⟨hclosed, fun t p hp => ?_⟩
    rcases hlookup t p hp with ⟨-, rfl⟩ | hp
    · exact ⟨_, rfl, rfl⟩
    · obtain ⟨x, hx, -⟩ := hpending t p hp
      rw [hfree] at hx
      cases hx
  · intro _ x hx _
    cases hx
    exact .inl rfl

/-- Confirmations are settled while the holder of `ch.m` goes on. -/
theorem Accounted.of_settles (h : Accounted s) {c : Confirms ℕ} {busy : Bool}
    (hsettles : s.deferred.Settles c.deferredConfirmations)
    (hpublished : c.published = s.confirms.published) :
    Accounted { s with confirms := c, busy := busy } where
  confirming := h.confirming
  tracked := hsettles.tracked
  bounded := by
    intro t p hp
    rw [hpublished]
    exact h.bounded t p (hsettles.lookup t p hp)
  returned := fun p hp => hsettles.length ▸ h.returned p hp
  counted := h.counted
  holder := by
    intro x hx p hp
    obtain ⟨hlt, hnew, htag⟩ := h.holder x hx p hp
    refine ⟨hsettles.length ▸ hlt, hnew, fun t ht => ?_⟩
    rw [hpublished]
    exact htag t (hsettles.lookup t p ht)
  swept := fun hdestroyed => ⟨(h.swept hdestroyed).1,
    fun t p hp => (h.swept hdestroyed).2 t p (hsettles.lookup t p hp)⟩
  refused := h.refused

/-- After `shutdown` only a publish that is refused leaves something pending. -/
theorem Accounted.nothing_pending (h : Accounted s) {call : Call rt} {dc : Option ℕ}
    {point : Point} (hholder : s.holder = some ⟨call, dc, point⟩)
    (hpoint : dc.isSome = true → point ≠ .send ∧ ∀ e, point ≠ .done (.returned (some e)))
    (hdestroyed : s.destroyed = true) (t p : ℕ) :
    s.deferred.confirmations.lookup t ≠ some p := by
  intro hp
  obtain ⟨x, hx, hdc⟩ := (h.swept hdestroyed).2 t p hp
  rw [hholder] at hx
  cases hx
  have hsome : dc.isSome = true := Option.isSome_iff_exists.mpr ⟨p, hdc⟩
  obtain ⟨hsend, hdone⟩ := hpoint hsome
  rcases h.refused hdestroyed _ hholder hsome with hpt | ⟨e, hpt⟩
  · exact hsend hpt
  · exact hdone e hpt

/-- The holder of `ch.m` ends without a rollback; `dcs` is what it returns. -/
theorem Accounted.release (h : Accounted s) {call : Call rt} {dc : Option ℕ} {point : Point}
    (hholder : s.holder = some ⟨call, dc, point⟩)
    (hpoint : dc.isSome = true → point ≠ .send ∧ ∀ e, point ≠ .done (.returned (some e)))
    (dcs : List ℕ) (hdcs : ∀ p ∈ dcs, dc = some p) :
    Accounted ({ s with holder := none, returned := s.returned ++ dcs } : ChannelState rt) where
  confirming := h.confirming
  tracked := h.tracked
  bounded := h.bounded
  returned := by
    intro p hp
    rcases List.mem_append.mp hp with hp | hp
    · exact h.returned p hp
    · exact (h.holder _ hholder p (hdcs p hp)).1
  counted := by simp
  holder := by simp
  swept := fun hdestroyed => ⟨(h.swept hdestroyed).1,
    fun t p hp => absurd hp (h.nothing_pending hholder hpoint hdestroyed t p)⟩
  refused := by simp

/-- The publish in progress is rolled back. -/
theorem Accounted.unpublish (h : Accounted s) :
    Accounted ({ s with holder := none, confirms := s.confirms.unpublish } : ChannelState rt) := by
  have hsettles : s.deferred.Settles s.confirms.unpublish.deferredConfirmations :=
    .remove h.tracked _
  have hlookup : ∀ t p, s.confirms.unpublish.deferredConfirmations.confirmations.lookup t =
      some p → t ≠ s.confirms.published ∧ s.deferred.confirmations.lookup t = some p :=
    fun t p hp => DeferredConfirmations.lookup_remove.mp hp
  refine ⟨h.confirming, hsettles.tracked, ?_, ?_, ?_, ?_, ?_, ?_⟩
  · intro t p hp
    obtain ⟨hne, hp⟩ := hlookup t p hp
    have hle := h.bounded t p hp
    exact Nat.le_sub_one_of_lt (lt_of_le_of_ne hle hne)
  · exact fun p hp => hsettles.length ▸ h.returned p hp
  · simp
  · simp
  · intro hdestroyed
    obtain ⟨hclosed, hpending⟩ := h.swept hdestroyed
    refine ⟨hclosed, fun t p hp => ?_⟩
    -- the only entry left was that of the publish itself
    obtain ⟨hne, hp⟩ := hlookup t p hp
    obtain ⟨x, hx, hdc⟩ := hpending t p hp
    exact absurd ((h.holder x hx p hdc).2.2 t hp) hne
  · simp

theorem Accounted.step_holder (h : Accounted s) {x : Holder rt} {link : Link} {point : Point}
    (hholder : s.holder = some x)
    (hstep : SendStep frameSize id s.link x.call.message x.point link point) :
    Accounted { s with link := link, holder := some { x with point := point } } where
  confirming := h.confirming
  tracked := h.tracked
  bounded := h.bounded
  returned := h.returned
  counted := by
    intro y hy
    cases hy
    exact h.counted x hholder
  holder := by
    intro y hy p hp
    cases hy
    exact h.holder x hholder p hp
  swept := by
    intro hdestroyed
    obtain ⟨hclosed, hpending⟩ := h.swept hdestroyed
    refine ⟨hstep.flags.1.trans hclosed, fun t p hp => ?_⟩
    obtain ⟨y, hy, hdc⟩ := hpending t p hp
    rw [hholder] at hy
    cases hy
    exact ⟨_, rfl, hdc⟩
  refused := by
    intro hdestroyed y hy hsome
    cases hy
    have hclosed := (h.swept hdestroyed).1
    have hpublish := (h.counted x hholder).symm.trans hsome
    obtain ⟨call, dc, point⟩ := x
    cases call with
    | publish p =>
        rcases h.refused hdestroyed _ hholder hsome with hpoint | ⟨e, hpoint⟩
        · -- the test in `send` finds the channel closed
          simp only at hpoint
          subst hpoint
          cases hstep with
          | send hopen =>
              rw [hclosed] at hopen
              cases hopen
          | closed => exact .inr ⟨_, rfl⟩
        · simp only at hpoint
          subst hpoint
          cases hstep with
          | closed hp => rcases hp with hp | hp <;> cases hp
    | _ => cases hpublish

/-- Steps that change neither the confirmations nor the holder of `ch.m`. -/
theorem Accounted.frame (h : Accounted s) {link : Link} {senders : List Sender}
    (hclosed : s.link.closed = true → link.closed = true) :
    Accounted { s with link := link, senders := senders } :=
  { h with swept := fun hdestroyed =>
      ⟨hclosed (h.swept hdestroyed).1, (h.swept hdestroyed).2⟩ }

theorem Accounted.shutdown (h : Accounted s) (hclosed : s.link.closed = true)
    (hfree : s.holder = none) :
    Accounted { s with confirms := s.confirms.close, destroyed := true } := by
  have hnone : ∀ t p, s.confirms.close.deferredConfirmations.confirmations.lookup t ≠ some p := by
    intro t p hp
    rw [Confirms.close, DeferredConfirmations.lookup_close] at hp
    cases hp
  have hempty : ∀ x, x ∉ s.holder := by
    intro x hx
    rw [hfree] at hx
    cases hx
  have hsettles := DeferredConfirmations.Settles.close h.tracked
  exact ⟨h.confirming, hsettles.tracked, fun t p hp => absurd hp (hnone t p),
    fun p hp => hsettles.length ▸ h.returned p hp, fun x hx => absurd hx (hempty x),
    fun x hx => absurd hx (hempty x), fun _ => ⟨hclosed, fun t p hp => absurd hp (hnone t p)⟩,
    fun _ x hx => absurd hx (hempty x)⟩

theorem Accounted.step (h : Accounted s) (hstep : Step frameSize id s a s') :
    Accounted s' := by
  cases hstep with
  | publish hfree hpublish => exact h.publish hfree hpublish
  | @lock call hfree hcount =>
      have hplain : call.isPublish = false := by
        simpa [h.confirming] using hcount
      refine ⟨h.confirming, h.tracked, h.bounded, h.returned, ?_, ?_, ?_, ?_⟩
      · intro x hx
        cases hx
        exact hplain.symm
      · intro x hx p hp
        cases hx
        cases hp
      · intro hdestroyed
        obtain ⟨hclosed, hpending⟩ := h.swept hdestroyed
        refine ⟨hclosed, fun t p hp => ?_⟩
        obtain ⟨x, hx, -⟩ := hpending t p hp
        rw [hfree] at hx
        cases hx
      · intro _ x hx hsome
        cases hx
        cases hsome
  | step hholder hstep => exact h.step_holder hholder (sendStep_of_step hstep)
  | succeed hholder =>
      refine h.release hholder (fun _ => ⟨Point.noConfusion, ?_⟩) _ ?_
      · intro e heq
        cases heq
      · intro p hp
        exact Option.mem_toList.mp hp
  | unpublish => exact h.unpublish
  | @fail call dc e hholder hcount =>
      have hplain : call.isPublish = false := by
        simpa [h.confirming] using hcount
      have hnone : dc.isSome = false := (h.counted _ hholder).trans hplain
      simpa using h.release hholder (fun hsome => absurd hsome (by simp [hnone])) [] (by simp)
  | panic hholder =>
      simpa using h.release hholder
        (fun _ => ⟨Point.noConfusion, fun e heq => by cases heq⟩) [] (by simp)
  | call => exact h.frame fun hclosed => hclosed
  | stepSender hsender hstep =>
      exact h.frame fun hclosed => (sendStep_of_step hstep).flags.1.trans hclosed
  | setClosed => exact h.frame fun _ => rfl
  | setConnectionClosed => exact h.frame fun hclosed => hclosed
  | confirm => exact { h with confirming := rfl }
  | @serverConfirm e c _ _ hhead =>
      obtain ⟨hdeferred, hpublished⟩ := ServerConfirm.head_deferred hhead
      exact h.of_settles (hdeferred ▸ .defer h.tracked e) hpublished
  | resequence =>
      obtain ⟨hdeferred, hpublished⟩ := Confirms.resequence_deferred s.confirms
      exact h.of_settles (hdeferred ▸ .refl h.tracked) hpublished
  | shutdown hclosed hfree => exact h.shutdown hclosed hfree

theorem accounted_start (link : Link) (senders : List Sender) :
    Accounted (start link senders true : ChannelState rt) where
  confirming := rfl
  tracked := ⟨by simp [deferred, start, Confirms.newConfirms],
    by simp [deferred, start, Confirms.newConfirms],
    by simp [deferred, start, Confirms.newConfirms]⟩
  bounded := by simp [deferred, start, Confirms.newConfirms]
  returned := by simp [start]
  counted := by simp [start]
  holder := by simp [start]
  swept := by simp [start]
  refused := by simp [start]

/-! ## Runs -/

/-- In confirm mode the `done` channel of a deferred confirmation is closed at most once,
a pending entry is never replaced but only dropped when its channel is closed, and after
`shutdown` everything that was returned is resolved. -/
theorem deferred_resolved_once {link : Link} {senders : List Sender}
    {as : List (ChannelAction rt)}
    (h : Run (next frameSize id) (fun _ _ => True) (start link senders true) as s) :
    (∀ dc ∈ s.deferred.heap, dc.closes ≤ 1) ∧
    (∀ a s', s.next frameSize id a = some s' → ∀ t p,
      s.deferred.confirmations.lookup t = some p →
      s'.deferred.confirmations.lookup t = some p ∨
        s'.deferred.confirmations.lookup t = none ∧
          ∃ dc, s'.deferred.heap[p]? = some dc ∧ dc.closes = 1) ∧
    (s.destroyed = true → ∀ p ∈ s.returned,
      ∃ dc, s.deferred.heap[p]? = some dc ∧ dc.closes = 1) := by
  have hs : Accounted s :=
    h.invariant (accounted_start link senders) fun s a s' hs _ hnext =>
      hs.step (step_of_next hnext)
  refine ⟨fun dc hdc => hs.tracked.closes_le_one hdc,
    fun a s' hnext t p hp => hs.kept_or_closed (step_of_next hnext) hp, ?_⟩
  intro hdestroyed p hp
  refine hs.tracked.closed_of_not_pending (hs.returned p hp) fun t ht => ?_
  obtain ⟨x, hx, hdc⟩ := (hs.swept hdestroyed).2 t p ht
  exact (hs.holder x hx p hdc).2.1 hp

/-- One publish succeeds before `shutdown` and one is refused after it. -/
theorem deferred_resolved_once_shutdown :
    let ok : Transport := ⟨true, true⟩
    ∃ s : ChannelState .exact,
      Run (next 0 1) (fun _ _ => True) (start ⟨false, false, false, []⟩ [] true)
        [.lock (.publish emptyPublishing), .step ok, .step ok, .step ok, .step ok, .step ok,
          .step ok, .step ok, .unlock, .setClosed, .shutdown,
          .lock (.publish emptyPublishing), .step ok, .unlock] s ∧
      s.returned = [0] ∧ s.deferred.heap.length = 2 ∧
      ∃ dc, s.deferred.heap[0]? = some dc ∧ dc.closes = 1 := by
  intro ok
  have hrun : Run (next 0 1) (fun _ _ => True) (start ⟨false, false, false, []⟩ [] true)
      [.lock (.publish emptyPublishing), .step ok, .step ok, .step ok, .step ok, .step ok,
        .step ok, .step ok, .unlock, .setClosed, .shutdown,
        .lock (.publish emptyPublishing), .step ok, .unlock] _ :=
    .cons trivial rfl (.cons trivial rfl (.cons trivial rfl (.cons trivial rfl
      (.cons trivial rfl (.cons trivial rfl (.cons trivial rfl (.cons trivial rfl
      (.cons trivial rfl (.cons trivial rfl (.cons trivial rfl (.cons trivial rfl
      (.cons trivial rfl (.cons trivial rfl (.nil _))))))))))))))
  exact ⟨_, hrun, rfl, rfl, (deferred_resolved_once hrun).2.2 rfl 0 List.mem_cons_self⟩

end ChannelState

end Amqp091

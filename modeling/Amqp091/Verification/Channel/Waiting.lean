import Amqp091.Algorithm.DeferredWait
import Amqp091.Verification.Channel.Resolution

/-! # Everybody who waits for a confirmation learns the same

Any number of goroutines may hold a deferred confirmation that a publish returned, and ask
for it with `Wait`, `WaitContext` or `Acked` while the channel goes on. -/

namespace Amqp091

open Positions Transition

/-! ## Outcomes -/

namespace DeferredConfirmations

variable {history history' : List ServerConfirm} {d d' d'' : DeferredConfirmations ℕ}

/-- The server has acknowledged the tag. -/
def Acknowledged (history : List ServerConfirm) (t : ℕ) : Prop :=
  ∃ e ∈ history, e.Covers t ∧ e.confirmed.ack = true

/-- A deferred confirmation that is pending is not acknowledged yet, and one that is
acknowledged was so by the server. -/
structure Outcomes (history : List ServerConfirm) (d : DeferredConfirmations ℕ) : Prop where
  tracked : d.Tracked
  pending : ∀ (t p : ℕ) (dc : DeferredConfirmation ℕ), d.confirmations.lookup t = some p →
    d.heap[p]? = some dc → dc.deliveryTag = t ∧ 1 ≤ t ∧ dc.ack = false
  acked : ∀ (p : ℕ) (dc : DeferredConfirmation ℕ), d.heap[p]? = some dc → dc.ack = true →
    Acknowledged history dc.deliveryTag

/-- What was settled stays as it is. -/
def Keeps (d d' : DeferredConfirmations ℕ) : Prop :=
  ∀ (p : ℕ) (dc : DeferredConfirmation ℕ), d.heap[p]? = some dc → dc.isDone = true →
    d'.heap[p]? = some dc

theorem Keeps.refl (d : DeferredConfirmations ℕ) : Keeps d d := fun _ _ hdc _ => hdc

theorem Keeps.trans (h : Keeps d d') (h' : Keeps d' d'') : Keeps d d'' :=
  fun p dc hdc hdone => h' p dc (h p dc hdc hdone) hdone

theorem Outcomes.mono (h : Outcomes history d) (hsub : history ⊆ history') :
    Outcomes history' d where
  tracked := h.tracked
  pending := h.pending
  acked := by
    intro p dc hdc hack
    obtain ⟨e, he, hcovers⟩ := h.acked p dc hdc hack
    exact ⟨e, hsub he, hcovers⟩

/-- A pending entry is settled with an outcome that the server has given, or with none. -/
theorem Outcomes.settle (h : Outcomes history d) {t p : ℕ}
    {f : DeferredConfirmation ℕ → DeferredConfirmation ℕ}
    (hp : d.confirmations.lookup t = some p)
    (hf : ∀ dc, (f dc).closes = dc.closes + 1 ∧ (f dc).deliveryTag = dc.deliveryTag)
    (hack : ∀ dc, dc.ack = false → (f dc).ack = true → Acknowledged history t) :
    Outcomes history (d.settle t p f) ∧ Keeps d (d.settle t p f) := by
  obtain ⟨settled, hsettled, hopen⟩ := h.tracked.pending t p hp
  obtain ⟨htag, -, hfalse⟩ := h.pending t p settled hp hsettled
  refine ⟨⟨h.tracked.settle hp fun dc => (hf dc).1, ?_, ?_⟩, ?_⟩
  · intro t' q dc hq hdc
    obtain ⟨hne, hq⟩ := lookup_settle.mp hq
    obtain ⟨old, hold, rfl⟩ := getElem?_settle.mp hdc
    rw [if_neg]
    · exact h.pending t' q old hq hold
    · rintro rfl
      exact hne (h.tracked.unique _ _ _ hq hp)
  · intro q dc hdc hdcack
    obtain ⟨old, hold, rfl⟩ := getElem?_settle.mp hdc
    by_cases hpq : p = q
    · subst hpq
      rw [hsettled] at hold
      cases hold
      rw [if_pos rfl] at hdcack ⊢
      rw [(hf settled).2, htag]
      exact hack settled hfalse hdcack
    · rw [if_neg hpq] at hdcack ⊢
      exact h.acked q old hold hdcack
  · intro q dc hdc hdone
    refine getElem?_settle.mpr ⟨dc, hdc, if_neg ?_⟩
    rintro rfl
    rw [hsettled] at hdc
    cases hdc
    simp [DeferredConfirmation.isDone, hopen] at hdone

theorem Outcomes.add (h : Outcomes history d) {tag : ℕ} (hpos : 1 ≤ tag)
    (hfresh : d.confirmations.lookup tag = none) :
    Outcomes history (d.add tag).1 ∧ Keeps d (d.add tag).1 := by
  refine ⟨⟨h.tracked.add hfresh, ?_, ?_⟩, ?_⟩
  · intro t p dc hp hdc
    rcases Tracked.lookup_add.mp hp with ⟨rfl, rfl⟩ | ⟨-, hp⟩
    · simp only [DeferredConfirmations.add, List.getElem?_concat_length, Option.some.injEq] at hdc
      subst hdc
      exact ⟨rfl, hpos, rfl⟩
    · rw [DeferredConfirmations.add, List.getElem?_append_left (h.tracked.lt_length hp)] at hdc
      exact h.pending t p dc hp hdc
  · intro p dc hdc hack
    rcases getElem?_concat_cases hdc with hdc | ⟨-, rfl⟩
    · exact h.acked p dc hdc hack
    · cases hack
  · intro p dc hdc _
    exact (List.getElem?_append_left (List.getElem?_eq_some_iff.mp hdc).1).trans hdc

theorem Outcomes.remove (h : Outcomes history d) (tag : ℕ) :
    Outcomes history (d.remove tag) ∧ Keeps d (d.remove tag) := by
  apply remove_induction (P := fun d' => Outcomes history d' ∧ Keeps d d')
  · intro p hp
    apply h.settle hp
    · simp [DeferredConfirmation.closeDone]
    · simp_all [DeferredConfirmation.closeDone]
  · exact ⟨h, .refl d⟩

theorem Outcomes.close (h : Outcomes history d) :
    Outcomes history d.close ∧ Keeps d d.close := by
  apply settleAll_induction (P := fun d' => Outcomes history d' ∧ Keeps d d') _ d ⟨h, .refl d⟩
  rintro d' t p ⟨hd', hkeeps⟩ - hp
  obtain ⟨houtcomes, hkeeps'⟩ := hd'.settle (f := DeferredConfirmation.setAck false) hp
    (by simp [DeferredConfirmation.setAck, DeferredConfirmation.closeDone])
    (by simp [DeferredConfirmation.setAck, DeferredConfirmation.closeDone])
  exact ⟨houtcomes, hkeeps.trans hkeeps'⟩

theorem Outcomes.defer (h : Outcomes history d) (e : ServerConfirm) :
    Outcomes (history ++ [e]) (e.defer d) ∧ Keeps d (e.defer d) := by
  apply ServerConfirm.defer_induction
    (P := fun d' => Outcomes (history ++ [e]) d' ∧ Keeps d d') _ d
    ⟨h.mono (List.subset_append_left _ _), .refl d⟩
  rintro d' t p ⟨hd', hkeeps⟩ hcovers hp
  obtain ⟨dc, hdc, -⟩ := hd'.tracked.pending t p hp
  obtain ⟨-, hpos, -⟩ := hd'.pending t p dc hp hdc
  obtain ⟨houtcomes, hkeeps'⟩ := hd'.settle
    (f := DeferredConfirmation.setAck e.confirmed.ack) hp
    (by simp [DeferredConfirmation.setAck, DeferredConfirmation.closeDone])
    (fun dc _ hack => ⟨e, by simp, hcovers hpos, hack⟩)
  exact ⟨houtcomes, hkeeps.trans hkeeps'⟩

end DeferredConfirmations

/-! ## The waiting goroutines -/

/-- The outcome, or the error of a context that is done. -/
theorem Waiter.take_cases {w : Waiter} {dc : DeferredConfirmation ℕ} {c : WaitCase}
    {r : Bool × Option GoError} (h : w.take dc c = some r) :
    dc.isDone = true ∧ r = (dc.ack, none) ∨ ∃ e, w.ctxErr = some e ∧ r = (false, some e) := by
  have hdone : ∀ {ack : Bool}, dc.wait = some ack → dc.isDone = true ∧ ack = dc.ack := by
    intro ack hwait
    obtain ⟨hdone, ⟨⟩⟩ := Option.ite_none_right_eq_some.mp hwait
    exact ⟨hdone, rfl⟩
  rw [take] at h
  split at h
  · cases c with
    | context =>
        obtain ⟨e, he, rfl⟩ := Option.map_eq_some_iff.mp h
        exact .inr ⟨e, he, rfl⟩
    | done =>
        obtain ⟨ack, hwait, rfl⟩ := Option.map_eq_some_iff.mp h
        exact .inl ⟨(hdone hwait).1, by rw [(hdone hwait).2]⟩
  · obtain ⟨ack, hwait, rfl⟩ := Option.map_eq_some_iff.mp h
    exact .inl ⟨(hdone hwait).1, by rw [(hdone hwait).2]⟩

variable {rt : GoRuntime} {frameSize : ℤ} {id : UInt16}

namespace DeferredWaits

variable {s s' : DeferredWaits rt}

/-- The confirmation is settled with this outcome. -/
def Settled (s : DeferredWaits rt) (p : ℕ) (ack : Bool) : Prop :=
  ∃ dc, s.channel.deferred.heap[p]? = some dc ∧ dc.isDone = true ∧ dc.ack = ack

/-- What a call has returned is the outcome of its confirmation or the error of its
context. -/
structure Waiter.Informed (s : DeferredWaits rt) (w : Waiter) : Prop where
  target : w.target ∈ s.channel.returned
  result : ∀ r, w.result = some r →
    (∃ ack, s.Settled w.target ack ∧ r = (ack, none)) ∨
      ∃ e, w.ctxErr = some e ∧ r = (false, some e)

structure Valid (s : DeferredWaits rt) : Prop where
  accounted : s.channel.Accounted
  outcomes : s.channel.deferred.Outcomes s.history
  waiters : ∀ w ∈ s.waiters, Waiter.Informed s w
  polls : ∀ p, (p, true) ∈ s.polls → s.Settled p true

/-! ## Steps -/

theorem Settled.unique {p : ℕ} {ack ack' : Bool} (h : s.Settled p ack)
    (h' : s.Settled p ack') : ack = ack' := by
  obtain ⟨dc, hdc, -, rfl⟩ := h
  obtain ⟨dc', hdc', -, rfl⟩ := h'
  rw [hdc] at hdc'
  cases hdc'
  rfl

/-- A step of the channel keeps what was settled, and settles with what the server says. -/
theorem outcomes_step {c c' : ChannelState rt} {history : List ServerConfirm}
    {a : ChannelAction rt} (haccounted : c.Accounted)
    (h : c.deferred.Outcomes history) (hstep : ChannelState.Step frameSize id c a c') :
    c'.deferred.Outcomes (history ++ a.confirmed) ∧ c.deferred.Keeps c'.deferred := by
  cases hstep with
  | publish =>
      simp only [ChannelAction.confirmed, List.append_nil]
      exact h.add (Nat.le_add_left 1 c.confirms.published) haccounted.fresh
  | unpublish =>
      simp only [ChannelAction.confirmed, List.append_nil]
      exact h.remove c.confirms.published
  | @serverConfirm e c₁ _ _ hhead =>
      have hdeferred := (ServerConfirm.head_deferred hhead).1
      simp only [ChannelState.deferred, hdeferred]
      exact h.defer e
  | resequence =>
      have hdeferred := (Confirms.resequence_deferred c.confirms).1
      simp only [ChannelState.deferred, hdeferred, ChannelAction.confirmed, List.append_nil]
      exact ⟨h, .refl _⟩
  | shutdown =>
      simp only [ChannelAction.confirmed, List.append_nil]
      exact h.close
  | _ =>
      simp only [ChannelAction.confirmed, List.append_nil]
      exact ⟨h, .refl _⟩

theorem returned_step {c c' : ChannelState rt} {a : ChannelAction rt}
    (hstep : ChannelState.Step frameSize id c a c') : c.returned ⊆ c'.returned := by
  cases hstep with
  | succeed => exact List.subset_append_left _ _
  | _ => exact List.Subset.refl _

theorem Valid.channel (h : s.Valid) {a : ChannelAction rt} {c : ChannelState rt}
    (hnext : s.channel.next frameSize id a = some c) :
    Valid { s with channel := c, history := s.history ++ a.confirmed } := by
  have hstep := ChannelState.step_of_next hnext
  obtain ⟨houtcomes, hkeeps⟩ := outcomes_step h.accounted h.outcomes hstep
  have hsettled : ∀ {p : ℕ} {ack : Bool}, s.Settled p ack →
      Settled { s with channel := c, history := s.history ++ a.confirmed } p ack := by
    rintro p ack ⟨dc, hdc, hdone, hack⟩
    exact ⟨dc, hkeeps p dc hdc hdone, hdone, hack⟩
  refine ⟨h.accounted.step hstep, houtcomes, fun w hw => ⟨?_, fun r hr => ?_⟩, ?_⟩
  · exact returned_step hstep (h.waiters w hw).target
  · rcases (h.waiters w hw).result r hr with ⟨ack, hack, rfl⟩ | hexpired
    · exact .inl ⟨ack, hsettled hack, rfl⟩
    · exact .inr hexpired
  · exact fun p hp => hsettled (h.polls p hp)

/-- One of the calls changes. -/
theorem Valid.set (h : s.Valid) {i : ℕ} {w : Waiter} (hw : Waiter.Informed s w) :
    Valid { s with waiters := s.waiters.set i w } := by
  refine ⟨h.accounted, h.outcomes, fun v hv => ?_, h.polls⟩
  rcases List.mem_or_eq_of_mem_set hv with hv | rfl
  · exact { h.waiters v hv with }
  · exact { hw with }

theorem Valid.step (h : s.Valid) {a : Action rt} (hnext : s.next frameSize id a = some s') :
    s'.Valid := by
  cases a with
  | channel a =>
      obtain ⟨c, hc, rfl⟩ := Option.map_eq_some_iff.mp hnext
      exact h.channel hc
  | wait p hasContext =>
      obtain ⟨hp, ⟨⟩⟩ := Option.ite_none_right_eq_some.mp hnext
      refine ⟨h.accounted, h.outcomes, fun w hw => ?_, h.polls⟩
      rcases List.mem_append.mp hw with hw | hw
      · exact { h.waiters w hw with }
      · rw [List.mem_singleton.mp hw]
        exact ⟨hp, fun r hr => by cases hr⟩
  | expire i e =>
      simp only [next] at hnext
      split at hnext
      · rename_i w hw
        obtain ⟨⟨-, hnone⟩, ⟨⟩⟩ := Option.ite_none_right_eq_some.mp hnext
        have hinformed := h.waiters w (List.mem_of_getElem? hw)
        refine h.set ⟨hinformed.target, fun r hr => ?_⟩
        rcases hinformed.result r hr with hack | ⟨e', he', -⟩
        · exact .inl hack
        · rw [hnone] at he'
          cases he'
      · cases hnext
  | select i c =>
      simp only [next] at hnext
      split at hnext
      · rename_i w hw
        obtain ⟨-, hbind⟩ := Option.ite_none_right_eq_some.mp hnext
        obtain ⟨dc, hdc, hmap⟩ := Option.bind_eq_some_iff.mp hbind
        obtain ⟨r, hr, rfl⟩ := Option.map_eq_some_iff.mp hmap
        have hinformed := h.waiters w (List.mem_of_getElem? hw)
        refine h.set ⟨hinformed.target, fun r' hr' => ?_⟩
        cases hr'
        rcases Waiter.take_cases hr with ⟨hdone, rfl⟩ | hexpired
        · exact .inl ⟨dc.ack, ⟨dc, hdc, hdone, rfl⟩, rfl⟩
        · exact .inr hexpired
      · cases hnext
  | acked p =>
      obtain ⟨-, hmap⟩ := Option.ite_none_right_eq_some.mp hnext
      obtain ⟨dc, hdc, rfl⟩ := Option.map_eq_some_iff.mp hmap
      refine ⟨h.accounted, h.outcomes, fun w hw => { h.waiters w hw with }, fun q hq => ?_⟩
      rcases List.mem_append.mp hq with hq | hq
      · exact h.polls q hq
      · simp only [List.mem_singleton, Prod.mk.injEq, DeferredConfirmation.acked] at hq
        obtain ⟨rfl, hack⟩ := hq
        split at hack
        · exact ⟨dc, hdc, ‹_›, hack.symm⟩
        · cases hack

/-- Once the outcome is there, the call that waits for it can return it. -/
theorem exists_select {i : ℕ} {w : Waiter} (hw : s.waiters[i]? = some w)
    (hwaits : w.result = none) {ack : Bool} (hsettled : s.Settled w.target ack) :
    s.next frameSize id (.select i .done) = some { s with
      waiters := s.waiters.set i { w with result := some (ack, none) } } := by
  obtain ⟨dc, hdc, hdone, rfl⟩ := hsettled
  have hwait : dc.wait = some dc.ack := if_pos hdone
  have htake : w.take dc .done = some (dc.ack, none) := by
    cases hcontext : w.hasContext <;>
      simp [Waiter.take, hcontext, DeferredConfirmation.waitContext, hwait]
  simp [next, hw, hwaits, hdc, htake]

theorem Valid.settled_of_destroyed (h : s.Valid) (hdestroyed : s.channel.destroyed = true)
    {p : ℕ} (hp : p ∈ s.channel.returned) : ∃ ack, s.Settled p ack := by
  have hpending : ∀ t, s.channel.deferred.confirmations.lookup t ≠ some p := by
    intro t ht
    -- only a publish in progress is left pending, and it has not returned
    obtain ⟨x, hx, hdc⟩ := (h.accounted.swept hdestroyed).2 t p ht
    exact (h.accounted.holder x hx p hdc).2.1 hp
  obtain ⟨dc, hdc, hcloses⟩ :=
    h.outcomes.tracked.closed_of_not_pending (h.accounted.returned p hp) hpending
  exact ⟨dc.ack, dc, hdc, by simp [DeferredConfirmation.isDone, hcloses], rfl⟩

theorem valid_start (link : Link) (senders : List Sender) :
    (start link senders : DeferredWaits rt).Valid where
  accounted := ChannelState.accounted_start link senders
  outcomes :=
    { tracked := (ChannelState.accounted_start link senders : ChannelState.Accounted _).tracked
      pending := fun t p dc _ hdc => by
        simp [start, ChannelState.start, ChannelState.deferred, Confirms.newConfirms] at hdc
      acked := fun p dc hdc => by
        simp [start, ChannelState.start, ChannelState.deferred, Confirms.newConfirms] at hdc }
  waiters := by simp [start]
  polls := by simp [start]

/-! ## Runs -/

/-- In every run on a channel in confirm mode, calls that wait for the same publishing return
the same outcome, with or without a context, and `Acked` says yes only if that outcome is
positive. A positive outcome comes from an acknowledgement by the server. An error is
returned only by a call whose context is done. After `shutdown` no call has to wait. -/
theorem waits_agree {link : Link} {senders : List Sender} {as : List (Action rt)}
    (h : Run (next frameSize id) (fun _ _ => True) (start link senders) as s) :
    (∀ w ∈ s.waiters, ∀ v ∈ s.waiters, ∀ ack ack', w.result = some (ack, none) →
      v.result = some (ack', none) → w.target = v.target → ack = ack') ∧
    (∀ w ∈ s.waiters, ∀ ack, w.result = some (ack, none) →
      (w.target, true) ∈ s.polls → ack = true) ∧
    (∀ p, s.Settled p true → ∃ dc, s.channel.deferred.heap[p]? = some dc ∧
      ∃ e ∈ s.history, e.Covers dc.deliveryTag ∧ e.confirmed.ack = true) ∧
    (∀ w ∈ s.waiters, ∀ ack e, w.result = some (ack, some e) →
      ack = false ∧ w.ctxErr = some e) ∧
    (∀ w ∈ s.waiters, ∀ ack, w.result = some (ack, none) → s.Settled w.target ack) ∧
    (s.channel.destroyed = true → ∀ i w, s.waiters[i]? = some w → w.result = none →
      ∃ ack, s.next frameSize id (.select i .done) = some { s with
        waiters := s.waiters.set i { w with result := some (ack, none) } }) := by
  have hvalid : s.Valid :=
    h.invariant (valid_start link senders) fun _ _ _ hs _ hnext => hs.step hnext
  have houtcome : ∀ w ∈ s.waiters, ∀ ack, w.result = some (ack, none) →
      s.Settled w.target ack := by
    intro w hw ack hresult
    rcases (hvalid.waiters w hw).result _ hresult with ⟨ack', hsettled, heq⟩ | ⟨e, -, heq⟩
    · cases heq
      exact hsettled
    · cases heq
  refine ⟨?_, ?_, ?_, ?_, houtcome, ?_⟩
  · intro w hw v hv ack ack' hresult hresult' htarget
    exact (houtcome w hw ack hresult).unique (htarget ▸ houtcome v hv ack' hresult')
  · intro w hw ack hresult hpoll
    exact (houtcome w hw ack hresult).unique (hvalid.polls _ hpoll)
  · rintro p ⟨dc, hdc, -, hack⟩
    exact ⟨dc, hdc, hvalid.outcomes.acked p dc hdc hack⟩
  · intro w hw ack e hresult
    rcases (hvalid.waiters w hw).result _ hresult with ⟨ack', -, heq⟩ | ⟨e', he', heq⟩
    · cases heq
    · cases heq
      exact ⟨rfl, he'⟩
  · intro hdestroyed i w hw hwaits
    have hreturned := (hvalid.waiters w (List.mem_of_getElem? hw)).target
    obtain ⟨ack, hsettled⟩ := hvalid.settled_of_destroyed hdestroyed hreturned
    exact ⟨ack, exists_select hw hwaits hsettled⟩

/-- One call waits with a context that expires and one without; then the server acknowledges
the publishing. -/
theorem waits_agree_expired :
    let ok : Transport := ⟨true, true⟩
    let expired : GoError := .text "context deadline exceeded"
    ∃ s : DeferredWaits .exact,
      Run (next 0 1) (fun _ _ => True) (start ⟨false, false, false, []⟩ [])
        [.channel (.lock (.publish ChannelState.emptyPublishing)), .channel (.step ok),
          .channel (.step ok), .channel (.step ok), .channel (.step ok), .channel (.step ok),
          .channel (.step ok), .channel (.step ok), .channel .unlock, .wait 0 true,
          .wait 0 false, .acked 0, .expire 0 expired,
          .channel (.serverConfirm (.one ⟨1, true⟩)), .select 0 .context, .select 1 .done,
          .acked 0] s ∧
      s.waiters = [⟨0, true, some expired, some (false, some expired)⟩,
        ⟨0, false, none, some (true, none)⟩] ∧
      s.polls = [(0, false), (0, true)] ∧ s.Settled 0 true := by
  intro ok expired
  have hrun : ∃ s : DeferredWaits .exact,
      Run (next 0 1) (fun _ _ => True) (start ⟨false, false, false, []⟩ [])
        [.channel (.lock (.publish ChannelState.emptyPublishing)), .channel (.step ok),
          .channel (.step ok), .channel (.step ok), .channel (.step ok), .channel (.step ok),
          .channel (.step ok), .channel (.step ok), .channel .unlock, .wait 0 true,
          .wait 0 false, .acked 0, .expire 0 expired,
          .channel (.serverConfirm (.one ⟨1, true⟩)), .select 0 .context, .select 1 .done,
          .acked 0] s ∧
      s.waiters = [⟨0, true, some expired, some (false, some expired)⟩,
        ⟨0, false, none, some (true, none)⟩] ∧
      s.polls = [(0, false), (0, true)] := ⟨_, .of_exec rfl, rfl, rfl⟩
  obtain ⟨s, hrun, hwaiters, hpolls⟩ := hrun
  refine ⟨s, hrun, hwaiters, hpolls, ?_⟩
  exact (waits_agree hrun).2.2.2.2.1 ⟨0, false, none, some (true, none)⟩ (by simp [hwaiters])
    true rfl

end DeferredWaits

end Amqp091

import Amqp091.Verification.Contexts.Calls

/-! # A context ends its own consumer only

As long as a tag is not taken again while the goroutine of an earlier consumer may act on
it, and requests on the channel wait for each other. -/

namespace Amqp091.ConsumerContexts

open ByteCodec Positions Transition

variable {δ : Type} {s s' : ConsumerContexts δ} {i k : ℕ} {tag : Bytes} {u : Subscription}

/-! ## The consumers themselves -/

/-- Consumers are taken out of the map, or nothing happens to it. -/
theorem Valid.setSubs (h : s.Valid) {subs : Consumers δ} (closings : List (CloseCause × ℕ))
    (hsubs : subs.Valid) (htags : subs.tags = s.subs.tags)
    (hshrink : ∀ t j, subs.chans.lookup t = some j → s.subs.chans.lookup t = some j)
    (hkept : ∀ t j, s.subs.chans.lookup t = some j →
      subs.chans.lookup t = some j ∨ ∃ cause, (cause, j) ∈ closings)
    (hclosings : ∀ i j, (.context i, j) ∈ closings → s.Ended i ∧ j = i) :
    Valid { s with subs := subs, closings := s.closings ++ closings } := by
  have honly : ∀ t i, s.Only t i →
      Only { s with subs := subs, closings := s.closings ++ closings } t i :=
    fun t i hi j hj => hi j (hshrink t j hj)
  refine { h with
    subs := hsubs
    tags := h.tags.trans htags.symm
    kept := ?_
    watching := fun i u hu hended hstage => honly _ _ (h.watching i u hu hended hstage)
    watcher := fun call hcall i hi =>
      (h.watcher call hcall i hi).imp_right fun hcalls hstage => honly _ _ (hcalls hstage)
    closings := ?_ }
  · intro j u hu hnone
    have hold := h.kept j u hu fun cause hcause => hnone cause (List.mem_append_left _ hcause)
    rcases hkept _ j hold with hnew | ⟨cause, hcause⟩
    · exact hnew
    · exact absurd (List.mem_append_right _ hcause) (hnone cause)
  · intro i j hij
    rcases List.mem_append.mp hij with hij | hij
    · exact h.closings i j hij
    · exact hclosings i j hij

theorem mem_closing {cause : CloseCause} {x : CloseCause × ℕ} :
    x ∈ s.closing cause tag ↔ x.1 = cause ∧ s.subs.chans.lookup tag = some x.2 := by
  rw [closing]
  split
  · next j hj =>
    rw [hj, List.mem_singleton, Prod.ext_iff, Option.some.injEq, eq_comm (a := j)]
  · next hnone => simp [hnone]

/-- `consumers.cancel` closes the consumer of a context only for the context. -/
theorem Valid.cancelConsumer (h : s.Valid) {cause : CloseCause}
    (hcause : ∀ i, cause = .context i → s.Ended i ∧ s.Only tag i)
    (hnext : s.cancelConsumer cause tag = some s') : s'.Valid := by
  obtain ⟨subs, hsubs, rfl⟩ := Option.map_eq_some_iff.mp hnext
  have hvalid := h.subs.step hsubs
  obtain ⟨-, ⟨⟩⟩ := Option.ite_none_right_eq_some.mp hsubs
  refine h.setSubs _ hvalid (Consumers.tags_cancel _ _) ?_ ?_ ?_
  · intro t j hj
    by_cases ht : t = tag
    · subst ht
      rw [Consumers.lookup_cancel] at hj
      cases hj
    · rwa [Consumers.lookup_cancel_of_ne ht] at hj
  · intro t j hj
    by_cases ht : t = tag
    · subst ht
      exact .inr ⟨cause, mem_closing.mpr ⟨rfl, hj⟩⟩
    · exact .inl (by rwa [Consumers.lookup_cancel_of_ne ht])
  · intro i j hij
    obtain ⟨heq, hj⟩ := mem_closing.mp hij
    obtain ⟨hended, honly⟩ := hcause i heq.symm
    exact ⟨hended, honly j hj⟩

theorem Valid.shutdown (h : s.Valid) (hnext : s.shutdown = some s') : s'.Valid := by
  obtain ⟨subs, hsubs, rfl⟩ := Option.map_eq_some_iff.mp hnext
  have hvalid := h.subs.step hsubs
  obtain ⟨-, ⟨⟩⟩ := Option.ite_none_right_eq_some.mp hsubs
  refine h.setSubs _ hvalid (Consumers.tags_close _) ?_ ?_ ?_
  · intro t j hj
    rw [Consumers.lookup_close] at hj
    cases hj
  · intro t j hj
    exact .inr ⟨.shutdown, List.mem_map.mpr ⟨⟨t, j⟩, AList.mem_lookup_iff.mp hj, rfl⟩⟩
  · intro i j hij
    obtain ⟨e, -, heq⟩ := List.mem_map.mp hij
    cases heq

theorem Valid.deliver (h : s.Valid) {a : Delivering δ} {subs : Consumers δ}
    (hsubs : s.subs.next a.action = some subs) : Valid { s with subs := subs } := by
  obtain ⟨htags, hchans⟩ := Consumers.deliver_frame hsubs (by cases a <;> nofun)
    (by cases a <;> nofun) (by cases a <;> nofun)
  have hset := h.setSubs [] (h.subs.step hsubs) htags
    (fun t j hj => by rwa [hchans] at hj) (fun t j hj => .inl (by rwa [hchans])) nofun
  rwa [List.append_nil] at hset

theorem Valid.cancelFailed (h : s.Valid) (hnext : s.cancelFailed i = some s') : s'.Valid := by
  unfold ConsumerContexts.cancelFailed at hnext
  split at hnext
  · next u hu =>
    split at hnext
    · refine (h.setFinished hu).cancelConsumer (fun w hw => ?_) hnext
      cases hw
    · next w hfailing => exact absurd hfailing (h.failing i u w hu)
    · cases hnext
  · cases hnext

theorem Valid.finishCancel (h : s.Valid) (hnext : s.finishCancel k = some s') : s'.Valid := by
  unfold ConsumerContexts.finishCancel at hnext
  split at hnext
  · next call hcall =>
    have hmem := List.mem_of_getElem? hcall
    split at hnext
    · next tag hreplied =>
      refine (h.setCallFinished hcall).cancelConsumer (fun i hi => ?_) hnext
      have hwatcher : call.watcher = some i := by
        rw [CancelCall.cause] at hi
        split at hi
        · next heq =>
          cases hi
          exact heq
        · cases hi
      rw [h.replied call hmem tag hreplied]
      obtain ⟨hended, honly⟩ := h.watcher call hmem i hwatcher
      exact ⟨hended, honly (by simp [hreplied])⟩
    · cases hnext
  · cases hnext

/-- Another consumer is added. -/
theorem ended_append_iff {subs : Consumers δ} {v : Subscription}
    {closings : List (CloseCause × ℕ)} {j : ℕ} (hj : j < s.subscriptions.length) :
    Ended { s with
      subs := subs
      subscriptions := s.subscriptions ++ [v]
      closings := closings } j ↔ s.Ended j := by
  simp only [Ended, List.getElem?_append_left hj]

/-- A new consumer takes a tag that no goroutine is about to cancel. -/
theorem Valid.consume (h : s.Valid) {context : Option ℕ} {noWait : Bool}
    (hscoped : s.Scoped (.consume tag context noWait))
    (hnext : s.consume tag context noWait = some s') : s'.Valid := by
  obtain ⟨subs, hsubs, rfl⟩ := Option.map_eq_some_iff.mp hnext
  have hvalid := h.subs.step hsubs
  obtain ⟨-, ⟨⟩⟩ := Option.ite_none_right_eq_some.mp hsubs
  set s' : ConsumerContexts δ := { s with
    subs := s.subs.add tag 0
    subscriptions := s.subscriptions ++ [⟨tag, context, noWait, .added⟩]
    closings := s.closings ++ s.closing .replaced tag } with hs'
  have hlength : s.subs.tags.length = s.subscriptions.length := by
    rw [← h.tags, List.length_map]
  have hget : ∀ j u, s'.subscriptions[j]? = some u → s.subscriptions[j]? = some u ∨
      j = s.subscriptions.length ∧ u = ⟨tag, context, noWait, .added⟩ :=
    fun j u => getElem?_concat_cases
  have hended : ∀ j, s.Ended j → s'.Ended j := by
    intro j hj
    have hlt : j < s.subscriptions.length := by
      obtain ⟨u, n, hu, -⟩ := hj
      exact (List.getElem?_eq_some_iff.mp hu).1
    exact (ended_append_iff hlt).mpr hj
  have honly : ∀ t j, t ≠ tag → s.Only t j → s'.Only t j := by
    intro t j ht hj j' hj'
    exact hj j' ((Consumers.lookup_add_of_ne 0 ht).symm.trans hj')
  refine {
    subs := hvalid
    tags := ?_
    kept := ?_
    expected := ?_
    failing := ?_
    watching := ?_
    replied := h.replied
    watcher := ?_
    sent := fun i j hij => ⟨hended i (h.sent i j hij).1, (h.sent i j hij).2⟩
    closings := ?_ }
  · rw [hs', List.map_append, h.tags, Consumers.tags_add]
    rfl
  · intro j u hu hnone
    rcases hget j u hu with hu | ⟨rfl, rfl⟩
    · have hold := h.kept j u hu fun cause hcause => hnone cause (List.mem_append_left _ hcause)
      by_cases htag : u.tag = tag
      · rw [htag] at hold
        exact absurd (List.mem_append_right _ (mem_closing.mpr ⟨rfl, hold⟩)) (hnone .replaced)
      · exact (Consumers.lookup_add_of_ne 0 htag).trans hold
    · rw [← hlength]
      exact Consumers.lookup_add _ _ _
  · intro r reply hr
    refine h.expected r reply ?_
    cases r with
    | cancel k => exact hr
    | consumer j =>
        obtain ⟨u, hu, hwaiting⟩ := Option.bind_eq_some_iff.mp hr
        rcases hget j u hu with hu | ⟨-, rfl⟩
        · exact Option.bind_eq_some_iff.mpr ⟨u, hu, hwaiting⟩
        · cases hwaiting
  · intro j u w hu
    rcases hget j u hu with hu | ⟨-, rfl⟩
    · exact h.failing j u w hu
    · nofun
  · intro j u hu hj hstage
    rcases hget j u hu with hu | ⟨rfl, rfl⟩
    · have hj := (ended_append_iff (List.getElem?_eq_some_iff.mp hu).1).mp hj
      refine honly _ _ (fun htag => hstage (hscoped.1 j u hu htag hj)) ?_
      exact h.watching j u hu hj hstage
    · intro j hj
      rw [← hlength]
      exact Option.some.inj (hj.symm.trans (Consumers.lookup_add _ _ _))
  · intro call hcall i hi
    obtain ⟨hi', hcalls⟩ := h.watcher call hcall i hi
    refine ⟨hended i hi', fun hstage => honly _ _ (fun htag => hstage ?_) (hcalls hstage)⟩
    exact hscoped.2 call hcall htag (by simp [hi])
  · intro i j hij
    rcases List.mem_append.mp hij with hij | hij
    · exact ⟨hended i (h.closings i j hij).1, (h.closings i j hij).2⟩
    · cases (mem_closing.mp hij).1

theorem Valid.endContext (h : s.Valid) {n : ℕ} (hscoped : s.Scoped (.endContext n)) :
    Valid { s with ended := n :: s.ended } := by
  have hended : ∀ i, s.Ended i → Ended { s with ended := n :: s.ended } i :=
    fun i ⟨u, m, hu, hcontext, hm⟩ => ⟨u, m, hu, hcontext, List.mem_cons_of_mem n hm⟩
  refine { h with
    watching := ?_
    watcher := fun call hcall i hi =>
      ⟨hended i (h.watcher call hcall i hi).1, (h.watcher call hcall i hi).2⟩
    sent := fun i j hij => ⟨hended i (h.sent i j hij).1, (h.sent i j hij).2⟩
    closings := fun i j hij => ⟨hended i (h.closings i j hij).1, (h.closings i j hij).2⟩ }
  intro i u hu hi hstage
  obtain ⟨u', m, hu', hcontext, hm⟩ := hi
  have heq : u' = u := Option.some.inj (hu'.symm.trans hu)
  subst heq
  rcases List.mem_cons.mp hm with rfl | hm
  · exact hscoped i u' hu hcontext hstage
  · exact h.watching i u' hu ⟨u', m, hu, hcontext, hm⟩ hstage

theorem Valid.step (h : s.Valid) {a : Action δ} (hscoped : s.Scoped a)
    (hnext : s.next a = some s') : s'.Valid := by
  cases a with
  | consume tag context noWait => exact h.consume hscoped hnext
  | sendConsume i => exact h.sendConsume hscoped hnext
  | takeConsume i => exact h.takeConsume hnext
  | failConsume i => exact h.failConsume hnext
  | cancelFailed i => exact h.cancelFailed hnext
  | leave i => exact h.leave hnext
  | wake i => exact h.wake hnext
  | cancel tag noWait =>
      cases hnext
      exact h.addCall rfl nofun
  | sendCancel k => exact h.sendCancel hscoped hnext
  | takeCancel k => exact h.takeCancel hnext
  | failCancel k => exact h.failCancel hnext
  | finishCancel k => exact h.finishCancel hnext
  | serverCancel tag =>
      refine h.cancelConsumer (fun i hi => ?_) hnext
      cases hi
  | endContext n =>
      cases hnext
      exact h.endContext hscoped
  | shutdown => exact h.shutdown hnext
  | deliver a =>
      obtain ⟨subs, hsubs, rfl⟩ := Option.map_eq_some_iff.mp hnext
      exact h.deliver hsubs

theorem valid_start : (start : ConsumerContexts δ).Valid where
  subs := Consumers.valid_makeConsumers
  tags := rfl
  kept := nofun
  expected := by
    intro r reply hr
    cases r with
    | consumer i => cases hr
    | cancel k => cases hr
  failing := nofun
  watching := nofun
  replied := nofun
  watcher := nofun
  sent := nofun
  closings := nofun

/-- A consumer that nobody has closed is registered, and its channels are open. -/
theorem Valid.open_of_kept (h : s.Valid) {j : ℕ} (hu : s.subscriptions[j]? = some u)
    (hnone : ∀ cause, (cause, j) ∉ s.closings) :
    s.subs.chans.lookup u.tag = some j ∧ ∃ c, s.subs.consumers[j]? = some c ∧
      c.input.isClosed = false ∧ (s.subs.closed = false → c.output.isClosed = false) := by
  have hkept := h.kept j u hu hnone
  obtain ⟨c, hc, -, hopen⟩ := h.subs.open_of_lookup hkept
  refine ⟨hkept, c, hc, hopen, fun hclosed => ?_⟩
  rw [Bool.eq_false_iff]
  intro houtput
  rw [(h.subs.drained hclosed hc houtput).1] at hopen
  cases hopen

/-- In every run that meets the condition, what the goroutine of a consumer cancels is the
consumer that was started with the context that has ended. A consumer is in place until
something is recorded as having closed it. -/
theorem scoped_contexts {as : List (Action δ)} (hrun : Run next Scoped start as s) :
    (∀ i j, (i, j) ∈ s.cancelsSent → s.Ended i ∧ ∀ j', j = some j' → j' = i) ∧
    (∀ i j, (.context i, j) ∈ s.closings → s.Ended i ∧ j = i) ∧
    ∀ (j : ℕ) (u : Subscription), s.subscriptions[j]? = some u →
      (∀ cause, (cause, j) ∉ s.closings) →
      s.subs.chans.lookup u.tag = some j ∧ ∃ c, s.subs.consumers[j]? = some c ∧
        c.input.isClosed = false ∧ (s.subs.closed = false → c.output.isClosed = false) := by
  have hvalid : s.Valid :=
    hrun.invariant valid_start fun _ _ _ h hscoped hnext => h.step hscoped hnext
  exact ⟨hvalid.sent, hvalid.closings, fun j u hu hnone => hvalid.open_of_kept hu hnone⟩

theorem scoped_consume {context : Option ℕ} {noWait : Bool}
    (hsubscriptions : s.subscriptions.all (·.stage = .finished) = true)
    (hcalls : s.calls.all (·.stage = .finished) = true) :
    s.Scoped (.consume tag context noWait) := by
  refine ⟨fun i u hu _ _ => ?_, fun call hcall _ _ => ?_⟩
  · simpa using List.all_eq_true.mp hsubscriptions u (List.mem_of_getElem? hu)
  · simpa using List.all_eq_true.mp hcalls call hcall

theorem scoped_endContext {n : ℕ} (hsubscriptions : s.subscriptions = [u])
    (hlookup : s.subs.chans.lookup u.tag = some 0) : s.Scoped (.endContext n) := by
  intro i v hv _ _ j hj
  rw [hsubscriptions] at hv
  obtain ⟨hlt, rfl⟩ := List.getElem?_eq_some_iff.mp hv
  have hi : i = 0 := by simpa using hlt
  subst hi
  exact Option.some.inj (hj.symm.trans hlookup)

/-- The context of the first consumer ends, and a second consumer takes the tag when the
goroutine of the first one is done. -/
theorem scoped_contexts_reuse :
    ∃ s : ConsumerContexts Unit, Run next Scoped start
        [.consume [97] (some 0) false, .sendConsume 0, .takeConsume 0, .endContext 0, .wake 0,
          .sendCancel 0, .takeCancel 0, .finishCancel 0, .consume [97] none false,
          .sendConsume 1, .takeConsume 1] s ∧
      s.cancelsSent = [(0, some 0)] ∧ s.closings = [(.context 0, 0)] ∧
      s.subs.chans.lookup [97] = some 1 := by
  have hrun : Run next Scoped (start : ConsumerContexts Unit)
      [.consume [97] (some 0) false, .sendConsume 0, .takeConsume 0, .endContext 0, .wake 0,
        .sendCancel 0, .takeCancel 0, .finishCancel 0, .consume [97] none false,
        .sendConsume 1, .takeConsume 1] _ :=
    .cons (scoped_consume rfl rfl) rfl (.cons (fun _ _ _ => rfl) rfl (.cons trivial rfl
      (.cons (scoped_endContext rfl rfl) rfl (.cons trivial rfl (.cons (fun _ _ _ => rfl) rfl
      (.cons trivial rfl (.cons trivial rfl (.cons (scoped_consume rfl rfl) rfl
      (.cons (fun _ _ _ => rfl) rfl (.cons trivial rfl (.nil _)))))))))))
  refine ⟨_, hrun, rfl, rfl, ((scoped_contexts hrun).2.2 1 _ rfl fun cause hcause => ?_).1⟩
  cases List.mem_singleton.mp hcause

/-- The tag is taken again while the goroutine of the first consumer waits, and its context
ends. The second consumer is cancelled. -/
theorem later_consumer_cancelled :
    ∃ s : ConsumerContexts Unit, Run next (fun _ _ => True) start
        [.consume [97] (some 0) false, .sendConsume 0, .takeConsume 0, .cancel [97] false,
          .sendCancel 0, .takeCancel 0, .finishCancel 0, .consume [97] none false,
          .sendConsume 1, .takeConsume 1, .endContext 0, .wake 0, .sendCancel 1, .takeCancel 1,
          .finishCancel 1] s ∧
      s.cancelsSent = [(0, some 1)] ∧ (.context 0, 1) ∈ s.closings ∧
      s.subs.chans.lookup [97] = none :=
  ⟨_, .cons trivial rfl (.cons trivial rfl (.cons trivial rfl (.cons trivial rfl
    (.cons trivial rfl (.cons trivial rfl (.cons trivial rfl (.cons trivial rfl
    (.cons trivial rfl (.cons trivial rfl (.cons trivial rfl (.cons trivial rfl
    (.cons trivial rfl (.cons trivial rfl (.cons trivial rfl (.nil _))))))))))))))),
    rfl, List.mem_cons_of_mem _ List.mem_cons_self, rfl⟩

/-- No tag is taken twice, but a call of `Consume` is waiting when the goroutine sends its
`basic.cancel`. Each takes the other's reply, and the new consumer is cancelled. -/
theorem consume_takes_reply_of_cancel :
    ∃ s : ConsumerContexts Unit, Run next (fun _ _ => True) start
        [.consume [97] (some 0) false, .sendConsume 0, .takeConsume 0, .consume [98] none false,
          .sendConsume 1, .endContext 0, .wake 0, .sendCancel 0, .takeCancel 0, .takeConsume 1,
          .cancelFailed 1] s ∧
      s.closings = [(.context 0, 1)] :=
  ⟨_, .cons trivial rfl (.cons trivial rfl (.cons trivial rfl (.cons trivial rfl
    (.cons trivial rfl (.cons trivial rfl (.cons trivial rfl (.cons trivial rfl
    (.cons trivial rfl (.cons trivial rfl (.cons trivial rfl (.nil _))))))))))), rfl⟩

end Amqp091.ConsumerContexts

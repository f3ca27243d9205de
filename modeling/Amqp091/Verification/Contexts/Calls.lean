import Amqp091.Verification.Consumers.Registration
import Amqp091.Algorithm.Contexts
import Amqp091.Shared.Transition

/-! # Calls of `Consume` and `Cancel` while contexts end -/

namespace Amqp091.ConsumerContexts

open ByteCodec Positions

variable {δ : Type} {s s' : ConsumerContexts δ} {i k : ℕ} {tag : Bytes} {u : Subscription}
  {call : CancelCall}

/-- No consumer but `i` is registered under the tag. -/
def Only (s : ConsumerContexts δ) (tag : Bytes) (i : ℕ) : Prop :=
  ∀ j, s.subs.chans.lookup tag = some j → j = i

/-- The context that consumer `i` was started with has ended. -/
def Ended (s : ConsumerContexts δ) (i : ℕ) : Prop :=
  ∃ u n, s.subscriptions[i]? = some u ∧ u.context = some n ∧ n ∈ s.ended

/-- The reply that a call waits for at `rpc`. -/
def expects (s : ConsumerContexts δ) : Requester → Option ConsumerReply
  | .consumer i =>
      (s.subscriptions[i]?).bind fun u =>
        if u.stage = .waiting then some (.consumeOk u.tag) else none
  | .cancel k =>
      (s.calls[k]?).bind fun call =>
        if call.stage = .waiting then some (.cancelOk call.tag) else none

/-- A tag is taken again when no goroutine of an earlier consumer with it has anything left
to do because its context has ended. A context ends when no other consumer has taken the tag
of one that was started with it. A request that waits for its reply is sent when no other
reply is outstanding. -/
def Scoped (s : ConsumerContexts δ) : Action δ → Prop
  | .consume tag _ _ =>
      (∀ i u, s.subscriptions[i]? = some u → u.tag = tag → s.Ended i → u.stage = .finished) ∧
        ∀ call ∈ s.calls, call.tag = tag → call.watcher ≠ none → call.stage = .finished
  | .endContext n =>
      ∀ i u, s.subscriptions[i]? = some u → u.context = some n → u.stage ≠ .finished →
        s.Only u.tag i
  | .sendConsume i => ∀ u, s.subscriptions[i]? = some u → u.noWait = false → s.replies = []
  | .sendCancel k => ∀ call, s.calls[k]? = some call → call.noWait = false → s.replies = []
  | _ => True

structure Valid (s : ConsumerContexts δ) : Prop where
  subs : s.subs.Valid
  tags : s.subscriptions.map (·.tag) = s.subs.tags
  kept : ∀ j u, s.subscriptions[j]? = some u → (∀ cause, (cause, j) ∉ s.closings) →
    s.subs.chans.lookup u.tag = some j
  expected : ∀ r reply, s.expects r = some reply → s.replies = [(r, reply)]
  failing : ∀ (i : ℕ) (u : Subscription) w, s.subscriptions[i]? = some u →
    u.stage ≠ .failing (some w)
  watching : ∀ i u, s.subscriptions[i]? = some u → s.Ended i → u.stage ≠ .finished →
    s.Only u.tag i
  replied : ∀ call ∈ s.calls, ∀ tag, call.stage = .replied tag → tag = call.tag
  watcher : ∀ call ∈ s.calls, ∀ i, call.watcher = some i →
    s.Ended i ∧ (call.stage ≠ .finished → s.Only call.tag i)
  sent : ∀ i j, (i, j) ∈ s.cancelsSent → s.Ended i ∧ ∀ j', j = some j' → j' = i
  closings : ∀ i j, (.context i, j) ∈ s.closings → s.Ended i ∧ j = i

/-! ## One call moves on -/

theorem getElem?_setStage {stage : ConsumeStage} {j : ℕ} {v : Subscription}
    (hv : (s.setStage i u stage).subscriptions[j]? = some v) :
    (j = i ∧ v = { u with stage := stage }) ∨ (j ≠ i ∧ s.subscriptions[j]? = some v) :=
  getElem?_set_cases hv

theorem ended_setStage (hu : s.subscriptions[i]? = some u) (stage : ConsumeStage) (j : ℕ) :
    (s.setStage i u stage).Ended j ↔ s.Ended j := by
  have hlt := (List.getElem?_eq_some_iff.mp hu).1
  simp only [Ended, setStage, List.getElem?_set, hlt, if_true]
  by_cases hij : i = j
  · subst hij
    simp [hu]
  · simp [hij]

theorem expects_setStage (hu : s.subscriptions[i]? = some u) (stage : ConsumeStage)
    (r : Requester) : (s.setStage i u stage).expects r =
      if r = .consumer i then
        if stage = .waiting then some (.consumeOk u.tag) else none
      else s.expects r := by
  have hlt := (List.getElem?_eq_some_iff.mp hu).1
  cases r with
  | cancel k => simp [expects, setStage]
  | consumer j =>
      by_cases hij : i = j
      · subst hij
        simp [expects, setStage, hlt]
      · have hne : (Requester.consumer j) ≠ .consumer i := fun h => hij (by cases h; rfl)
        simp [expects, setStage, hij, hne]

/-- `Consume`, or the goroutine that it starts, moves on. -/
theorem Valid.setStage (h : s.Valid) (hu : s.subscriptions[i]? = some u) {stage : ConsumeStage}
    (replies : List (Requester × ConsumerReply)) (hfailing : ∀ w, stage ≠ .failing (some w))
    (hstage : u.stage = .finished → stage = .finished)
    (hexpected : ∀ r reply, (s.setStage i u stage).expects r = some reply →
      replies = [(r, reply)]) :
    Valid { s.setStage i u stage with replies := replies } := by
  have hended := ended_setStage hu stage
  have htags : (s.setStage i u stage).subscriptions.map (·.tag) = s.subscriptions.map (·.tag) :=
    map_set_eq hu rfl
  refine {
    subs := h.subs
    tags := htags.trans h.tags
    kept := ?_
    expected := hexpected
    failing := ?_
    watching := ?_
    replied := h.replied
    watcher := fun call hcall i hi =>
      ⟨(hended i).mpr (h.watcher call hcall i hi).1, (h.watcher call hcall i hi).2⟩
    sent := fun i j hij => ⟨(hended i).mpr (h.sent i j hij).1, (h.sent i j hij).2⟩
    closings := fun i j hij => ⟨(hended i).mpr (h.closings i j hij).1, (h.closings i j hij).2⟩ }
  · intro j v hv hnone
    rcases getElem?_setStage hv with ⟨rfl, rfl⟩ | ⟨-, hv⟩
    · exact h.kept j u hu hnone
    · exact h.kept j v hv hnone
  · intro j v w hv
    rcases getElem?_setStage hv with ⟨-, rfl⟩ | ⟨-, hv⟩
    · exact hfailing w
    · exact h.failing j v w hv
  · intro j v hv hj hne
    have hended' := (hended j).mp hj
    rcases getElem?_setStage hv with ⟨rfl, rfl⟩ | ⟨-, hv⟩
    · exact h.watching j u hu hended' fun heq => hne (hstage heq)
    · exact h.watching j v hv hended' hne

theorem mem_setCall {stage : CancelStage} {c : CancelCall}
    (hc : c ∈ (s.setCall k call stage).calls) : c ∈ s.calls ∨ c = { call with stage := stage } :=
  List.mem_or_eq_of_mem_set hc

theorem expects_setCall (hcall : s.calls[k]? = some call) (stage : CancelStage)
    (r : Requester) : (s.setCall k call stage).expects r =
      if r = .cancel k then
        if stage = .waiting then some (.cancelOk call.tag) else none
      else s.expects r := by
  have hlt := (List.getElem?_eq_some_iff.mp hcall).1
  cases r with
  | consumer i => simp [expects, setCall]
  | cancel j =>
      by_cases hkj : k = j
      · subst hkj
        simp [expects, setCall, hlt]
      · have hne : (Requester.cancel j) ≠ .cancel k := fun h => hkj (by cases h; rfl)
        simp [expects, setCall, hkj, hne]

/-- `Cancel` moves on. -/
theorem Valid.setCall (h : s.Valid) (hcall : s.calls[k]? = some call) {stage : CancelStage}
    (replies : List (Requester × ConsumerReply))
    (hreplied : ∀ tag, stage = .replied tag → tag = call.tag)
    (hstage : call.stage = .finished → stage = .finished)
    (hexpected : ∀ r reply, (s.setCall k call stage).expects r = some reply →
      replies = [(r, reply)]) :
    Valid { s.setCall k call stage with replies := replies } := by
  have hmem := List.mem_of_getElem? hcall
  refine { h with expected := hexpected, replied := ?_, watcher := ?_ }
  · intro c hc
    rcases mem_setCall hc with hc | rfl
    · exact h.replied c hc
    · exact hreplied
  · intro c hc i hi
    rcases mem_setCall hc with hc | rfl
    · exact h.watcher c hc i hi
    · obtain ⟨hended, honly⟩ := h.watcher call hmem i hi
      exact ⟨hended, fun hne => honly fun heq => hne (hstage heq)⟩

/-- `Cancel` is called. -/
theorem Valid.addCall (h : s.Valid) (hsending : call.stage = .sending)
    (hwatcher : ∀ i, call.watcher = some i → s.Ended i ∧ s.Only call.tag i) :
    Valid { s with calls := s.calls ++ [call] } := by
  refine { h with expected := ?_, replied := ?_, watcher := ?_ }
  · intro r reply hr
    refine h.expected r reply ?_
    cases r with
    | consumer i => exact hr
    | cancel k =>
        obtain ⟨c, hc, hwaiting⟩ := Option.bind_eq_some_iff.mp hr
        rcases getElem?_concat_cases hc with hc | ⟨-, rfl⟩
        · exact Option.bind_eq_some_iff.mpr ⟨c, hc, hwaiting⟩
        · simp [hsending] at hwaiting
  · intro c hc tag htag
    rcases List.mem_append.mp hc with hc | hc
    · exact h.replied c hc tag htag
    · rw [List.mem_singleton.mp hc, hsending] at htag
      cases htag
  · intro c hc i hi
    rcases List.mem_append.mp hc with hc | hc
    · exact h.watcher c hc i hi
    · cases List.mem_singleton.mp hc
      exact ⟨(hwatcher i hi).1, fun _ => (hwatcher i hi).2⟩

/-- A call whose reply is not outstanding. -/
theorem Valid.expects_eq_none (h : s.Valid) (hreplies : s.replies = []) (r : Requester) :
    s.expects r = none := by
  rw [Option.eq_none_iff_forall_not_mem]
  intro reply hreply
  have heq := h.expected r reply hreply
  rw [hreplies] at heq
  cases heq

/-- Nobody else waits while one call does. -/
theorem Valid.eq_of_expects (h : s.Valid) {r r' : Requester} {reply reply' : ConsumerReply}
    (hr : s.expects r = some reply) (hr' : s.expects r' = some reply') : r = r' := by
  have heq := (h.expected r reply hr).symm.trans (h.expected r' reply' hr')
  cases heq
  rfl

theorem Valid.sendConsume (h : s.Valid) (hscoped : s.Scoped (.sendConsume i))
    (hnext : s.sendConsume i = some s') : s'.Valid := by
  unfold ConsumerContexts.sendConsume at hnext
  split at hnext
  · next u hu =>
    split at hnext
    · next hadded _ =>
      cases hnext
      refine h.setStage hu s.replies ?_ (fun heq => by rw [hadded] at heq; cases heq) ?_
      · rw [Subscription.started]
        split <;> nofun
      · intro r reply hr
        rw [expects_setStage hu, Subscription.started] at hr
        exact h.expected r reply (by grind)
    · next hadded hnoWait =>
      cases hnext
      have hreplies := hscoped u hu hnoWait
      refine h.setStage hu _ nofun (fun heq => by rw [hadded] at heq; cases heq) ?_
      intro r reply hr
      rw [expects_setStage hu, h.expects_eq_none hreplies] at hr
      split at hr
      · next heq =>
        cases hr
        rw [heq, hreplies]
        rfl
      · cases hr
    · cases hnext
  · cases hnext

theorem expects_consumer (hu : s.subscriptions[i]? = some u) (hwaiting : u.stage = .waiting) :
    s.expects (.consumer i) = some (.consumeOk u.tag) := by
  simp [expects, hu, hwaiting]

theorem expects_cancel (hcall : s.calls[k]? = some call) (hwaiting : call.stage = .waiting) :
    s.expects (.cancel k) = some (.cancelOk call.tag) := by
  simp [expects, hcall, hwaiting]

/-- The reply that a call takes is its own. -/
theorem Valid.takeConsume (h : s.Valid) (hnext : s.takeConsume i = some s') : s'.Valid := by
  unfold ConsumerContexts.takeConsume at hnext
  split at hnext
  · next u requester reply replies hu hreplies =>
    split at hnext
    · next hwaiting =>
      cases hnext
      have hmine := expects_consumer hu hwaiting
      refine h.setStage hu _ ?_ (fun heq => by rw [hwaiting] at heq; cases heq) ?_
      · rw [Subscription.started]
        split <;> nofun
      · intro r reply hr
        rw [expects_setStage hu] at hr
        split at hr
        · rw [Subscription.started] at hr
          grind
        · next hne => exact absurd (h.eq_of_expects hr hmine) hne
    · next hwaiting =>
      have hmine := h.expected _ _ (expects_consumer hu hwaiting)
      rw [hreplies] at hmine
      cases hmine
    · cases hnext
  · cases hnext

theorem Valid.failConsume (h : s.Valid) (hnext : s.failConsume i = some s') : s'.Valid := by
  have hset : ∀ {u : Subscription}, s.subscriptions[i]? = some u → u.stage ≠ .finished →
      (s.setStage i u (.failing none)).Valid := by
    intro u hu hne
    refine h.setStage hu s.replies nofun (fun heq => absurd heq hne) ?_
    intro r reply hr
    rw [expects_setStage hu] at hr
    split at hr
    · cases hr
    · exact h.expected r reply hr
  unfold ConsumerContexts.failConsume at hnext
  split at hnext
  · next u hu =>
    split at hnext
    · next hadded =>
      cases hnext
      exact hset hu (by simp [hadded])
    · next hwaiting =>
      cases hnext
      exact hset hu (by simp [hwaiting])
    · cases hnext
  · cases hnext

/-- The goroutine, or a call that failed, is done. -/
theorem Valid.setFinished (h : s.Valid) (hu : s.subscriptions[i]? = some u) :
    (s.setStage i u .finished).Valid := by
  refine h.setStage hu s.replies nofun (fun _ => rfl) ?_
  intro r reply hr
  rw [expects_setStage hu] at hr
  split at hr
  · cases hr
  · exact h.expected r reply hr

theorem Valid.leave (h : s.Valid) (hnext : s.leave i = some s') : s'.Valid := by
  unfold ConsumerContexts.leave at hnext
  split at hnext
  · next u hu =>
    obtain ⟨-, ⟨⟩⟩ := Option.ite_none_right_eq_some.mp hnext
    exact h.setFinished hu
  · cases hnext

/-- A goroutine that wakes up finds no other consumer under its tag. -/
theorem Valid.wake (h : s.Valid) (hnext : s.wake i = some s') : s'.Valid := by
  unfold ConsumerContexts.wake at hnext
  split at hnext
  · next u hu =>
    split at hnext
    · next n hwatching hcontext =>
      obtain ⟨hn, ⟨⟩⟩ := Option.ite_none_right_eq_some.mp hnext
      have hended : s.Ended i := ⟨u, n, hu, hcontext, hn⟩
      refine (h.setFinished hu).addCall rfl fun j hj => ?_
      cases hj
      exact ⟨(ended_setStage hu _ i).mpr hended,
        h.watching i u hu hended (by simp [hwatching])⟩
    · cases hnext
  · cases hnext

theorem Valid.logCancel (h : s.Valid) (hcall : call ∈ s.calls)
    (hstage : call.stage ≠ .finished) : (s.logCancel call).Valid := by
  refine { h with sent := ?_ }
  intro i j hij
  rcases List.mem_append.mp hij with hij | hij
  · exact h.sent i j hij
  · obtain ⟨i', hi', heq⟩ := List.mem_map.mp hij
    cases heq
    obtain ⟨hended, honly⟩ := h.watcher call hcall i (Option.mem_toList.mp hi')
    exact ⟨hended, honly hstage⟩

theorem Valid.sendCancel (h : s.Valid) (hscoped : s.Scoped (.sendCancel k))
    (hnext : s.sendCancel k = some s') : s'.Valid := by
  unfold ConsumerContexts.sendCancel at hnext
  split at hnext
  · next call hcall =>
    split at hnext
    · next hsending =>
      have hlog : (s.logCancel call).Valid :=
        h.logCancel (List.mem_of_getElem? hcall) (by simp [hsending])
      have hcall' : (s.logCancel call).calls[k]? = some call := hcall
      split at hnext
      · cases hnext
        refine hlog.setCall hcall' s.replies ?_
          (fun heq => by rw [hsending] at heq; cases heq) ?_
        · intro tag htag
          cases htag
          rfl
        · intro r reply hr
          rw [expects_setCall hcall'] at hr
          split at hr
          · cases hr
          · exact hlog.expected r reply hr
      · next hwait =>
        cases hnext
        have hreplies := hscoped call hcall (by simpa using hwait)
        refine hlog.setCall hcall' _ nofun (fun heq => by rw [hsending] at heq; cases heq) ?_
        intro r reply hr
        rw [expects_setCall hcall', hlog.expects_eq_none hreplies] at hr
        split at hr
        · next heq =>
          cases hr
          rw [heq, hreplies]
          rfl
        · cases hr
    · cases hnext
  · cases hnext

theorem Valid.takeCancel (h : s.Valid) (hnext : s.takeCancel k = some s') : s'.Valid := by
  unfold ConsumerContexts.takeCancel at hnext
  split at hnext
  · next call requester reply replies hcall hreplies =>
    split at hnext
    · next tag hwaiting =>
      cases hnext
      have hmine := expects_cancel hcall hwaiting
      have heq := hreplies.symm.trans (h.expected _ _ hmine)
      cases heq
      refine h.setCall hcall _ ?_ (fun heq => by rw [hwaiting] at heq; cases heq) ?_
      · intro tag htag
        cases htag
        rfl
      · intro r reply hr
        rw [expects_setCall hcall] at hr
        split at hr
        · cases hr
        · next hne => exact absurd (h.eq_of_expects hr hmine) hne
    · next hwaiting =>
      have heq := hreplies.symm.trans (h.expected _ _ (expects_cancel hcall hwaiting))
      cases heq
    · cases hnext
  · cases hnext

/-- `Cancel` returns. -/
theorem Valid.setCallFinished (h : s.Valid) (hcall : s.calls[k]? = some call) :
    (s.setCall k call .finished).Valid := by
  refine h.setCall hcall s.replies nofun (fun _ => rfl) ?_
  intro r reply hr
  rw [expects_setCall hcall] at hr
  split at hr
  · cases hr
  · exact h.expected r reply hr

theorem Valid.failCancel (h : s.Valid) (hnext : s.failCancel k = some s') : s'.Valid := by
  unfold ConsumerContexts.failCancel at hnext
  split at hnext
  · next call hcall =>
    split at hnext
    · cases hnext
      exact h.setCallFinished hcall
    · cases hnext
      exact h.setCallFinished hcall
    · cases hnext
  · cases hnext

end Amqp091.ConsumerContexts

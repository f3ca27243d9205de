import Amqp091.Verification.Consumers.Registration

/-! # What a consumer is given

The calls alone say when a consumer is registered and which deliveries `send` was called
with in the meantime. These are the ones that its goroutine is given. -/

namespace Amqp091

open ByteCodec Channels Positions Transition

variable {δ : Type}

/-- What `add` and `send` have put down for a consumer. -/
def Consumer.entry (c : Consumer δ) : Bytes × ℕ × List δ := (c.tag, c.capacity, c.passed)

/-- The channels that `Consume` makes have no buffer. -/
def Consumer.unbuffered (c : Consumer δ) : Bool := c.capacity = 0

namespace Consumers

variable {subs subs' : Consumers δ} {i : ℕ} {tag : Bytes}

/-! ## Calls -/

def Action.isAdd : Action δ → Bool
  | .add _ _ => true
  | _ => false

/-- What an action passes to `send` for a tag. -/
def Action.deliveryFor (tag : Bytes) : Action δ → List δ
  | .send tag' delivery => if tag' = tag then [delivery] else []
  | _ => []

/-- The calls after which a tag does not name the consumer any more that it named before. -/
def Action.endsFor (tag : Bytes) : Action δ → Bool
  | .add tag' _ | .cancel tag' => tag' = tag
  | .close => true
  | _ => false

/-- What is passed to `send` for a tag until the consumer it names is another one or none. -/
def sentWhile (tag : Bytes) (as : List (Action δ)) : List δ :=
  (as.takeWhile fun a => !a.endsFor tag).flatMap (·.deliveryFor tag)

theorem deliveryFor_of_endsFor {a : Action δ} (h : a.endsFor tag = true) :
    a.deliveryFor tag = [] := by
  cases a with
  | send => cases h
  | _ => rfl

theorem sentWhile_cons (a : Action δ) (as : List (Action δ)) :
    sentWhile tag (a :: as) =
      if a.endsFor tag then [] else a.deliveryFor tag ++ sentWhile tag as := by
  rw [sentWhile, List.takeWhile_cons]
  cases a.endsFor tag <;> rfl

/-! ## The entries of the consumers -/

def history (subs : Consumers δ) : List (Bytes × ℕ × List δ) := subs.consumers.map Consumer.entry

theorem length_history (subs : Consumers δ) : subs.history.length = subs.consumers.length :=
  List.length_map _

theorem history_remove (subs : Consumers δ) (tag : Bytes) (i : ℕ) :
    (subs.remove tag i).history = subs.history :=
  map_modify_eq fun _ => rfl

theorem history_cancel (subs : Consumers δ) (tag : Bytes) :
    (subs.cancel tag).1.history = subs.history := by
  rw [cancel]
  split
  · exact history_remove _ _ _
  · rfl

theorem history_add (subs : Consumers δ) (tag : Bytes) (capacity : ℕ) :
    (subs.add tag capacity).history = subs.history ++ [(tag, capacity, [])] := by
  have hcancel := history_cancel subs tag
  rw [add_eq]
  rw [history] at hcancel ⊢
  rw [List.map_append, hcancel]
  rfl

theorem history_removeAll (l : List (Sigma fun _ : Bytes => ℕ)) (subs : Consumers δ) :
    (l.foldl (fun subs e => subs.remove e.1 e.2) subs).history = subs.history := by
  induction l generalizing subs with
  | nil => rfl
  | cons e l ih => exact (ih (subs.remove e.1 e.2)).trans (history_remove subs e.1 e.2)

theorem history_close (subs : Consumers δ) : subs.close.history = subs.history :=
  history_removeAll _ _

theorem entry_emit {c c' : Consumer δ} (h : c.emit = some c') : c'.entry = c.entry := by
  rw [Consumer.emit] at h
  split at h
  · cases h
  · cases h
    rfl

/-- The goroutines and their receivers leave the entries alone. -/
theorem entry_step {closed : Bool} {c c' : Consumer δ} {a : Consumer.Step}
    (h : c.step closed a = some c') : c'.entry = c.entry := by
  cases a with
  | push =>
      obtain ⟨-, hemit⟩ := Option.ite_none_right_eq_some.mp h
      exact entry_emit hemit
  | handOver =>
      obtain ⟨-, hmap⟩ := Option.ite_none_right_eq_some.mp h
      obtain ⟨c₁, hemit, rfl⟩ := Option.map_eq_some_iff.mp hmap
      have hentry := entry_emit hemit
      exact hentry
  | _ =>
      obtain ⟨-, ⟨⟩⟩ := Option.ite_none_right_eq_some.mp h
      rfl

/-- What is no call leaves the entries alone. -/
theorem history_own {a : Action δ} (hnext : subs.next a = some subs')
    (ha : (∃ j step, a = .step j step) ∨ a = .accept ∨ a = .wait) :
    subs'.history = subs.history := by
  rcases ha with ⟨j, step, rfl⟩ | rfl | rfl
  · rw [next, stepConsumer] at hnext
    split at hnext
    · next c hc =>
      obtain ⟨c', hstep, rfl⟩ := Option.map_eq_some_iff.mp hnext
      exact map_set_eq hc (entry_step hstep)
    · cases hnext
  · rw [next, accept] at hnext
    split at hnext
    · split at hnext
      · next hc =>
        split at hnext
        · cases hnext
          exact map_set_eq hc rfl
        · obtain ⟨-, ⟨⟩⟩ := Option.ite_none_right_eq_some.mp hnext
          exact map_set_eq hc rfl
      · cases hnext
    · cases hnext
  · rw [next, wait] at hnext
    split at hnext
    · obtain ⟨-, ⟨⟩⟩ := Option.ite_none_right_eq_some.mp hnext
      rfl
    · cases hnext

/-- A `send` passes its delivery on to the consumer that its tag names. -/
theorem history_send (subs : Consumers δ) (tag : Bytes) (delivery : δ) :
    (subs.send tag delivery).1.history[i]? =
      subs.history[i]?.map fun e =>
        (e.1, e.2.1, e.2.2 ++ if subs.chans.lookup tag = some i then [delivery] else []) := by
  cases hlookup : subs.chans.lookup tag with
  | none => simp [send, hlookup]
  | some j =>
      by_cases hj : j = i
      · subst hj
        cases hc : subs.consumers[j]? <;> simp [send, hlookup, history, Consumer.entry, hc]
      · cases hc : subs.consumers[i]? <;>
          simp [send, hlookup, history, Consumer.entry, hc, hj]

/-! ## One step -/

/-- A tag names a consumer as long as no call ends that. -/
theorem lookup_next (hi : i < subs.consumers.length) {a : Action δ}
    (hnext : subs.next a = some subs') :
    subs'.chans.lookup tag = some i ↔
      subs.chans.lookup tag = some i ∧ a.endsFor tag = false := by
  have hkeep (ha : a.endsFor tag = false)
      (hlookup : subs'.chans.lookup tag = subs.chans.lookup tag) :
      subs'.chans.lookup tag = some i ↔
        subs.chans.lookup tag = some i ∧ a.endsFor tag = false := by
    rw [hlookup, ha, and_iff_left rfl]
  cases a with
  | add tag' capacity =>
      obtain ⟨-, ⟨⟩⟩ := Option.ite_none_right_eq_some.mp hnext
      by_cases htag : tag' = tag
      · subst htag
        have hne : subs.tags.length ≠ i := by
          rw [tags, List.length_map]
          exact Nat.ne_of_gt hi
        simp [lookup_add, Action.endsFor, hne]
      · exact hkeep (by simp [Action.endsFor, htag]) (lookup_add_of_ne capacity (Ne.symm htag))
  | cancel tag' =>
      obtain ⟨-, ⟨⟩⟩ := Option.ite_none_right_eq_some.mp hnext
      by_cases htag : tag' = tag
      · subst htag
        simp [lookup_cancel, Action.endsFor]
      · exact hkeep (by simp [Action.endsFor, htag]) (lookup_cancel_of_ne (Ne.symm htag))
  | close =>
      obtain ⟨-, ⟨⟩⟩ := Option.ite_none_right_eq_some.mp hnext
      simp [lookup_close, Action.endsFor]
  | send | accept | wait | step =>
      apply hkeep rfl
      rw [(deliver_frame hnext (by simp) (by simp) (by simp)).2]

/-- A step adds to the entry of a consumer what is sent while its tag names it. -/
theorem history_next (hvalid : subs.Valid) {a : Action δ} (hnext : subs.next a = some subs')
    {capacity : ℕ} {passed : List δ} (hentry : subs.history[i]? = some (tag, capacity, passed)) :
    subs'.history[i]? = some (tag, capacity,
      passed ++ if subs.chans.lookup tag = some i then a.deliveryFor tag else []) := by
  have hlt := (List.getElem?_eq_some_iff.mp hentry).1
  have hkeep (hnone : a.deliveryFor tag = []) (hhistory : subs'.history[i]? = subs.history[i]?) :
      subs'.history[i]? = some (tag, capacity,
        passed ++ if subs.chans.lookup tag = some i then a.deliveryFor tag else []) := by
    rw [hhistory, hentry, hnone, ite_self, List.append_nil]
  cases a with
  | send tag' delivery =>
      obtain ⟨-, ⟨⟩⟩ := Option.ite_none_right_eq_some.mp hnext
      rw [history_send, hentry]
      by_cases htag : tag' = tag
      · subst htag
        simp [Action.deliveryFor]
      · -- another tag names another consumer
        have hother : subs.chans.lookup tag' ≠ some i := by
          intro hlookup
          obtain ⟨c, hc, hctag⟩ := hvalid.chans tag' i hlookup
          simp only [history, List.getElem?_map, hc, Option.map_some, Option.some.injEq,
            Consumer.entry, Prod.mk.injEq] at hentry
          exact htag (hctag.symm.trans hentry.1)
        simp [Action.deliveryFor, htag, hother]
  | add tag' capacity' =>
      obtain ⟨-, ⟨⟩⟩ := Option.ite_none_right_eq_some.mp hnext
      apply hkeep rfl
      rw [history_add, List.getElem?_append_left hlt]
  | cancel tag' =>
      obtain ⟨-, ⟨⟩⟩ := Option.ite_none_right_eq_some.mp hnext
      apply hkeep rfl
      rw [history_cancel]
  | close =>
      obtain ⟨-, ⟨⟩⟩ := Option.ite_none_right_eq_some.mp hnext
      apply hkeep rfl
      rw [history_close]
  | accept | wait | step =>
      apply hkeep rfl
      rw [history_own hnext (by simp)]

/-- Only `add` makes consumers. -/
theorem length_next {a : Action δ} (hnext : subs.next a = some subs') :
    subs'.consumers.length = subs.consumers.length + if a.isAdd then 1 else 0 := by
  rw [← length_history, ← length_history]
  cases a with
  | send tag delivery =>
      obtain ⟨-, ⟨⟩⟩ := Option.ite_none_right_eq_some.mp hnext
      rw [send]
      split
      · simp [history, Action.isAdd]
      · rfl
  | add tag capacity =>
      obtain ⟨-, ⟨⟩⟩ := Option.ite_none_right_eq_some.mp hnext
      rw [history_add]
      exact List.length_append
  | cancel tag =>
      obtain ⟨-, ⟨⟩⟩ := Option.ite_none_right_eq_some.mp hnext
      rw [history_cancel]
      rfl
  | close =>
      obtain ⟨-, ⟨⟩⟩ := Option.ite_none_right_eq_some.mp hnext
      rw [history_close]
      rfl
  | accept | wait | step =>
      rw [history_own hnext (by simp)]
      rfl

/-! ## Whole runs -/

theorem length_run {as : List (Action δ)} (h : Run next (fun _ _ => True) subs as subs') :
    subs'.consumers.length = subs.consumers.length + as.countP Action.isAdd := by
  induction h with
  | nil => rfl
  | cons _ hnext _ ih =>
      rw [ih, length_next hnext, List.countP_cons]
      omega

/-- A consumer that its tag names is given what is sent until that ends, and another one
nothing. -/
theorem history_run {as : List (Action δ)} (h : Run next (fun _ _ => True) subs as subs')
    (hvalid : subs.Valid) {capacity : ℕ} {passed : List δ}
    (hentry : subs.history[i]? = some (tag, capacity, passed)) :
    subs'.history[i]? = some (tag, capacity,
        passed ++ if subs.chans.lookup tag = some i then sentWhile tag as else []) ∧
      (subs'.chans.lookup tag = some i ↔
        subs.chans.lookup tag = some i ∧ ∀ a ∈ as, a.endsFor tag = false) := by
  induction h generalizing passed with
  | nil =>
      refine ⟨?_, by simp⟩
      rw [hentry, sentWhile, List.takeWhile_nil, List.flatMap_nil, ite_self, List.append_nil]
  | @cons subs m subs' a as _ hnext _ ih =>
      have hi : i < subs.consumers.length :=
        length_history subs ▸ (List.getElem?_eq_some_iff.mp hentry).1
      have hlookup : m.chans.lookup tag = some i ↔ _ := lookup_next hi hnext
      obtain ⟨hrest, hends⟩ := ih (hvalid.step hnext) (history_next hvalid hnext hentry)
      refine ⟨hrest.trans ?_, hends.trans ?_⟩
      · rw [sentWhile_cons]
        by_cases hname : subs.chans.lookup tag = some i
        · cases hend : a.endsFor tag with
          | false => simp [hlookup, hname, hend]
          | true => simp [hlookup, hname, hend, deliveryFor_of_endsFor hend]
        · simp [hlookup, hname]
      · rw [hlookup, List.forall_mem_cons, and_assoc]

/-- A consumer is given what is sent from its `add` on until that ends. -/
theorem entry_of_run {before after : List (Action δ)} {capacity : ℕ}
    (h : Run next (fun _ _ => True) makeConsumers (before ++ .add tag capacity :: after) subs) :
    ∃ c, subs.consumers[before.countP Action.isAdd]? = some c ∧
      c.entry = (tag, capacity, sentWhile tag after) ∧
      (subs.chans.lookup tag = some (before.countP Action.isAdd) ↔
        ∀ a ∈ after, a.endsFor tag = false) := by
  obtain ⟨s₁, hbefore, hrest⟩ := Run.append_iff.mp h
  cases hrest with
  | cons _ hnext hafter =>
      have hvalid : s₁.Valid :=
        hbefore.invariant valid_makeConsumers fun _ _ _ hvalid _ hnext => hvalid.step hnext
      have hcount : s₁.consumers.length = before.countP Action.isAdd :=
        (length_run hbefore).trans (Nat.zero_add _)
      have hnew := hvalid.step hnext
      obtain ⟨-, ⟨⟩⟩ := Option.ite_none_right_eq_some.mp hnext
      have hlookup : (s₁.add tag capacity).chans.lookup tag = some s₁.consumers.length := by
        rw [lookup_add, tags, List.length_map]
      have hentry : (s₁.add tag capacity).history[s₁.consumers.length]? =
          some (tag, capacity, []) := by
        rw [history_add, ← length_history]
        exact List.getElem?_concat_length
      obtain ⟨hend, hends⟩ := history_run hafter hnew hentry
      rw [if_pos hlookup, List.nil_append, history, List.getElem?_map] at hend
      obtain ⟨c, hc, hcentry⟩ := Option.map_eq_some_iff.mp hend
      rw [← hcount]
      exact ⟨c, hc, hcentry, hends.trans (and_iff_right hlookup)⟩

/-- In every run the receivers of a consumer get a prefix of the deliveries that `send` was
called with for its tag from its `add` on until the tag was added again, cancelled or all
consumers were closed. While `close` has not been called, an output is closed only after all
of them were sent to it, and received from it if it has no buffer; goroutines with an open
input accept the next delivery, and no `send` is stuck. No channel is closed twice or sent
to once it is closed. -/
theorem deliveries_in_order {as : List (Action δ)}
    (h : Run next (fun _ _ => True) makeConsumers as subs) :
    subs.consumers.length = as.countP Action.isAdd ∧
    (∀ before tag capacity after, as = before ++ .add tag capacity :: after →
      ∃ c, subs.consumers[before.countP Action.isAdd]? = some c ∧
        c.tag = tag ∧ c.capacity = capacity ∧
        (c.input.isClosed = true ↔ ∃ a ∈ after, a.endsFor tag = true) ∧
        c.received <+: sentWhile tag after ∧
        (subs.closed = false → c.output.isClosed = true → c.input.isClosed = true ∧
          c.output.sent = sentWhile tag after ∧
          (c.unbuffered = true → c.received = sentWhile tag after))) ∧
    (∀ c ∈ subs.consumers,
      (subs.closed = false → c.input.isClosed = false → c.accepting = true) ∧
      c.input.Safe ∧ c.output.Safe) ∧
    ∀ i delivery, subs.mutex = some (.send i delivery) → subs.closed = false →
      (subs.next .accept).isSome = true := by
  have hvalid : subs.Valid :=
    h.invariant valid_makeConsumers fun _ _ _ hvalid _ hnext => hvalid.step hnext
  refine ⟨(length_run h).trans (Nat.zero_add _), ?_, fun c hmem => ?_,
    fun i delivery hmutex hclosed => hvalid.accept_isSome hclosed hmutex⟩
  · rintro before tag capacity after rfl
    obtain ⟨c, hc, hentry, hlookup⟩ := entry_of_run h
    obtain ⟨rfl, rfl, hpassed⟩ := by simpa only [Consumer.entry, Prod.mk.injEq] using hentry
    refine ⟨c, hc, rfl, rfl, ?_, hpassed ▸ hvalid.received_prefix hc, ?_⟩
    · rw [← Bool.not_eq_false, ← hvalid.registered _ c hc, hlookup]
      simp
    · intro hclosed houtput
      obtain ⟨hinput, hsent, hreceived⟩ := hvalid.drained hclosed hc houtput
      rw [hpassed] at hsent hreceived
      exact ⟨hinput, hsent, fun hunbuffered => hreceived (of_decide_eq_true hunbuffered)⟩
  · obtain ⟨i, hc⟩ := List.mem_iff_getElem?.mp hmem
    have hconsumer := hvalid.consumer i c hc
    exact ⟨fun hclosed => Consumer.Valid.accepting (hclosed ▸ hconsumer), hconsumer.input,
      hconsumer.output⟩

/-- A consumer gets two deliveries, the second one after it was cancelled. A third one for
its tag is not passed on. -/
theorem deliveries_in_order_cancel :
    ∃ subs : Consumers ℕ, Run next (fun _ _ => True) makeConsumers
        [.add [97] 0, .send [97] 7, .accept, .send [97] 8, .accept, .step 0 .handOver,
          .cancel [97], .send [97] 9, .step 0 .selectInflight, .step 0 .handOver,
          .step 0 .rangeClosed, .step 0 .done, .step 0 .closeOut] subs ∧
      ∃ c, subs.consumers[0]? = some c ∧ c.output.isClosed = true ∧ c.received = [7, 8] := by
  have hrun : Run next (fun _ _ => True) (makeConsumers : Consumers ℕ)
      [.add [97] 0, .send [97] 7, .accept, .send [97] 8, .accept, .step 0 .handOver,
        .cancel [97], .send [97] 9, .step 0 .selectInflight, .step 0 .handOver,
        .step 0 .rangeClosed, .step 0 .done, .step 0 .closeOut] _ := .of_exec rfl
  obtain ⟨c, hc, -, -, -, -, hdrained⟩ := (deliveries_in_order hrun).2.1 [] [97] 0 _ rfl
  cases hc
  exact ⟨_, hrun, _, rfl, rfl, (hdrained rfl rfl).2.2 rfl⟩

end Consumers

end Amqp091

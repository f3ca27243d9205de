import Amqp091.Verification.Consumers.Registration

/-! # `close` does not wait for the application

`close` holds the mutex while it waits for the buffer goroutines, and each of them may be
about to send to an output that nobody receives from any more. -/

namespace Amqp091

open ByteCodec Channels Positions Transition

variable {δ : Type}

/-- How many steps take a goroutine to its end from here. -/
def BufferPoint.stepsLeft : BufferPoint → ℕ
  | .range | .select => 3
  | .done => 2
  | .closeOut => 1
  | .returned => 0

namespace Consumer

/-- The goroutine has not called `subs.Done()` yet. -/
def running (c : Consumer δ) : Bool :=
  match c.point with
  | .range | .select | .done => true
  | .closeOut | .returned => false

/-- A bound of the steps of the goroutine and of the receivers of its output while no
delivery is added. One that is in the queue may be sent and then received. -/
def remaining (c : Consumer δ) : ℕ :=
  c.point.stepsLeft + c.inflight.toNat + 2 * c.queue.length + (c.output.sent.length - c.taken)

variable {closed : Bool} {pending : List δ} {c c' : Consumer δ}

/-- What `out <- *queue[0]` does. -/
theorem emit_cases (hopen : c.output.isClosed = false) (h : c.emit = some c') :
    c'.inflight = c.inflight ∧ c.queue.length = c'.queue.length + 1 ∧
      c'.output.sent.length = c.output.sent.length + 1 ∧ c'.taken = c.taken ∧
      (c'.point = .range ∨ c'.point = .select) := by
  cases hqueue : c.queue with
  | nil => simp [emit, hqueue] at h
  | cons delivery queue =>
      simp only [emit, hqueue, Option.some.injEq] at h
      subst h
      simp only [Chan.send_of_open hopen, List.length_append, List.length_cons, List.length_nil]
      cases queue <;> simp

theorem Valid.remaining_step {a : Step} (h : c.Valid closed pending)
    (hstep : c.step closed a = some c') : c'.remaining < c.remaining := by
  cases a with
  | push =>
      obtain ⟨⟨hselect, -⟩, hemit⟩ := Option.ite_none_right_eq_some.mp hstep
      have hopen := h.outputOpen (by simp [hselect])
      have htaken := h.taken
      obtain ⟨hinflight, hqueue, hsent, htaken', hpoint | hpoint⟩ := emit_cases hopen hemit
      all_goals
        simp only [remaining, hinflight, hsent, htaken', hpoint, hselect, BufferPoint.stepsLeft]
        omega
  | handOver =>
      obtain ⟨⟨hselect, -⟩, hmap⟩ := Option.ite_none_right_eq_some.mp hstep
      obtain ⟨c₁, hemit, rfl⟩ := Option.map_eq_some_iff.mp hmap
      have hopen := h.outputOpen (by simp [hselect])
      obtain ⟨hinflight, hqueue, hsent, htaken', hpoint | hpoint⟩ := emit_cases hopen hemit
      all_goals
        simp only [remaining, hinflight, hsent, htaken', hpoint, hselect, BufferPoint.stepsLeft]
        omega
  | selectInflight =>
      obtain ⟨⟨-, hinflight, -⟩, ⟨⟩⟩ := Option.ite_none_right_eq_some.mp hstep
      simp [remaining, hinflight]
  | receive =>
      obtain ⟨hlt, ⟨⟩⟩ := Option.ite_none_right_eq_some.mp hstep
      simp only [remaining]
      omega
  | rangeClosed | selectClosed =>
      obtain ⟨⟨hpoint, -⟩, ⟨⟩⟩ := Option.ite_none_right_eq_some.mp hstep
      simp [remaining, hpoint, BufferPoint.stepsLeft]
  | done | closeOut =>
      obtain ⟨hpoint, ⟨⟩⟩ := Option.ite_none_right_eq_some.mp hstep
      simp [remaining, hpoint, BufferPoint.stepsLeft]

/-- Only the step that calls `subs.Done()` changes what `subs.Wait()` counts. -/
theorem running_step {a : Step} (hopen : c.point = .select → c.output.isClosed = false)
    (hstep : c.step closed a = some c') :
    c'.running.toNat + (if a = .done then 1 else 0) = c.running.toNat := by
  cases a with
  | push =>
      obtain ⟨⟨hselect, -⟩, hemit⟩ := Option.ite_none_right_eq_some.mp hstep
      obtain ⟨-, -, -, -, hpoint | hpoint⟩ := emit_cases (hopen hselect) hemit <;>
        simp [running, hpoint, hselect]
  | handOver =>
      obtain ⟨⟨hselect, -⟩, hmap⟩ := Option.ite_none_right_eq_some.mp hstep
      obtain ⟨c₁, hemit, rfl⟩ := Option.map_eq_some_iff.mp hmap
      obtain ⟨-, -, -, -, hpoint | hpoint⟩ := emit_cases (hopen hselect) hemit <;>
        simp [running, hpoint, hselect]
  | selectInflight | receive =>
      obtain ⟨-, ⟨⟩⟩ := Option.ite_none_right_eq_some.mp hstep
      simp [running]
  | rangeClosed | selectClosed =>
      obtain ⟨⟨hpoint, -⟩, ⟨⟩⟩ := Option.ite_none_right_eq_some.mp hstep
      simp [running, hpoint]
  | done | closeOut =>
      obtain ⟨hpoint, ⟨⟩⟩ := Option.ite_none_right_eq_some.mp hstep
      simp [running, hpoint]

/-- Once `close` has closed everything, a goroutine that runs can always go on towards its
end by itself. -/
theorem exists_ownStep (hrunning : c.running = true) (hinput : c.input.isClosed = true) :
    ∃ a, (a = .rangeClosed ∨ a = .selectClosed ∨ a = .done) ∧ (c.step true a).isSome := by
  cases hpoint : c.point with
  | range => exact ⟨.rangeClosed, by simp [step, hpoint, hinput]⟩
  | select => exact ⟨.selectClosed, by simp [step, hpoint]⟩
  | done => exact ⟨.done, by simp [step, hpoint]⟩
  | closeOut | returned => simp [running, hpoint] at hrunning

theorem point_of_not_running (h : c.running = false) :
    c.point = .closeOut ∨ c.point = .returned := by
  cases hpoint : c.point <;> simp [running, hpoint] at h ⊢

end Consumer

namespace Consumers

variable {subs subs' : Consumers δ}

/-! ## What `subs.Wait()` counts -/

/-- The goroutines that have not called `subs.Done()` yet. -/
def runningCount (consumers : List (Consumer δ)) : ℕ :=
  (consumers.map fun c => c.running.toNat).sum

theorem runningCount_modify {f : Consumer δ → Consumer δ}
    (hf : ∀ c, (f c).running = c.running) (consumers : List (Consumer δ)) (i : ℕ) :
    runningCount (consumers.modify i f) = runningCount consumers := by
  rw [runningCount, map_modify_eq]
  · rfl
  · intro c
    rw [hf c]

/-- Consumer `i` takes another state. -/
theorem runningCount_set {consumers : List (Consumer δ)} {i : ℕ} {c : Consumer δ}
    (hc : consumers[i]? = some c) (c' : Consumer δ) :
    runningCount (consumers.set i c') + c.running.toNat =
      runningCount consumers + c'.running.toNat :=
  sum_map_set hc c'

theorem runningCount_eq_zero {consumers : List (Consumer δ)} :
    runningCount consumers = 0 ↔ ∀ c ∈ consumers, c.running = false := by
  induction consumers with
  | nil => simp [runningCount]
  | cons c consumers ih =>
      rw [runningCount] at ih ⊢
      simp [ih]

/-- While `close` waits, no consumer is registered any more. -/
structure Counted (subs : Consumers δ) : Prop where
  waitGroup : subs.waitGroup = runningCount subs.consumers
  closing : subs.mutex = some .close →
    subs.closed = true ∧ ∀ tag, subs.chans.lookup tag = none

/-- A call inside the mutex that neither starts nor ends a goroutine. -/
theorem Counted.frame (h : subs.Counted) (hgroup : subs'.waitGroup = subs.waitGroup)
    (hcount : runningCount subs'.consumers = runningCount subs.consumers)
    (hmutex : subs'.mutex ≠ some .close) : subs'.Counted where
  waitGroup := by rw [hgroup, hcount, h.waitGroup]
  closing := fun hclose => absurd hclose hmutex

theorem Counted.cancel (h : subs.Counted) (hfree : subs.mutex = none) (tag : Bytes) :
    (subs.cancel tag).1.Counted := by
  rw [Consumers.cancel]
  split
  · apply h.frame
    · rfl
    · apply runningCount_modify
      simp [Consumer.running, Consumer.closeInput]
    · simp [Consumers.remove, hfree]
  · exact h

theorem Counted.add (h : subs.Counted) (hfree : subs.mutex = none) (tag : Bytes)
    (capacity : ℕ) : (subs.add tag capacity).Counted := by
  have hcancel := (h.cancel hfree tag).waitGroup
  have hgroup : (subs.cancel tag).1.waitGroup = subs.waitGroup := by
    rw [Consumers.cancel]
    split <;> rfl
  rw [add_eq]
  constructor
  · simp [runningCount, Consumer.running, ← hgroup, hcancel]
  · intro hmutex
    simp [cancel_mutex, hfree] at hmutex

/-- The loop of `close` closes the inputs and leaves the goroutines running. -/
theorem removeAll_running (l : List (Sigma fun _ : Bytes => ℕ)) (subs : Consumers δ) :
    let after := l.foldl (fun subs e => subs.remove e.1 e.2) subs
    runningCount after.consumers = runningCount subs.consumers ∧
      after.waitGroup = subs.waitGroup ∧ after.closed = subs.closed := by
  induction l generalizing subs with
  | nil => simp
  | cons e l ih =>
      obtain ⟨hcount, hgroup, hclosed⟩ := ih (subs.remove e.1 e.2)
      refine ⟨hcount.trans ?_, hgroup, hclosed⟩
      apply runningCount_modify
      simp [Consumer.running, Consumer.closeInput]

theorem Counted.close (h : subs.Counted) : subs.close.Counted := by
  obtain ⟨hcount, hgroup, hclosed⟩ := removeAll_running subs.chans.entries
    { subs with closed := true, mutex := some .close }
  constructor
  · exact hgroup.trans (h.waitGroup.trans hcount.symm)
  · exact fun _ => ⟨hclosed, lookup_close subs⟩

theorem Counted.send (h : subs.Counted) (tag : Bytes) (delivery : δ) :
    (subs.send tag delivery).1.Counted := by
  rw [Consumers.send]
  split
  · apply h.frame
    · rfl
    · apply runningCount_modify
      simp [Consumer.running]
    · simp
  · exact h

theorem Counted.accept (h : subs.Counted) (haccept : subs.accept = some subs') :
    subs'.Counted := by
  rw [Consumers.accept] at haccept
  split at haccept
  · rename_i delivery _
    split at haccept
    · rename_i c hc
      split at haccept
      · cases haccept
        apply h.frame
        · rfl
        · have hset := runningCount_set hc { c with input := c.input.send delivery }
          simpa [Consumer.running] using hset
        · simp
      · obtain ⟨haccepting, ⟨⟩⟩ := Option.ite_none_right_eq_some.mp haccept
        apply h.frame
        · rfl
        · have hset := runningCount_set hc (c.accept delivery)
          have hrunning : c.running = true := by
            cases hpoint : c.point <;>
              simp [Consumer.accepting, Consumer.running, hpoint] at haccepting ⊢
          rw [hrunning] at hset
          exact Nat.add_right_cancel hset
        · simp
    · cases haccept
  · cases haccept

/-- A step of a goroutine or of a receiver. -/
theorem Counted.stepConsumer (h : subs.Counted) (hvalid : subs.Valid) {i : ℕ}
    {a : Consumer.Step} (hstep : subs.stepConsumer i a = some subs') : subs'.Counted := by
  rw [Consumers.stepConsumer] at hstep
  split at hstep
  · rename_i c hc
    obtain ⟨c', hc', rfl⟩ := Option.map_eq_some_iff.mp hstep
    refine ⟨?_, h.closing⟩
    have hset := runningCount_set hc c'
    have hgroup := h.waitGroup
    have hrunning := Consumer.running_step
      (fun hselect => (hvalid.consumer i c hc).outputOpen (by simp [hselect])) hc'
    by_cases hdone : a = .done <;> simp only [hdone, if_true, if_false] at hrunning ⊢ <;> omega
  · cases hstep

theorem Counted.step (h : subs.Counted) (hvalid : subs.Valid) {a : Action δ}
    (hnext : subs.next a = some subs') : subs'.Counted := by
  cases a with
  | add tag capacity =>
      obtain ⟨hfree, ⟨⟩⟩ := Option.ite_none_right_eq_some.mp hnext
      exact h.add (Option.isNone_iff_eq_none.mp hfree) tag capacity
  | send tag delivery =>
      obtain ⟨-, ⟨⟩⟩ := Option.ite_none_right_eq_some.mp hnext
      exact h.send tag delivery
  | accept => exact h.accept hnext
  | cancel tag =>
      obtain ⟨hfree, ⟨⟩⟩ := Option.ite_none_right_eq_some.mp hnext
      exact h.cancel (Option.isNone_iff_eq_none.mp hfree) tag
  | close =>
      obtain ⟨-, ⟨⟩⟩ := Option.ite_none_right_eq_some.mp hnext
      exact h.close
  | wait =>
      rw [next, wait] at hnext
      split at hnext
      · obtain ⟨-, ⟨⟩⟩ := Option.ite_none_right_eq_some.mp hnext
        apply h.frame
        · rfl
        · rfl
        · simp
      · cases hnext
  | step i a => exact h.stepConsumer hvalid hnext

/-! ## `close` returns -/

/-- A bound of the steps that are left until `close` has returned. -/
def remaining (subs : Consumers δ) : ℕ :=
  (subs.consumers.map Consumer.remaining).sum +
    match subs.mutex with
    | some .close => 1
    | _ => 0

/-- The steps that `close` and the goroutines make by themselves, without a receiver. -/
def Action.isOwn : Action δ → Bool
  | .wait | .step _ .rangeClosed | .step _ .selectClosed | .step _ .done => true
  | _ => false

/-- While `close` waits, there is nothing but its end and the steps of the goroutines and the
receivers. -/
theorem next_of_closing (hmutex : subs.mutex = some .close) {a : Action δ}
    (hnext : subs.next a = some subs') :
    (a = .wait ∧ subs.waitGroup = 0 ∧ subs' = { subs with mutex := none }) ∨
      ∃ i b c c', a = .step i b ∧ subs.consumers[i]? = some c ∧
        c.step subs.closed b = some c' ∧ subs'.consumers = subs.consumers.set i c' ∧
        subs'.mutex = subs.mutex := by
  cases a with
  | add | send | cancel | close => simp [next, hmutex] at hnext
  | accept => simp [next, Consumers.accept, hmutex] at hnext
  | wait =>
      simp only [next, wait, hmutex] at hnext
      obtain ⟨hzero, ⟨⟩⟩ := Option.ite_none_right_eq_some.mp hnext
      exact .inl ⟨rfl, hzero, rfl⟩
  | step i b =>
      rw [next, Consumers.stepConsumer] at hnext
      split at hnext
      · obtain ⟨c', hc', rfl⟩ := Option.map_eq_some_iff.mp hnext
        exact .inr ⟨i, b, _, c', rfl, ‹_›, hc', rfl, rfl⟩
      · cases hnext

theorem Valid.remaining_next (h : subs.Valid) (hmutex : subs.mutex = some .close) {a : Action δ}
    (hnext : subs.next a = some subs') : subs'.remaining < subs.remaining := by
  rcases next_of_closing hmutex hnext with
    ⟨-, -, rfl⟩ | ⟨i, b, c, c', -, hc, hstep, hconsumers, hmutex'⟩
  · simp [remaining, hmutex]
  · have hless := (h.consumer i c hc).remaining_step hstep
    have hset := sum_map_set (g := Consumer.remaining) hc c'
    simp only [remaining, hconsumers, hmutex', hmutex]
    omega

theorem Valid.input_closed (h : subs.Valid) (hcounted : subs.Counted)
    (hmutex : subs.mutex = some .close) {i : ℕ} {c : Consumer δ}
    (hc : subs.consumers[i]? = some c) : c.input.isClosed = true := by
  cases hopen : c.input.isClosed with
  | true => rfl
  | false =>
      have hlookup := (h.registered i c hc).mpr hopen
      simp [(hcounted.closing hmutex).2] at hlookup

/-- `close` or a goroutine that it waits for can go on. -/
theorem Valid.exists_own (h : subs.Valid) (hcounted : subs.Counted)
    (hmutex : subs.mutex = some .close) :
    ∃ a : Action δ, a.isOwn = true ∧ (subs.next a).isSome = true := by
  by_cases hrunning : ∃ c ∈ subs.consumers, c.running = true
  · obtain ⟨c, hmem, hrunning⟩ := hrunning
    obtain ⟨i, hc⟩ := List.mem_iff_getElem?.mp hmem
    obtain ⟨a, ha, hstep⟩ :=
      Consumer.exists_ownStep hrunning (h.input_closed hcounted hmutex hc)
    refine ⟨.step i a, ?_, ?_⟩
    · rcases ha with rfl | rfl | rfl <;> rfl
    · simpa [next, Consumers.stepConsumer, hc, (hcounted.closing hmutex).1] using hstep
  · have hzero : subs.waitGroup = 0 := by
      rw [hcounted.waitGroup, runningCount_eq_zero]
      simpa using hrunning
    exact ⟨.wait, rfl, by simp [next, wait, hmutex, hzero]⟩

/-- What holds at each step that is taken from the moment `close` waits until it returns. -/
structure Closing (subs : Consumers δ) : Prop where
  valid : subs.Valid
  counted : subs.Counted
  ended : subs.mutex ≠ some .close → ∀ c ∈ subs.consumers,
    c.input.isClosed = true ∧ (c.point = .closeOut ∨ c.point = .returned)

theorem Closing.step (h : subs.Closing) (hmutex : subs.mutex = some .close) {a : Action δ}
    (hnext : subs.next a = some subs') : subs'.Closing := by
  refine ⟨h.valid.step hnext, h.counted.step h.valid hnext, fun hended c hmem => ?_⟩
  rcases next_of_closing hmutex hnext with
    ⟨-, hzero, rfl⟩ | ⟨i, b, c, c', -, -, -, -, hmutex'⟩
  · obtain ⟨i, hc⟩ := List.mem_iff_getElem?.mp hmem
    refine ⟨h.valid.input_closed h.counted hmutex hc, ?_⟩
    rw [h.counted.waitGroup, runningCount_eq_zero] at hzero
    exact Consumer.point_of_not_running (hzero c hmem)
  · exact absurd (hmutex'.trans hmutex) hended

/-- Once `close` waits for the goroutines it returns after a bounded number of steps, in any
order of them: until then the goroutines can go on although nobody receives from an output,
and when it returns all inputs are closed and each goroutine has only `close(out)` left. -/
theorem close_returns {as bs : List (Action δ)}
    (h : Run next (fun _ _ => True) makeConsumers as subs)
    (hclose : subs.mutex = some .close)
    (h' : Run next (fun s _ => s.mutex = some .close) subs bs subs') :
    bs.length + subs'.remaining ≤ subs.remaining ∧
    (subs'.mutex = some .close →
      ∃ a : Action δ, a.isOwn = true ∧ (subs'.next a).isSome = true) ∧
    (subs'.mutex ≠ some .close → ∀ c ∈ subs'.consumers, c.input.isClosed = true ∧
      (c.point = .closeOut ∨ c.point = .returned) ∧ c.input.Safe ∧ c.output.Safe) := by
  have hboth : subs.Valid ∧ subs.Counted :=
    h.invariant (P := fun subs => subs.Valid ∧ subs.Counted)
      ⟨valid_makeConsumers, rfl, fun hmutex => by cases hmutex⟩
      fun _ _ _ hs _ hnext => ⟨hs.1.step hnext, hs.2.step hs.1 hnext⟩
  have hstart : subs.Closing := ⟨hboth.1, hboth.2, fun hended => absurd hclose hended⟩
  have hend : subs'.Closing := h'.invariant hstart fun _ _ _ hs hmutex hnext =>
    hs.step hmutex hnext
  refine ⟨?_, hend.valid.exists_own hend.counted, ?_⟩
  · apply h'.length_le hstart
    · intro s a s' hs hmutex hnext
      exact hs.step hmutex hnext
    · intro s a s' hs hmutex hnext
      exact hs.valid.remaining_next hmutex hnext
  · intro hended c hmem
    obtain ⟨hinput, hpoint⟩ := hend.ended hended c hmem
    obtain ⟨i, hc⟩ := List.mem_iff_getElem?.mp hmem
    have hconsumer := hend.valid.consumer i c hc
    exact ⟨hinput, hpoint, hconsumer.input, hconsumer.output⟩

/-- Two deliveries are waiting for a receiver that never comes when `close` is called. -/
theorem close_returns_unread :
    ∃ subs subs' : Consumers ℕ, Run next (fun _ _ => True) makeConsumers
        [.add [97] 0, .send [97] 7, .accept, .send [97] 8, .accept, .close] subs ∧
      Run next (fun s _ => s.mutex = some .close) subs
        [.step 0 .selectClosed, .step 0 .done, .wait] subs' ∧
      subs'.mutex = none ∧ 3 + subs'.remaining ≤ subs.remaining := by
  have hrun : ∃ subs : Consumers ℕ, Run next (fun _ _ => True) makeConsumers
      [.add [97] 0, .send [97] 7, .accept, .send [97] 8, .accept, .close] subs ∧
      subs.mutex = some .close ∧
      ∃ subs', Run next (fun s _ => s.mutex = some .close) subs
        [.step 0 .selectClosed, .step 0 .done, .wait] subs' ∧ subs'.mutex = none :=
    ⟨_, .of_exec rfl, rfl, _, .cons rfl rfl (.cons rfl rfl (.cons rfl rfl (.nil _))), rfl⟩
  obtain ⟨subs, hrun, hmutex, subs', hclosing, hended⟩ := hrun
  exact ⟨subs, subs', hrun, hclosing, hended, (close_returns hrun hmutex hclosing).1⟩

end Consumers

end Amqp091

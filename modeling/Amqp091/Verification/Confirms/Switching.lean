import Amqp091.Algorithm.Confirming
import Amqp091.Shared.Transition
import Mathlib.Tactic.Common

/-! # Switching to confirm mode while publishing

A publish holds `ch.m` and reads `ch.confirming` twice: before the send, to count itself,
and after a failed send, to take the count back. `Confirm` sets the flag under another
mutex, so it may fall between the two. -/

namespace Amqp091

open Transition

def CounterEvent.call : CounterEvent → ℕ
  | .publish call => call
  | .unpublish call => call

def CounterEvent.isPublish : CounterEvent → Bool
  | .publish _ => true
  | .unpublish _ => false

namespace SwitchState

/-- What each action does, with the conditions under which it is enabled. -/
inductive Step (s : SwitchState) : SwitchAction → SwitchState → Prop
  | select : Step s .select { s with confirmer := .waiting }
  | answer : Step s .answer { s with confirmer := .answered }
  | switch : Step s .switch { s with confirmer := .returned, confirming := true }
  | lock (hfree : s.publisher = none) :
      Step s .lock { s with publisher := some (s.calls, .locked), calls := s.calls + 1 }
  | count {call : ℕ} (hlocked : s.publisher = some (call, .locked)) : Step s .count (s.count call)
  | sendOk {call : ℕ} {counted : Bool} (hsending : s.publisher = some (call, .sending counted)) :
      Step s .sendOk { s with publisher := none }
  | sendFail {call : ℕ} {counted : Bool} (hsending : s.publisher = some (call, .sending counted)) :
      Step s .sendFail { s with publisher := some (call, .failed counted) }
  | rollback {call : ℕ} {counted : Bool} (hfailed : s.publisher = some (call, .failed counted)) :
      Step s .rollback (s.rollback call)

theorem step_of_next {s s' : SwitchState} {a : SwitchAction} (h : s.next a = some s') :
    s.Step a s' := by
  cases a with
  | select =>
      simp only [next] at h
      split at h <;> cases h
      exact .select
  | answer =>
      simp only [next] at h
      split at h <;> cases h
      exact .answer
  | switch =>
      simp only [next] at h
      split at h <;> cases h
      exact .switch
  | lock =>
      simp only [next] at h
      split at h <;> cases h
      exact .lock ‹_›
  | count =>
      simp only [next] at h
      split at h <;> cases h
      exact .count ‹_›
  | sendOk =>
      simp only [next] at h
      split at h <;> cases h
      exact .sendOk ‹_›
  | sendFail =>
      simp only [next] at h
      split at h <;> cases h
      exact .sendFail ‹_›
  | rollback =>
      simp only [next] at h
      split at h <;> cases h
      exact .rollback ‹_›

/-! ## What holds in every run -/

/-- The publish that holds `ch.m` and has not counted itself has left no trace. -/
structure Fresh (s : SwitchState) : Prop where
  known : ∀ e ∈ s.log, e.call < s.calls
  holder : ∀ call phase, s.publisher = some (call, phase) → call < s.calls
  uncounted : ∀ call, s.publisher = some (call, .locked) ∨
    s.publisher = some (call, .sending false) ∨ s.publisher = some (call, .failed false) →
    .publish call ∉ s.log

theorem fresh_start : Fresh start where
  known := by simp [start]
  holder := by simp [start]
  uncounted := by simp [start]

/-- An event of the publish that holds `ch.m`, which it may be about to give up. -/
theorem Fresh.append {s : SwitchState} (h : Fresh s) {call : ℕ} {phase : PublishPhase}
    (hholder : s.publisher = some (call, phase)) {e : CounterEvent} (he : e.call = call)
    {c : Confirms UInt64} {publisher : Option (ℕ × PublishPhase)}
    (hpublisher : publisher = none ∨ publisher = some (call, .sending true)) :
    Fresh { s with confirms := c, log := s.log ++ [e], publisher := publisher } where
  known := by
    intro x hx
    rcases List.mem_append.mp hx with hx | hx
    · exact h.known x hx
    · rw [List.mem_singleton.mp hx, he]
      exact h.holder call phase hholder
  holder := by
    rintro call' phase' heq
    change publisher = _ at heq
    rcases hpublisher with rfl | rfl
    · cases heq
    · cases heq
      exact h.holder call phase hholder
  uncounted := by
    intro call' heq
    change publisher = _ ∨ publisher = _ ∨ publisher = _ at heq
    rcases hpublisher with rfl | rfl <;> simp at heq

/-- The publish goes on, or gives `ch.m` up, without an event. -/
theorem Fresh.proceed {s : SwitchState} (h : Fresh s) {publisher : Option (ℕ × PublishPhase)}
    (hholder : ∀ call phase, publisher = some (call, phase) → call < s.calls)
    (huncounted : ∀ call, publisher = some (call, .locked) ∨
      publisher = some (call, .sending false) ∨ publisher = some (call, .failed false) →
      .publish call ∉ s.log) : Fresh { s with publisher := publisher } :=
  ⟨h.known, hholder, huncounted⟩

theorem Fresh.step {s s' : SwitchState} {a : SwitchAction} (h : Fresh s) (hstep : s.Step a s') :
    Fresh s' := by
  cases hstep with
  | select => exact ⟨h.known, h.holder, h.uncounted⟩
  | answer => exact ⟨h.known, h.holder, h.uncounted⟩
  | switch => exact ⟨h.known, h.holder, h.uncounted⟩
  | lock hfree =>
      refine ⟨fun e he => Nat.lt_succ_of_lt (h.known e he), ?_, ?_⟩
      · rintro call phase heq
        cases heq
        exact Nat.lt_succ_self _
      · rintro call heq hmem
        have hcall : call = s.calls := by
          rcases heq with heq | heq | heq <;> cases heq
          rfl
        have hlt := h.known _ hmem
        rw [hcall] at hlt
        exact lt_irrefl _ hlt
  | count hlocked =>
      rw [SwitchState.count]
      split
      · exact h.append hlocked rfl (.inr rfl)
      · refine h.proceed ?_ ?_
        · rintro call phase heq
          cases heq
          exact h.holder _ _ hlocked
        · rintro call heq
          have hcall : s.publisher = some (call, .locked) := by
            rcases heq with heq | heq | heq <;> cases heq
            exact hlocked
          exact h.uncounted call (.inl hcall)
  | sendOk hsending => exact h.proceed (by simp) (by simp)
  | sendFail hsending =>
      refine h.proceed ?_ ?_
      · rintro call phase heq
        cases heq
        exact h.holder _ _ hsending
      · rintro call heq
        have hcall : s.publisher = some (call, .sending false) := by
          rcases heq with heq | heq | heq <;> cases heq
          exact hsending
        exact h.uncounted call (.inr (.inl hcall))
  | rollback hfailed =>
      rw [SwitchState.rollback]
      split
      · exact h.append hfailed rfl (.inl rfl)
      · exact h.proceed (by simp) (by simp)

theorem log_isPrefix_of_step {s s' : SwitchState} {a : SwitchAction} (hstep : s.Step a s') :
    s.log <+: s'.log := by
  cases hstep with
  | count => rw [SwitchState.count]; split <;> simp
  | rollback => rw [SwitchState.rollback]; split <;> simp
  | _ => exact List.prefix_rfl

/-! ## The counter -/

def publishes (log : List CounterEvent) : ℕ := log.countP fun e => e.isPublish

def rollbacks (log : List CounterEvent) : ℕ := log.countP fun e => !e.isPublish

@[simp] theorem publishes_publish (log : List CounterEvent) (call : ℕ) :
    publishes (log ++ [.publish call]) = publishes log + 1 := List.countP_append

@[simp] theorem publishes_unpublish (log : List CounterEvent) (call : ℕ) :
    publishes (log ++ [.unpublish call]) = publishes log := List.countP_append

@[simp] theorem rollbacks_publish (log : List CounterEvent) (call : ℕ) :
    rollbacks (log ++ [.publish call]) = rollbacks log := List.countP_append

@[simp] theorem rollbacks_unpublish (log : List CounterEvent) (call : ℕ) :
    rollbacks (log ++ [.unpublish call]) = rollbacks log + 1 := List.countP_append

/-- A count is taken back only by a publish that was counted before. -/
def Paired (log : List CounterEvent) : Prop :=
  ∀ before call after, log = before ++ .unpublish call :: after → .publish call ∈ before

/-- The counter is the number of publishes that were counted and not taken back. -/
structure Sound (s : SwitchState) : Prop where
  paired : Paired s.log
  rollbacks_le : rollbacks s.log ≤ publishes s.log
  published : s.confirms.published = UInt64.ofNat (publishes s.log - rollbacks s.log)

/-- The mode is not switched during a publish whose send fails. -/
def Unswitched (s : SwitchState) (a : SwitchAction) : Prop :=
  a = .rollback → ∀ call, s.publisher = some (call, .failed false) → s.confirming = false

theorem Paired.of_isPrefix {log log' : List CounterEvent} (h : Paired log') (hpre : log <+: log') :
    Paired log := by
  obtain ⟨rest, rfl⟩ := hpre
  rintro before call after rfl
  exact h before call (after ++ rest) (by simp)

theorem Paired.append_publish {log : List CounterEvent} (h : Paired log) (call : ℕ) :
    Paired (log ++ [.publish call]) := by
  intro before call' after heq
  rcases List.append_eq_append_iff.mp heq with ⟨mid, rfl, hmid⟩ | ⟨mid, rfl, hmid⟩
  · cases mid with
    | nil => cases hmid
    | cons e mid => simp at hmid
  · cases mid with
    | nil => cases hmid
    | cons e mid =>
        cases hmid
        exact h before call' mid rfl

theorem Paired.append_unpublish {log : List CounterEvent} (h : Paired log) {call : ℕ}
    (hmem : .publish call ∈ log) : Paired (log ++ [.unpublish call]) := by
  intro before call' after heq
  rcases List.append_eq_append_iff.mp heq with ⟨mid, rfl, hmid⟩ | ⟨mid, rfl, hmid⟩
  · cases mid with
    | nil =>
        cases hmid
        simpa using hmem
    | cons e mid => simp at hmid
  · cases mid with
    | nil =>
        cases hmid
        simpa using hmem
    | cons e mid =>
        cases hmid
        exact h before call' mid rfl

/-- One for the publish that holds `ch.m` if it is counted. -/
def owed (s : SwitchState) : ℕ :=
  match s.publisher with
  | some (_, .sending true) | some (_, .failed true) => 1
  | _ => 0

/-- What a run preserves as long as the mode is not switched during a publish whose send
fails. -/
structure Counting (s : SwitchState) : Prop where
  paired : Paired s.log
  balance : rollbacks s.log + s.owed ≤ publishes s.log
  published : s.confirms.published = UInt64.ofNat (publishes s.log - rollbacks s.log)
  counted : ∀ call, s.publisher = some (call, .sending true) ∨
    s.publisher = some (call, .failed true) → .publish call ∈ s.log

theorem counting_start : Counting start where
  paired := by
    intro before call after heq
    simp [start] at heq
  balance := le_rfl
  published := rfl
  counted := by simp [start]

theorem Counting.sound {s : SwitchState} (h : Counting s) : Sound s :=
  ⟨h.paired, le_trans (Nat.le_add_right _ _) h.balance, h.published⟩

/-- A step that leaves the log and the counter alone, and owes no more than before. -/
theorem Counting.proceed {s s' : SwitchState} (h : Counting s) (hlog : s'.log = s.log)
    (hconfirms : s'.confirms = s.confirms) (howed : s'.owed ≤ s.owed)
    (hcounted : ∀ call, s'.publisher = some (call, .sending true) ∨
      s'.publisher = some (call, .failed true) → s.publisher = some (call, .sending true) ∨
      s.publisher = some (call, .failed true)) : Counting s' where
  paired := hlog ▸ h.paired
  balance := by
    rw [hlog]
    exact le_trans (Nat.add_le_add_left howed _) h.balance
  published := by
    rw [hlog, hconfirms]
    exact h.published
  counted := fun call hcall => hlog ▸ h.counted call (hcounted call hcall)

theorem ofNat_sub_one {n : ℕ} (h : 1 ≤ n) : UInt64.ofNat n - 1 = UInt64.ofNat (n - 1) := by
  obtain ⟨m, rfl⟩ := Nat.exists_eq_add_of_le' h
  rw [UInt64.ofNat_add, Nat.add_sub_cancel]
  exact UInt64.add_sub_cancel _ _

theorem Counting.count {s : SwitchState} (h : Counting s) {call : ℕ}
    (hlocked : s.publisher = some (call, .locked)) : Counting (s.count call) := by
  rw [SwitchState.count]
  split
  · have hbalance := h.balance
    have hpublished := h.published
    have howed : s.owed = 0 := by rw [owed, hlocked]
    refine ⟨h.paired.append_publish call, ?_, ?_, ?_⟩
    · rw [rollbacks_publish, publishes_publish]
      change _ + 1 ≤ _
      omega
    · have hsub : publishes s.log + 1 - rollbacks s.log =
          publishes s.log - rollbacks s.log + 1 := by omega
      rw [rollbacks_publish, publishes_publish, hsub, UInt64.ofNat_add, ← hpublished]
      rfl
    · intro call' hcall
      have heq : call' = call := by
        rcases hcall with hcall | hcall <;> cases hcall
        rfl
      simp [heq]
  · refine h.proceed rfl rfl (Nat.zero_le _) ?_
    rintro call' (hcall | hcall) <;> cases hcall

/-- Under the condition only a counted publish takes its count back. -/
theorem Counting.rollback {s : SwitchState} (h : Counting s) {call : ℕ} {counted : Bool}
    (hfailed : s.publisher = some (call, .failed counted)) (hguard : s.Unswitched .rollback) :
    Counting (s.rollback call) := by
  rw [SwitchState.rollback]
  split
  · rename_i hconfirming
    have hcounted : counted = true := by
      cases counted with
      | true => rfl
      | false =>
          rw [hguard rfl call hfailed] at hconfirming
          cases hconfirming
    subst hcounted
    have hbalance := h.balance
    have hpublished := h.published
    have howed : s.owed = 1 := by rw [owed, hfailed]
    refine ⟨h.paired.append_unpublish (h.counted call (.inr hfailed)), ?_, ?_, ?_⟩
    · rw [rollbacks_unpublish, publishes_unpublish]
      change _ + 0 ≤ _
      omega
    · rw [rollbacks_unpublish, publishes_unpublish, ← Nat.sub_sub, ← ofNat_sub_one (by omega),
        ← hpublished]
      rfl
    · simp
  · exact h.proceed rfl rfl (Nat.zero_le _) (by simp)

theorem Counting.step {s s' : SwitchState} {a : SwitchAction} (h : Counting s)
    (hguard : s.Unswitched a) (hstep : s.Step a s') : Counting s' := by
  cases hstep with
  | select => exact h.proceed rfl rfl le_rfl fun _ => id
  | answer => exact h.proceed rfl rfl le_rfl fun _ => id
  | switch => exact h.proceed rfl rfl le_rfl fun _ => id
  | lock hfree => exact h.proceed rfl rfl (Nat.zero_le _) (by simp)
  | count hlocked => exact h.count hlocked
  | sendOk hsending => exact h.proceed rfl rfl (Nat.zero_le _) (by simp)
  | @sendFail call counted hsending =>
      refine h.proceed rfl rfl ?_ ?_
      · cases counted <;> simp [owed, hsending]
      · rintro call' (hcall | hcall) <;> cases hcall
        exact .inl hsending
  | rollback hfailed => exact h.rollback hfailed hguard

/-! ## Runs -/

theorem log_isPrefix_of_run {s s' : SwitchState} {as : List SwitchAction}
    {guard : SwitchState → SwitchAction → Prop} (h : Run next guard s as s') :
    s.log <+: s'.log := by
  induction h with
  | nil => exact List.prefix_rfl
  | cons _ hnext _ ih => exact (log_isPrefix_of_step (step_of_next hnext)).trans ih

/-- A count that is taken back without having been taken stays in the log. -/
theorem unswitched_of_paired {s s' : SwitchState} {as : List SwitchAction} (hfresh : Fresh s)
    (h : Run next (fun _ _ => True) s as s') (hpaired : Paired s'.log) :
    Run next Unswitched s as s' := by
  induction h with
  | nil => exact .nil _
  | @cons s m s' a as _ hnext hrest ih =>
      refine .cons ?_ hnext (ih (hfresh.step (step_of_next hnext)) hpaired)
      rintro rfl call hfailed
      by_contra hconfirming
      have hm : m.log = s.log ++ [.unpublish call] := by
        simp only [next, hfailed, Option.some.injEq] at hnext
        rw [← hnext, SwitchState.rollback, if_pos (by simpa using hconfirming)]
      have hlast := hpaired.of_isPrefix (log_isPrefix_of_run hrest)
      rw [hm] at hlast
      exact hfresh.uncounted call (.inr (.inr hfailed)) (hlast s.log call [] rfl)

/-- In every interleaving of `Confirm` with publishes the counter stays right exactly when
`Confirm` does not switch the mode during a publish whose send fails. -/
theorem sound_iff_unswitched (as : List SwitchAction) (s : SwitchState)
    (h : Run next (fun _ _ => True) start as s) : Sound s ↔ Run next Unswitched start as s := by
  constructor
  · intro hsound
    exact unswitched_of_paired fresh_start h hsound.paired
  · intro hrun
    refine Counting.sound (hrun.invariant counting_start ?_)
    intro s a s' hs hguard hnext
    exact hs.step hguard (step_of_next hnext)

/-- A publish that fails after the switch is taken back. -/
theorem sound_of_failure_after_switch :
    ∃ s, Run next (fun _ _ => True) start
        [.select, .answer, .switch, .lock, .count, .sendFail, .rollback] s ∧
      s.log = [.publish 0, .unpublish 0] ∧ Sound s := by
  have hother : ∀ (s : SwitchState) (a : SwitchAction), a ≠ .rollback → s.Unswitched a :=
    fun _ _ hne heq => absurd heq hne
  refine ⟨_, .cons trivial rfl (.cons trivial rfl (.cons trivial rfl (.cons trivial rfl
    (.cons trivial rfl (.cons trivial rfl (.cons trivial rfl (.nil _))))))), rfl, ?_⟩
  refine (sound_iff_unswitched
    [.select, .answer, .switch, .lock, .count, .sendFail, .rollback] _
    (.cons trivial rfl (.cons trivial rfl (.cons trivial rfl (.cons trivial rfl
    (.cons trivial rfl (.cons trivial rfl (.cons trivial rfl (.nil _))))))))).mpr ?_
  refine .cons (hother _ _ (by decide)) rfl (.cons (hother _ _ (by decide)) rfl
    (.cons (hother _ _ (by decide)) rfl (.cons (hother _ _ (by decide)) rfl
    (.cons (hother _ _ (by decide)) rfl (.cons (hother _ _ (by decide)) rfl
    (.cons ?_ rfl (.nil _)))))))
  rintro - call hfailed
  cases hfailed

/-- The first read comes before the switch, the second one after it: the counter goes from
zero to its largest value. -/
theorem published_underflows :
    ∃ s, Run next (fun _ _ => True) start
        [.select, .answer, .lock, .count, .switch, .sendFail, .rollback] s ∧
      s.log = [.unpublish 0] ∧ s.confirms.published = 18446744073709551615 ∧ ¬ Sound s := by
  refine ⟨_, .cons trivial rfl (.cons trivial rfl (.cons trivial rfl (.cons trivial rfl
    (.cons trivial rfl (.cons trivial rfl (.cons trivial rfl (.nil _))))))), rfl, rfl, ?_⟩
  intro hsound
  exact absurd hsound.rollbacks_le (by decide)

end SwitchState

end Amqp091

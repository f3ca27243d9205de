import Amqp091.Algorithm.Shutdown
import Amqp091.Shared.Transition
import Amqp091.Shared.WaitFor

/-! # When shutdown can reach the transport

A call that has passed the tests of both flags goes on to write, and with a peer that does not
read it holds the mutex of its channel until the transport is closed. -/

namespace Amqp091

open Concurrency Transition

variable {rt : GoRuntime}

namespace ClosingConnection

/-! ## Who waits for whom -/

def mutexHolder (s : ClosingConnection rt) (m : ConnectionMutex) : Option ConnectionThread :=
  if s.shutdown.holds m then some .shutdown
  else match m with
    | .channel i => if (s.holder i).isSome then some (.caller i) else none
    | .send => s.sendM.map .caller
    | _ => none

/-- A call that is blocked in a write of the transport is suspended until it is closed. -/
def waitGraph (s : ClosingConnection rt) : WaitGraph ConnectionThread ConnectionMutex where
  waits
    | .shutdown => s.shutdown.waits
    | .caller i => (s.holder i).bind SendingCall.waits
  holder := s.mutexHolder
  suspended t := ∃ i h, t = .caller i ∧ s.holder i = some h ∧ h.stage = .blocked ∧
    s.transportClosed = false

/-- `shutdown` waits for nobody who can only go on after it has closed the transport. -/
def CanClose (s : ClosingConnection rt) : Prop :=
  ∀ m t, s.waitGraph.waits .shutdown = some m → s.waitGraph.holder m = some t →
    ¬s.waitGraph.Blocked t

end ClosingConnection

/-! ## Calls that go on to write -/

namespace SendingCall

/-- The call is in front of a write or a flush, or inside of it. -/
def writes (h : SendingCall rt) : Bool :=
  match h.point with
  | .write _ | .flush _ => true
  | _ => false

/-- The call writes or flushes although both flags are set: it is in front of a write or a
flush, or it has passed the test of the channel's flag and has deferred a flush. -/
def committed (h : SendingCall rt) : Bool :=
  match h.point with
  | .write _ | .flush _ => true
  | .test _ => h.call.isPublish
  | _ => false

theorem committed_of_writes {h : SendingCall rt} (hwrites : h.writes = true) :
    h.committed = true := by
  obtain ⟨call, point, stage⟩ := h
  cases point <;> first | rfl | cases hwrites

theorem waits_eq_none {h : SendingCall rt} (hcommitted : h.committed = false) :
    h.waits = none := by
  obtain ⟨call, point, stage⟩ := h
  cases point <;> first | rfl | cases hcommitted

end SendingCall

namespace ClosingConnection

structure Valid (s : ClosingConnection rt) : Prop where
  entered : s.shutdown ≠ .idle → s.closed = true
  calls : ∀ i h, s.holder i = some h →
    h.call ≠ .closeOk ∧ (h.stage = .outside ∨ h.writes = true)
  waiting : ∀ i, s.shutdown = .waitChannel i →
    (∀ ch, s.channels[i]? = some ch → ch.closed = true) ∧
      ∀ h, s.holder i = some h → h.committed = false

variable {s s' : ClosingConnection rt} {frameSize : ℤ} {i j : ℕ}

theorem valid_start (n : ℕ) : (start n : ClosingConnection rt).Valid where
  entered := fun h => absurd rfl h
  calls := by
    intro i h hh
    simp only [holder, start, Option.bind_eq_some_iff] at hh
    obtain ⟨ch, hch, hholder⟩ := hh
    rw [List.eq_of_mem_replicate (List.mem_of_getElem? hch)] at hholder
    cases hholder
  waiting := nofun

/-- A caller that waits neither for `sendM` nor in a write does not depend on the transport. -/
theorem Valid.canClose (h : s.Valid) : s.CanClose := by
  intro m t hwaits hholder
  cases hs : s.shutdown with
  | idle | visit | finishing | done => simp [waitGraph, hs, ShutdownPoint.waits] at hwaits
  | waitConnection | waitNotify | waitConsumers =>
      simp only [waitGraph, hs, ShutdownPoint.waits, Option.some.injEq] at hwaits
      subst hwaits
      simp [waitGraph, mutexHolder, hs, ShutdownPoint.holds] at hholder
  | waitChannel i =>
      simp only [waitGraph, hs, ShutdownPoint.waits, Option.some.injEq] at hwaits
      subst hwaits
      cases hcall : s.holder i with
      | none => simp [waitGraph, mutexHolder, hs, ShutdownPoint.holds, hcall] at hholder
      | some x =>
          simp [waitGraph, mutexHolder, hs, ShutdownPoint.holds, hcall] at hholder
          subst hholder
          have hcommitted := (h.waiting i hs).2 x hcall
          refine WaitGraph.not_blocked_of_running ?_ ?_
          · simp [waitGraph, hcall, SendingCall.waits_eq_none hcommitted]
          · rintro ⟨j, y, hj, hy, hblocked, -⟩
            cases hj
            cases hcall.symm.trans hy
            rcases (h.calls i x hcall).2 with hstage | hwrites
            · simp [hstage] at hblocked
            · simp [SendingCall.committed_of_writes hwrites] at hcommitted

/-! ## Steps of calls -/

theorem holder_setHolder (h : Option (SendingCall rt)) :
    (s.setHolder i h).holder j = if i = j then s.channels[i]?.bind fun _ => h else s.holder j := by
  simp only [holder, setHolder, List.getElem?_modify]
  split
  · rename_i heq
    subst heq
    cases s.channels[i]? <;> rfl
  · cases s.channels[j]? <;> rfl

theorem holder_of_setHolder {h : Option (SendingCall rt)} {x : SendingCall rt}
    (hx : (s.setHolder i h).holder j = some x) : i = j ∧ h = some x ∨ s.holder j = some x := by
  rw [holder_setHolder] at hx
  split at hx
  · rename_i heq
    obtain ⟨ch, -, hx⟩ := Option.bind_eq_some_iff.mp hx
    exact .inl ⟨heq, hx⟩
  · exact .inr hx

/-- A caller takes a step. -/
theorem Valid.setHolder (h : s.Valid) {x : Option (SendingCall rt)}
    (hcall : ∀ y, x = some y → y.call ≠ .closeOk ∧ (y.stage = .outside ∨ y.writes = true))
    (hwaiting : s.shutdown = .waitChannel i → ∀ y, x = some y → y.committed = false) :
    (s.setHolder i x).Valid where
  entered := h.entered
  calls := by
    intro j y hy
    rcases holder_of_setHolder hy with ⟨-, hy⟩ | hy
    · exact hcall y hy
    · exact h.calls j y hy
  waiting := by
    intro j hj
    obtain ⟨hclosed, hcommitted⟩ := h.waiting j hj
    constructor
    · intro ch hch
      rw [ClosingConnection.setHolder, List.getElem?_modify] at hch
      obtain ⟨ch', hch', rfl⟩ := Option.map_eq_some_iff.mp hch
      split <;> exact hclosed ch' hch'
    · intro y hy
      rcases holder_of_setHolder hy with ⟨heq, hx⟩ | hold
      · exact hwaiting (heq ▸ hj) y hx
      · exact hcommitted y hold

theorem Valid.lock (h : s.Valid) {call : Call rt} (hnext : s.lock i call = some s') :
    s'.Valid := by
  unfold ClosingConnection.lock at hnext
  split at hnext
  · cases hnext
  · rename_i call _ _ _ hcall
    cases hnext
    refine h.setHolder (fun y hy => ?_) (fun _ y hy => ?_)
    · cases hy
      exact ⟨hcall, .inl rfl⟩
    · cases hy
      rfl
  · cases hnext

/-- With both flags set a call that is not committed does not become so. -/
theorem committed_of_step {l l' : Link} {id : UInt16} {call : Call rt} {t : Transport}
    {point point' : Point} {stage : SendStage} (hcall : call ≠ .closeOk)
    (hclosed : l.closed = true) (hconnection : l.connectionClosed = true)
    (hcommitted : (⟨call, point, stage⟩ : SendingCall rt).committed = false)
    (hstep : l.step frameSize id call.message t point = some (l', point')) :
    (⟨call, point', stage⟩ : SendingCall rt).committed = false := by
  have hsend : call.message.sendClosed = .done (.returned (some (.go errClosed))) := by
    cases call with
    | closeOk => exact absurd rfl hcall
    | _ => rfl
  cases point with
  | send | sendOpen =>
      simp only [Link.step, hclosed, if_true, hsend, Option.some.injEq, Prod.mk.injEq] at hstep
      obtain ⟨-, rfl⟩ := hstep
      rfl
  | test cursor =>
      simp only [Link.step, hconnection, if_true, Option.some.injEq, Prod.mk.injEq] at hstep
      obtain ⟨-, rfl⟩ := hstep
      cases call with
      | publish => cases hcommitted
      | _ => rfl
  | write | flush => cases hcommitted
  | done => cases hstep

theorem Valid.test (h : s.Valid) (hnext : s.test frameSize i = some s') : s'.Valid := by
  unfold ClosingConnection.test at hnext
  split at hnext
  · rename_i ch x hch hx
    obtain ⟨hcall, hstage⟩ := h.calls i x hx
    split at hnext
    · cases hnext
    · cases hnext
    · cases hnext
    · rename_i hwrite hflush hdone
      obtain ⟨⟨l', point⟩, hstep, rfl⟩ := Option.map_eq_some_iff.mp hnext
      have houtside : x.stage = .outside := by
        refine hstage.resolve_right fun hwrites => ?_
        unfold SendingCall.writes at hwrites
        split at hwrites
        · exact hwrite _ ‹_›
        · exact hflush _ ‹_›
        · cases hwrites
      refine h.setHolder (fun y hy => ?_) (fun hwaiting y hy => ?_)
      · cases hy
        exact ⟨hcall, .inl houtside⟩
      · cases hy
        obtain ⟨hclosed, hcommitted⟩ := h.waiting i hwaiting
        exact committed_of_step hcall (hclosed ch hch) (h.entered (by simp [hwaiting]))
          (hcommitted x hx) hstep
  · cases hnext

/-- Nobody writes on the channel that `shutdown` waits for. -/
theorem Valid.not_waiting (h : s.Valid) {x : SendingCall rt} (hx : s.holder i = some x)
    (hwrites : x.writes = true) : s.shutdown ≠ .waitChannel i := by
  intro hwaiting
  have hcommitted := (h.waiting i hwaiting).2 x hx
  simp [SendingCall.committed_of_writes hwrites] at hcommitted

theorem Valid.lockSend (h : s.Valid) (hnext : s.lockSend i = some s') : s'.Valid := by
  unfold ClosingConnection.lockSend at hnext
  split at hnext
  · rename_i call cursor hx hfree
    cases hnext
    have hvalid := h.setHolder (i := i) (x := some ⟨call, .write cursor, .locked⟩)
      (fun y hy => by cases hy; exact ⟨(h.calls i _ hx).1, .inr rfl⟩)
      (fun hwaiting => absurd hwaiting (h.not_waiting hx rfl))
    exact { hvalid with }
  · rename_i call outcome hx hfree
    cases hnext
    have hvalid := h.setHolder (i := i) (x := some ⟨call, .flush outcome, .locked⟩)
      (fun y hy => by cases hy; exact ⟨(h.calls i _ hx).1, .inr rfl⟩)
      (fun hwaiting => absurd hwaiting (h.not_waiting hx rfl))
    exact { hvalid with }
  · cases hnext

theorem Valid.sent (h : s.Valid) {x : SendingCall rt} {t : Transport}
    (hx : s.holder i = some x) (hwrites : x.writes = true)
    (hnext : s.sent frameSize i x t = some s') : s'.Valid := by
  unfold ClosingConnection.sent at hnext
  split at hnext
  · obtain ⟨⟨l', point⟩, -, rfl⟩ := Option.map_eq_some_iff.mp hnext
    have hvalid := h.setHolder (i := i) (x := some ⟨x.call, point, .outside⟩)
      (fun y hy => by cases hy; exact ⟨(h.calls i x hx).1, .inl rfl⟩)
      (fun hwaiting => absurd hwaiting (h.not_waiting hx hwrites))
    exact { hvalid with }
  · cases hnext

theorem Valid.write (h : s.Valid) {full : Bool} (hnext : s.write frameSize i full = some s') :
    s'.Valid := by
  have hwrites : ∀ x, s.holder i = some x → x.stage ≠ .outside → x.writes = true :=
    fun x hx hstage => (h.calls i x hx).2.resolve_left hstage
  unfold ClosingConnection.write at hnext
  split at hnext
  · rename_i call point hx hopen
    have hx' := hwrites _ hx nofun
    split at hnext
    · cases hnext
      refine h.setHolder (fun y hy => ?_) (fun hwaiting => absurd hwaiting (h.not_waiting hx hx'))
      cases hy
      exact ⟨(h.calls i _ hx).1, .inr hx'⟩
    · exact h.sent hx hx' hnext
  · rename_i call point hx hclosed
    exact h.sent hx (hwrites _ hx nofun) hnext
  · rename_i call point hx hclosed
    exact h.sent hx (hwrites _ hx nofun) hnext
  · cases hnext

theorem Valid.unlock (h : s.Valid) (hnext : s.unlock i = some s') : s'.Valid := by
  unfold ClosingConnection.unlock at hnext
  split at hnext <;> cases hnext
  refine h.setHolder (fun y hy => ?_) (fun _ y hy => ?_) <;> cases hy

/-! ## Steps of `shutdown` -/

/-- When `shutdown` comes to a channel, no call that holds its mutex is committed to write. -/
def ComesInTime (s : ClosingConnection rt) (a : Action rt) : Prop :=
  a = .setClosed → ∀ i h, s.shutdown = .visit i → s.holder i = some h → h.committed = false

theorem Valid.of_shutdown (h : s.Valid) {p : ShutdownPoint} (hs : s.shutdown ≠ .idle)
    (hp : ∀ i, p ≠ .waitChannel i) (transportClosed : Bool) :
    Valid { s with shutdown := p, transportClosed := transportClosed } where
  entered := fun _ => h.entered hs
  calls := h.calls
  waiting := fun i hi => absurd hi (hp i)

theorem Valid.setClosed (h : s.Valid) (hguard : ComesInTime s .setClosed)
    (hnext : s.setClosed = some s') : s'.Valid := by
  unfold ClosingConnection.setClosed at hnext
  split at hnext
  · rename_i i hs
    obtain ⟨-, ⟨⟩⟩ := Option.ite_none_right_eq_some.mp hnext
    have hholder : ∀ j, holder { s with
        channels := s.channels.modify i fun ch => { ch with closed := true }
        shutdown := .waitChannel i } j = s.holder j := by
      intro j
      simp only [holder, List.getElem?_modify]
      cases s.channels[j]? with
      | none => rfl
      | some ch => split <;> rfl
    refine ⟨fun _ => h.entered (by simp [hs]), fun j x hx => h.calls j x ?_, ?_⟩
    · rw [← hholder j]
      exact hx
    · intro j hj
      cases hj
      refine ⟨fun ch hch => ?_, fun x hx => hguard rfl i x hs ?_⟩
      · rw [List.getElem?_modify] at hch
        obtain ⟨ch', -, rfl⟩ := Option.map_eq_some_iff.mp hch
        rw [if_pos rfl]
      · rw [← hholder i]
        exact hx
  · cases hnext

theorem Valid.step (h : s.Valid) {a : Action rt} (hguard : ComesInTime s a)
    (hnext : s.next frameSize a = some s') : s'.Valid := by
  cases a with
  | lock i call => exact h.lock hnext
  | test i => exact h.test hnext
  | lockSend i => exact h.lockSend hnext
  | write i full => exact h.write hnext
  | unlock i => exact h.unlock hnext
  | setClosed => exact h.setClosed hguard hnext
  | enter =>
      have hnext : s.enter = some s' := hnext
      unfold ClosingConnection.enter at hnext
      split at hnext <;> cases hnext
      exact ⟨fun _ => rfl, h.calls, nofun⟩
  | lockConnection | lockChannel | lockNotify | lockConsumers | finish | closeTransport =>
      have hmove : ∃ p t, s' = { s with shutdown := p, transportClosed := t } ∧
          s.shutdown ≠ .idle ∧ ∀ i, p ≠ .waitChannel i := by
        grind [next, lockConnection, lockChannel, lockNotify, lockConsumers, finish, closeTransport]
      obtain ⟨p, t, rfl, hs, hp⟩ := hmove
      exact h.of_shutdown hs hp t

/-- If `shutdown` comes to no channel whose mutex is held by a call that is going to write, it
never waits for somebody who waits for the transport to be closed. -/
theorem canClose_of_comesInTime {n : ℕ} {as : List (Action rt)}
    (hrun : Run (next frameSize) ComesInTime (start n) as s) : s.CanClose :=
  (hrun.invariant (P := Valid) (valid_start n) fun _ _ _ h hguard hnext =>
    h.step hguard hnext).canClose

/-- An `Ack` that was about to test the flag of its channel when `shutdown` came to it. -/
theorem canClose_of_comesInTime_ack :
    ∃ s : ClosingConnection .exact, Run (next 0) ComesInTime (start 1)
        [.enter, .lockConnection, .lock 0 (.ack 1 false), .test 0, .setClosed, .test 0] s ∧
      s.waitGraph.waits .shutdown = some (.channel 0) ∧
      s.waitGraph.holder (.channel 0) = some (.caller 0) ∧ s.CanClose := by
  have hrun : Run (next 0) ComesInTime (start 1 : ClosingConnection .exact)
      [.enter, .lockConnection, .lock 0 (.ack 1 false), .test 0, .setClosed, .test 0] _ :=
    .cons nofun rfl (.cons nofun rfl (.cons nofun rfl (.cons nofun rfl (.cons
      (fun _ i h hs hh => by cases hs; cases hh; rfl) rfl (.cons nofun rfl (.nil _))))))
  exact ⟨_, hrun, rfl, rfl, canClose_of_comesInTime hrun⟩

/-- An `Ack` is blocked in its write when `shutdown` comes to its channel. -/
theorem shutdown_waits_for_blocked_write :
    ∃ s : ClosingConnection .exact, Run (next 0) (fun _ _ => True) (start 1)
        [.lock 0 (.ack 1 false), .test 0, .test 0, .test 0, .lockSend 0, .write 0 false, .enter,
          .lockConnection, .setClosed] s ∧ ¬s.CanClose := by
  refine ⟨_, .cons trivial rfl (.cons trivial rfl (.cons trivial rfl (.cons trivial rfl
    (.cons trivial rfl (.cons trivial rfl (.cons trivial rfl (.cons trivial rfl
    (.cons trivial rfl (.nil _))))))))), fun hclose => ?_⟩
  exact hclose (.channel 0) (.caller 0) rfl rfl (.suspended ⟨0, _, rfl, rfl, rfl, rfl⟩)

end ClosingConnection

end Amqp091

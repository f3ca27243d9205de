import Amqp091.Algorithm.NotifyConfirm
import Amqp091.Verification.Confirms.Resequencing

/-! # Confirmations reach the channels of `NotifyConfirm`

From the confirmations of the server over the resequencer and the listener to the two
channels of the application. -/

namespace Amqp091

open Channels Transition

/-! ## Every confirmation that is passed on was given by the server -/

/-- Some confirmation of the server says this about the tag. -/
def Vouches (history : List ServerConfirm) (x : Confirmation ℕ) : Prop :=
  ∃ e ∈ history, e.Covers x.deliveryTag ∧ e.confirmed.ack = x.ack

theorem Vouches.append {history : List ServerConfirm} {x : Confirmation ℕ}
    (h : Vouches history x) (e : ServerConfirm) : Vouches (history ++ [e]) x := by
  obtain ⟨e', hmem, hcovers⟩ := h
  exact ⟨e', List.mem_append_left _ hmem, hcovers⟩

structure Vouched (history : List ServerConfirm) (c : Confirms ℕ) : Prop where
  stored : ∀ t x, c.sequencer.lookup t = some x → Vouches history x
  listeners : ∀ log ∈ c.listeners, ∀ x ∈ log, Vouches history x

namespace Vouched

variable {history : List ServerConfirm} {c c' : Confirms ℕ}

theorem append (h : Vouched history c) (e : ServerConfirm) : Vouched (history ++ [e]) c where
  stored := fun t x hx => (h.stored t x hx).append e
  listeners := fun log hlog x hx => (h.listeners log hlog x hx).append e

theorem confirm (h : Vouched history c) {x : Confirmation ℕ} (hx : Vouches history x) :
    Vouched history (c.confirm x) where
  stored := by
    intro t y hy
    rw [Confirms.confirm_sequencer] at hy
    by_cases heq : t = c.expecting
    · rw [heq, AList.lookup_erase] at hy
      cases hy
    · rw [AList.lookup_erase_ne heq] at hy
      exact h.stored t y hy
  listeners := by
    intro log hlog y hy
    rw [Confirms.confirm_listeners] at hlog
    obtain ⟨old, hold, rfl⟩ := List.mem_map.mp hlog
    rcases List.mem_append.mp hy with hy | hy
    · exact h.listeners old hold y hy
    · rwa [List.mem_singleton.mp hy]

theorem insert (h : Vouched history c) {x : Confirmation ℕ} (hx : Vouches history x)
    (d : DeferredConfirmations ℕ) : Vouched history { c with
      deferredConfirmations := d
      sequencer := c.sequencer.insert x.deliveryTag x } where
  stored := by
    intro t y hy
    by_cases heq : t = x.deliveryTag
    · rw [heq, AList.lookup_insert] at hy
      cases hy
      exact hx
    · rw [AList.lookup_insert_ne heq] at hy
      exact h.stored t y hy
  listeners := h.listeners

theorem resequence (h : Vouched history c) : Vouched history c.resequence := by
  apply Confirms.resequence_induction (P := Vouched history) _ c h
  intro c x hc _ hfound
  exact hc.confirm (hc.stored _ x hfound)

theorem head {Conf : ℕ → Prop} {e : ServerConfirm} (h : Vouched history c)
    (hseq : Sequencing Conf 0 c) (hrange : ∀ t, e.Covers t → 1 ≤ t ∧ t ≤ c.published)
    (hhead : e.head c = some c') : Vouched (history ++ [e]) c' := by
  have hnew : ∀ {x : Confirmation ℕ}, e.Covers x.deliveryTag → e.confirmed.ack = x.ack →
      Vouches (history ++ [e]) x := fun hcovers hack => ⟨e, by simp, hcovers, hack⟩
  refine (head_induction (P := Vouched (history ++ [e])) hseq hrange hhead ?_ ?_ ?_).1
  · intro d
    exact { h.append e with }
  · intro c hc hcovers
    exact hc.confirm (hnew hcovers rfl)
  · rintro d x rfl -
    exact (h.append _).insert (hnew rfl rfl) d

end Vouched

/-! ## What happens to the listeners -/

/-- All listeners got the same confirmations since `c`. -/
structure Notifies (c c' : Confirms ℕ) : Prop where
  closed : c'.closed = c.closed
  published : c'.published = c.published
  listeners : ∃ new, c'.listeners = c.listeners.map (· ++ new)

namespace Notifies

variable {c c' : Confirms ℕ}

theorem refl (c : Confirms ℕ) : Notifies c c where
  closed := rfl
  published := rfl
  listeners := ⟨[], by simp⟩

theorem confirm (h : Notifies c c') (x : Confirmation ℕ) : Notifies c (c'.confirm x) where
  closed := h.closed
  published := h.published
  listeners := by
    obtain ⟨new, hnew⟩ := h.listeners
    exact ⟨new ++ [x], by simp [hnew]⟩

theorem resequence (c : Confirms ℕ) : Notifies c c.resequence := by
  apply Confirms.resequence_induction (P := Notifies c) _ c (refl c)
  intro c' x hc' _ _
  exact hc'.confirm x

theorem head {e : ServerConfirm} (h : e.head c = some c') : Notifies c c' := by
  cases e with
  | one confirmed =>
      cases h
      obtain ⟨tag, ack⟩ := confirmed
      by_cases htag : c.expecting = tag
      · subst htag
        rw [Confirms.oneHead_of_eq]
        exact { (refl c).confirm ⟨c.expecting, ack⟩ with }
      · rw [Confirms.oneHead_of_ne htag]
        exact { refl c with }
  | multiple confirmed =>
      apply (Confirms.multipleLoop_induction (P := Notifies c) _ _ h).1
      · intro c' hc' _
        exact hc'.confirm _
      · exact { refl c with }

end Notifies

/-! ## The goroutine -/

/-- The first `k` confirmations of the log were sent on, each to its channel. -/
structure Passed (log : List (Confirmation ℕ)) (shared : Bool) (k : ℕ) (acks nacks : List ℕ) :
    Prop where
  acks : acks = ((log.take k).filter (Notifier.toAck shared)).map Confirmation.deliveryTag
  nacks : nacks =
    ((log.take k).filter fun c => !Notifier.toAck shared c).map Confirmation.deliveryTag

namespace Passed

variable {log log' : List (Confirmation ℕ)} {shared : Bool} {k : ℕ} {acks nacks : List ℕ}
  {c : Confirmation ℕ}

theorem grow (h : Passed log shared k acks nacks) (hk : k ≤ log.length) (hlog : log <+: log') :
    Passed log' shared k acks nacks := by
  obtain ⟨new, rfl⟩ := hlog
  constructor
  · rw [List.take_append_of_le_length hk]
    exact h.acks
  · rw [List.take_append_of_le_length hk]
    exact h.nacks

theorem take_succ (hget : log[k]? = some c) : log.take (k + 1) = log.take k ++ [c] := by
  rw [List.take_add_one, hget]
  rfl

theorem send_ack (h : Passed log shared k acks nacks) (hget : log[k]? = some c)
    (hack : Notifier.toAck shared c = true) :
    Passed log shared (k + 1) (acks ++ [c.deliveryTag]) nacks := by
  constructor
  · simp [take_succ hget, hack, ← h.acks]
  · simp [take_succ hget, hack, ← h.nacks]

theorem send_nack (h : Passed log shared k acks nacks) (hget : log[k]? = some c)
    (hnack : Notifier.toAck shared c = false) :
    Passed log shared (k + 1) acks (nacks ++ [c.deliveryTag]) := by
  constructor
  · simp [take_succ hget, hnack, ← h.acks]
  · simp [take_succ hget, hnack, ← h.nacks]

/-- Every one of them is in one of the two channels. -/
theorem perm (h : Passed log shared k acks nacks) :
    (acks ++ nacks).Perm ((log.take k).map Confirmation.deliveryTag) := by
  rw [h.acks, h.nacks, ← List.map_append]
  exact (List.filter_append_perm _ _).map _

end Passed

namespace TagChan

variable {c c' : TagChan} {waits : Bool} {tag : ℕ}

theorem send_cases (hopen : c.chan.isClosed = false) (htaken : c.taken ≤ c.chan.sent.length)
    (h : c.send waits tag = some c') : c'.chan = { c.chan with sent := c.chan.sent ++ [tag] } ∧
      c'.taken ≤ c.chan.sent.length + 1 := by
  have hsent := Chan.send_of_open (x := tag) hopen
  cases waits with
  | true =>
      simp only [send, if_true] at h
      obtain ⟨-, ⟨⟩⟩ := Option.ite_none_right_eq_some.mp h
      exact ⟨hsent, Nat.succ_le_succ htaken⟩
  | false =>
      simp only [send, Bool.false_eq_true, if_false] at h
      obtain ⟨-, ⟨⟩⟩ := Option.ite_none_right_eq_some.mp h
      exact ⟨hsent, htaken.trans (Nat.le_succ _)⟩

theorem receive_cases (h : c.receive = some c') :
    c'.chan = c.chan ∧ c'.taken ≤ c.chan.sent.length := by
  obtain ⟨hlt, ⟨⟩⟩ := Option.ite_none_right_eq_some.mp h
  exact ⟨rfl, hlt⟩

end TagChan

namespace Notifier

variable {log log' : List (Confirmation ℕ)} {closed : Bool} {n n' : Notifier}

/-- How many confirmations were sent on. -/
def forwarded (n : Notifier) : ℕ :=
  match n.point with
  | .send _ => n.received - 1
  | _ => n.received

/-- The goroutine is in its loop. -/
def looping (n : Notifier) : Bool :=
  match n.point with
  | .range | .send _ => true
  | _ => false

/-- What the goroutine has made of the log of its listener. -/
structure Follows (log : List (Confirmation ℕ)) (closed : Bool) (n : Notifier) : Prop where
  received : n.received ≤ log.length
  sending : ∀ c, n.point = .send c → log[n.forwarded]? = some c ∧ n.received = n.forwarded + 1
  passed : Passed log n.shared n.forwarded n.ack.chan.sent n.nack.chan.sent
  ended : n.looping = false → closed = true ∧ n.received = log.length
  ackSafe : n.ack.chan.Safe
  nackSafe : n.nack.chan.Safe
  ackOpen : n.looping = true ∨ n.point = .closeAck → n.ack.chan.isClosed = false
  nackOpen : n.point ≠ .returned → n.nack.chan.isClosed = false
  ackTaken : n.ack.taken ≤ n.ack.chan.sent.length
  nackTaken : n.nack.taken ≤ n.nack.chan.sent.length

theorem forwarded_le (n : Notifier) : n.forwarded ≤ n.received := by
  unfold forwarded
  split <;> simp

theorem Follows.looping_of_open (h : n.Follows log false) : n.looping = true := by
  cases hlooping : n.looping with
  | true => rfl
  | false => simpa using (h.ended hlooping).1

/-- The log of a listener that is open may grow. -/
theorem Follows.grow (h : n.Follows log false) (hlog : log <+: log') : n.Follows log' false := by
  refine { h with received := ?_, sending := ?_, passed := ?_, ended := ?_ }
  · exact h.received.trans hlog.length_le
  · intro c hc
    obtain ⟨hget, hnext⟩ := h.sending c hc
    obtain ⟨new, rfl⟩ := hlog
    have hlt := (List.getElem?_eq_some_iff.mp hget).1
    exact ⟨(List.getElem?_append_left hlt).trans hget, hnext⟩
  · exact h.passed.grow ((forwarded_le n).trans h.received) hlog
  · intro hlooping
    rw [h.looping_of_open] at hlooping
    cases hlooping

theorem Follows.close (h : n.Follows log false) : n.Follows log true :=
  { h with ended := fun hlooping => by simp [h.looping_of_open] at hlooping }

/-- The send for the confirmation that was received last. -/
theorem Follows.send {waits : Bool} {c : Confirmation ℕ} (h : n.Follows log closed)
    (hpoint : n.point = .send c) (hstep : n.step log closed (.send waits) = some n') :
    n'.Follows log closed := by
  have hackOpen := h.ackOpen (.inl (by simp [looping, hpoint]))
  have hnackOpen := h.nackOpen (by simp [hpoint])
  obtain ⟨hget, hreceived⟩ := h.sending c hpoint
  simp only [Notifier.step, hpoint] at hstep
  split at hstep
  · rename_i hack
    obtain ⟨ack, hsend, rfl⟩ := Option.map_eq_some_iff.mp hstep
    obtain ⟨hchan, htaken⟩ := TagChan.send_cases hackOpen h.ackTaken hsend
    refine { h with
      sending := fun c hc => by cases hc
      passed := ?_
      ended := fun hend => by cases hend
      ackSafe := ?_
      ackOpen := fun _ => by simpa [hchan, Chan.isClosed] using hackOpen
      nackOpen := fun _ => hnackOpen
      ackTaken := by simpa [hchan] using htaken }
    · change Passed log n.shared n.received ack.chan.sent n.nack.chan.sent
      rw [hreceived, hchan]
      exact h.passed.send_ack hget hack
    · rw [hchan]
      exact ⟨h.ackSafe.closes, h.ackSafe.faults⟩
  · rename_i hnack
    obtain ⟨nack, hsend, rfl⟩ := Option.map_eq_some_iff.mp hstep
    obtain ⟨hchan, htaken⟩ := TagChan.send_cases hnackOpen h.nackTaken hsend
    refine { h with
      sending := fun c hc => by cases hc
      passed := ?_
      ended := fun hend => by cases hend
      nackSafe := ?_
      ackOpen := fun _ => hackOpen
      nackOpen := fun _ => by simpa [hchan, Chan.isClosed] using hnackOpen
      nackTaken := by simpa [hchan] using htaken }
    · change Passed log n.shared n.received n.ack.chan.sent nack.chan.sent
      rw [hreceived, hchan]
      exact h.passed.send_nack hget (by simpa using hnack)
    · rw [hchan]
      exact ⟨h.nackSafe.closes, h.nackSafe.faults⟩

theorem Follows.receive (h : n.Follows log closed) {c : Confirmation ℕ}
    (hpoint : n.point = .range) (hget : log[n.received]? = some c) :
    Follows log closed { n with received := n.received + 1, point := .send c } := by
  have hforwarded : n.forwarded = n.received := by simp [forwarded, hpoint]
  have hopen := h.ackOpen (.inl (by simp [looping, hpoint]))
  refine { h with
    received := (List.getElem?_eq_some_iff.mp hget).1
    sending := fun c' hc' => ?_
    passed := hforwarded ▸ h.passed
    ended := fun hend => by cases hend
    ackOpen := fun _ => hopen
    nackOpen := fun _ => h.nackOpen (by simp [hpoint]) }
  cases hc'
  exact ⟨hget, rfl⟩

/-- The goroutine has left its loop and goes on closing. -/
theorem Follows.leave (h : n.Follows log closed) (hforwarded : n.forwarded = n.received)
    (hall : closed = true ∧ n.received = log.length) {point : NotifyPoint}
    (hpoint : point = .closeAck ∨ point = .closeNack ∨ point = .returned) (ack nack : TagChan)
    (hack : ack.chan.sent = n.ack.chan.sent ∧ ack.taken = n.ack.taken ∧ ack.chan.Safe)
    (hnack : nack.chan.sent = n.nack.chan.sent ∧ nack.taken = n.nack.taken ∧ nack.chan.Safe)
    (hackOpen : point = .closeAck → ack.chan.isClosed = false)
    (hnackOpen : point ≠ .returned → nack.chan.isClosed = false) :
    Follows log closed { n with point := point, ack := ack, nack := nack } := by
  obtain ⟨hsent, htaken, hsafe⟩ := hack
  obtain ⟨hsent', htaken', hsafe'⟩ := hnack
  have hpassed : Passed log n.shared n.received ack.chan.sent nack.chan.sent := by
    rw [hsent, hsent', ← hforwarded]
    exact h.passed
  have hackTaken : ack.taken ≤ ack.chan.sent.length := by
    rw [hsent, htaken]
    exact h.ackTaken
  have hnackTaken : nack.taken ≤ nack.chan.sent.length := by
    rw [hsent', htaken']
    exact h.nackTaken
  rcases hpoint with rfl | rfl | rfl
  all_goals
    refine ⟨h.received, ?_, hpassed, fun _ => hall, hsafe, hsafe', ?_, hnackOpen, hackTaken,
      hnackTaken⟩
    · intro c hc
      cases hc
    · rintro (hlooping | hpoint)
      · cases hlooping
      · exact hackOpen hpoint

theorem Follows.step {a : NotifyStep} (h : n.Follows log closed)
    (hstep : n.step log closed a = some n') : n'.Follows log closed := by
  cases a with
  | receive =>
      simp only [Notifier.step] at hstep
      split at hstep
      · cases hstep
        exact h.receive ‹_› ‹_›
      · cases hstep
  | rangeClosed =>
      obtain ⟨⟨hpoint, hall⟩, ⟨⟩⟩ := Option.ite_none_right_eq_some.mp hstep
      apply h.leave (by simp [forwarded, hpoint]) hall (.inl rfl) n.ack n.nack
        ⟨rfl, rfl, h.ackSafe⟩ ⟨rfl, rfl, h.nackSafe⟩
      · exact fun _ => h.ackOpen (.inl (by simp [looping, hpoint]))
      · exact fun _ => h.nackOpen (by simp [hpoint])
  | send waits =>
      cases hpoint : n.point with
      | send c => exact h.send hpoint hstep
      | _ => simp [Notifier.step, hpoint] at hstep
  | closeAck =>
      obtain ⟨hpoint, ⟨⟩⟩ := Option.ite_none_right_eq_some.mp hstep
      have hopen := h.ackOpen (.inr hpoint)
      apply h.leave (by simp [forwarded, hpoint]) (h.ended (by simp [looping, hpoint])) _
        n.ack.close n.nack ⟨rfl, rfl, h.ackSafe.close hopen⟩ ⟨rfl, rfl, h.nackSafe⟩
      · cases n.shared <;> simp
      · exact fun _ => h.nackOpen (by simp [hpoint])
      · cases n.shared <;> simp
  | closeNack =>
      obtain ⟨hpoint, ⟨⟩⟩ := Option.ite_none_right_eq_some.mp hstep
      have hopen := h.nackOpen (by simp [hpoint])
      apply h.leave (by simp [forwarded, hpoint]) (h.ended (by simp [looping, hpoint]))
        (.inr (.inr rfl)) n.ack n.nack.close ⟨rfl, rfl, h.ackSafe⟩
        ⟨rfl, rfl, h.nackSafe.close hopen⟩
      · simp
      · simp
  | receiveAck =>
      obtain ⟨ack, hack, rfl⟩ := Option.map_eq_some_iff.mp hstep
      obtain ⟨hchan, htaken⟩ := TagChan.receive_cases hack
      obtain ⟨chan, capacity, taken⟩ := ack
      cases hchan
      exact { h with ackTaken := htaken }
  | receiveNack =>
      obtain ⟨nack, hnack, rfl⟩ := Option.map_eq_some_iff.mp hstep
      obtain ⟨hchan, htaken⟩ := TagChan.receive_cases hnack
      obtain ⟨chan, capacity, taken⟩ := nack
      cases hchan
      exact { h with nackTaken := htaken }

end Notifier

/-! ## The whole way -/

namespace NotifyConfirm

variable {s s' : NotifyConfirm}

/-- The server behaves up to the moment when the listeners are closed. -/
def WellBehaved (s : NotifyConfirm) : Action → Prop
  | .confirms a => s.closed = false → s.confirms.WellBehaved a
  | _ => True

/-- What the listener got, whether it is still open or not. -/
structure Listened (s : NotifyConfirm) : Prop where
  numbered : s.log.map Confirmation.deliveryTag = List.range' 1 s.log.length
  vouched : ∀ x ∈ s.log, Vouches s.confirms.history x
  published : s.log.length ≤ s.confirms.confirms.published

structure Valid (s : NotifyConfirm) : Prop where
  live : s.closed = false → ConfirmState.InOrder 1 s.confirms ∧
    Vouched s.confirms.history s.confirms.confirms ∧ s.confirms.confirms.closed = []
  closed : s.closed = true → s.confirms.confirms.closed ≠ []
  listened : s.Listened
  follows : s.notifier.Follows s.log s.closed

/-- The first listener while the listeners are open. -/
theorem log_of_live (hinorder : ConfirmState.InOrder 1 s.confirms)
    (hclosed : s.confirms.confirms.closed = []) :
    s.confirms.confirms.listeners.take 1 = [s.log] := by
  have hlength := hinorder.delivered.registered
  rw [log, hclosed, List.nil_append]
  cases hlisteners : s.confirms.confirms.listeners with
  | nil => simp [hlisteners] at hlength
  | cons log rest => simp

theorem listened_of_live (hinorder : ConfirmState.InOrder 1 s.confirms)
    (hvouched : Vouched s.confirms.history s.confirms.confirms)
    (hclosed : s.confirms.confirms.closed = []) : s.Listened := by
  have hlog := log_of_live hinorder hclosed
  have htags := hinorder.delivered.logs s.log (by simp [hlog])
  have hlength : s.log.length = s.confirms.confirms.expecting - 1 := by
    simpa using congrArg List.length htags
  constructor
  · rw [htags, hlength]
  · have hmem : s.log ∈ s.confirms.confirms.listeners.take 1 := by simp [hlog]
    exact hvouched.listeners s.log (List.mem_of_mem_take hmem)
  · -- the last tag that was delivered is one of the published ones
    rw [hlength]
    rcases Nat.eq_zero_or_pos (s.confirms.confirms.expecting - 1) with hzero | hpos
    · omega
    · have hconfirmed := hinorder.sequencing.delivered (s.confirms.confirms.expecting - 1) hpos
        (by omega)
      exact (hinorder.sequencing.range _ hconfirmed).2

/-- What a step of the resequencer does, as far as the listener is concerned. -/
theorem confirms_cases {c c' : ConfirmState} {a : ConfirmAction} (h : c.next a = some c') :
    c'.confirms.closed = c.confirms.closed ∧ c.confirms.published ≤ c'.confirms.published ∧
      c.history <+: c'.history ∧
      ∀ log, c.confirms.listeners.head? = some log →
        ∃ log', c'.confirms.listeners.head? = some log' ∧ log <+: log' := by
  have hkept : ∀ {d : Confirms ℕ}, Notifies c.confirms d → ∀ log,
      c.confirms.listeners.head? = some log → ∃ log', d.listeners.head? = some log' ∧
        log <+: log' := by
    intro d hd log hlog
    obtain ⟨new, hnew⟩ := hd.listeners
    exact ⟨log ++ new, by simp [hnew, hlog], List.prefix_append _ _⟩
  rcases ConfirmState.next_cases h with
    ⟨-, -, rfl⟩ | ⟨-, rfl⟩ | ⟨e, d, -, -, hhead, rfl⟩ | ⟨-, -, rfl⟩
  · refine ⟨rfl, le_rfl, List.prefix_rfl, fun log hlog => ⟨log, ?_, List.prefix_rfl⟩⟩
    simp [Confirms.listen, List.head?_append, hlog]
  · exact ⟨rfl, Nat.le_succ _, List.prefix_rfl, fun log hlog => ⟨log, hlog, List.prefix_rfl⟩⟩
  · have hd := Notifies.head hhead
    exact ⟨hd.closed, hd.published.ge, List.prefix_append _ _, hkept hd⟩
  · have hd := Notifies.resequence c.confirms
    exact ⟨hd.closed, hd.published.ge, List.prefix_rfl, hkept hd⟩

theorem vouched_next {c c' : ConfirmState} {a : ConfirmAction}
    (hinorder : ConfirmState.InOrder 1 c) (h : Vouched c.history c.confirms)
    (hguard : c.WellBehaved a) (hnext : c.next a = some c') :
    Vouched c'.history c'.confirms := by
  rcases ConfirmState.next_cases hnext with
    ⟨-, -, rfl⟩ | ⟨-, rfl⟩ | ⟨e, d, rfl, -, hhead, rfl⟩ | ⟨-, -, rfl⟩
  · refine ⟨h.stored, fun log hlog x hx => ?_⟩
    rcases List.mem_append.mp hlog with hlog | hlog
    · exact h.listeners log hlog x hx
    · simp [List.mem_singleton.mp hlog] at hx
  · exact { h with }
  · exact h.head hinorder.sequencing hguard.range hhead
  · exact h.resequence

theorem Listened.later (h : s.Listened) (hlog : s'.log = s.log)
    (hhistory : s.confirms.history <+: s'.confirms.history)
    (hpublished : s.confirms.confirms.published ≤ s'.confirms.confirms.published) :
    s'.Listened where
  numbered := by rw [hlog]; exact h.numbered
  vouched := by
    intro x hx
    rw [hlog] at hx
    obtain ⟨e, hmem, hcovers⟩ := h.vouched x hx
    exact ⟨e, hhistory.subset hmem, hcovers⟩
  published := by
    rw [hlog]
    exact h.published.trans hpublished

/-- While the listeners are open, the log of the goroutine's listener grows. -/
theorem Valid.confirms_live (h : s.Valid) (hopen : s.closed = false) {a : ConfirmAction}
    {c : ConfirmState} (hguard : s.confirms.WellBehaved a) (hnext : s.confirms.next a = some c) :
    Valid { s with confirms := c } := by
  obtain ⟨hclosed, -, -, hlisteners⟩ := confirms_cases hnext
  obtain ⟨hinorder, hvouched, hnone⟩ := h.live hopen
  have hinorder' := hinorder.step hguard hnext
  have hvouched' := vouched_next hinorder hvouched hguard hnext
  have hnone' : c.confirms.closed = [] := hclosed.trans hnone
  have hhead : s.confirms.confirms.listeners.head? = some s.log := by
    cases hlist : s.confirms.confirms.listeners <;>
      simpa [hlist] using log_of_live hinorder hnone
  obtain ⟨log', hlog', hgrow⟩ := hlisteners s.log hhead
  refine ⟨fun _ => ⟨hinorder', hvouched', hnone'⟩, fun htrue => ?_, ?_, ?_⟩
  · simp [hopen] at htrue
  · exact listened_of_live hinorder' hvouched' hnone'
  · have hfollows := h.follows
    simp only [hopen] at hfollows ⊢
    apply hfollows.grow
    simpa [log, hnone', hlog'] using hgrow

/-- After they were closed nothing is added to it. -/
theorem Valid.confirms_closed (h : s.Valid) (hc : s.closed = true) {a : ConfirmAction}
    {c : ConfirmState} (hnext : s.confirms.next a = some c) : Valid { s with confirms := c } := by
  obtain ⟨hclosed, hpublished, hhistory, -⟩ := confirms_cases hnext
  have hsome := h.closed hc
  have hlog : NotifyConfirm.log { s with confirms := c } = s.log := by
    cases hlist : s.confirms.confirms.closed with
    | nil => exact absurd hlist hsome
    | cons first rest => simp [log, hclosed, hlist]
  refine ⟨fun hfalse => ?_, fun _ => ?_, ?_, ?_⟩
  · simp [hc] at hfalse
  · rw [hclosed]
    exact hsome
  · exact h.listened.later hlog hhistory hpublished
  · rw [hlog]
    exact h.follows

theorem Valid.close (h : s.Valid) (hopen : s.closed = false) : Valid { s with
    confirms := { s.confirms with confirms := s.confirms.confirms.close }
    closed := true } := by
  obtain ⟨hinorder, hvouched, hnone⟩ := h.live hopen
  have hlog : NotifyConfirm.log { s with
      confirms := { s.confirms with confirms := s.confirms.confirms.close }
      closed := true } = s.log := by
    simp [log, Confirms.close, hnone]
  refine ⟨fun hfalse => ?_, ?_, ?_, ?_⟩
  · cases hfalse
  · intro _ hnil
    have hregistered := hinorder.delivered.registered
    simp only [Confirms.close, hnone, List.nil_append] at hnil
    simp [hnil] at hregistered
  · exact h.listened.later hlog List.prefix_rfl le_rfl
  · have hfollows := h.follows
    rw [hopen] at hfollows
    rw [hlog]
    exact hfollows.close

theorem Valid.step (h : s.Valid) {a : Action} (hguard : s.WellBehaved a)
    (hnext : s.next a = some s') : s'.Valid := by
  cases a with
  | confirms a =>
      obtain ⟨c, hc, rfl⟩ := Option.map_eq_some_iff.mp hnext
      by_cases hopen : s.closed = false
      · exact h.confirms_live hopen (hguard hopen) hc
      · exact h.confirms_closed (by simpa using hopen) hc
  | close =>
      obtain ⟨⟨-, hopen⟩, ⟨⟩⟩ := Option.ite_none_right_eq_some.mp hnext
      exact h.close hopen
  | notifier a =>
      obtain ⟨n, hn, rfl⟩ := Option.map_eq_some_iff.mp hnext
      exact ⟨h.live, h.closed, { h.listened with }, h.follows.step hn⟩

theorem valid_start (shared : Bool) (ackCapacity nackCapacity : ℕ) :
    (start shared ackCapacity nackCapacity).Valid where
  live := by
    refine fun _ => ⟨ConfirmState.inOrder_start 1, ⟨?_, ?_⟩, rfl⟩
    · intro t x hx
      simp [start, ConfirmState.start, Confirms.newConfirms] at hx
    · intro log hlog x hx
      have hnil : log = [] := by simpa [start, ConfirmState.start] using hlog
      simp [hnil] at hx
  closed := fun h => by cases h
  listened := by
    constructor <;> simp [start, log, ConfirmState.start, Confirms.newConfirms]
  follows :=
    { received := le_rfl
      sending := fun c hc => by cases hc
      passed := ⟨rfl, rfl⟩
      ended := fun hend => by cases hend
      ackSafe := Chan.safe_empty
      nackSafe := Chan.safe_empty
      ackOpen := fun _ => rfl
      nackOpen := fun _ => rfl
      ackTaken := le_rfl
      nackTaken := le_rfl }

/-- The tags that were sent on are the first ones, each to one of the channels. -/
theorem Valid.perm (h : s.Valid) :
    (s.notifier.ack.chan.sent ++ s.notifier.nack.chan.sent).Perm
      (List.range' 1 s.notifier.forwarded) := by
  have hle := (Notifier.forwarded_le s.notifier).trans h.follows.received
  have hperm := h.follows.passed.perm
  rwa [List.map_take, h.listened.numbered, List.take_range'_of_length_ge hle] at hperm

/-- Nothing was received that was not published. -/
theorem Valid.room (h : s.Valid) (houtstanding : s.confirms.confirms.published ≤
      s.notifier.ack.taken + s.notifier.nack.taken + s.notifier.listenerCapacity) :
    s.log.length ≤ s.notifier.received + s.notifier.listenerCapacity := by
  have hsent := h.perm.length_eq
  have hreceived := Notifier.forwarded_le s.notifier
  have hpublished := h.listened.published
  have hack := h.follows.ackTaken
  have hnack := h.follows.nackTaken
  simp only [List.length_append, List.length_range'] at hsent
  omega

end NotifyConfirm

end Amqp091

import Amqp091.Algorithm.ChannelState
import Amqp091.Verification.Confirms.Machine

/-! # Steps on one channel -/

namespace Amqp091

variable {rt : GoRuntime}

namespace ChannelState

/-- A publish with an empty body. -/
def emptyPublishing : Publishing .exact where
  exchange := []
  routingKey := []
  mandatory := false
  immediate := false
  properties := {}
  body := []
  body_le := by decide
  valid := rfl

/-! ## Steps

What each action does, with the conditions under which it is enabled. -/

inductive Step (frameSize : ℤ) (id : UInt16) (s : ChannelState rt) :
    ChannelAction rt → ChannelState rt → Prop
  | publish {call : Call rt} (hfree : s.holder = none) (hpublish : call.isPublish = true)
      (hconfirming : s.confirming = true) :
      Step frameSize id s (.lock call)
        { s with
          confirms := s.confirms.publish.1
          holder := some ⟨call, some s.confirms.publish.2, .send⟩ }
  | lock {call : Call rt} (hfree : s.holder = none)
      (hcount : ¬ (call.isPublish = true ∧ s.confirming = true)) :
      Step frameSize id s (.lock call) { s with holder := some ⟨call, none, .send⟩ }
  | step {h : Holder rt} {t : Transport} {link : Link} {point : Point}
      (hholder : s.holder = some h)
      (hstep : s.link.step frameSize id h.call.message t h.point = some (link, point)) :
      Step frameSize id s (.step t)
        { s with link := link, holder := some { h with point := point } }
  | succeed {call : Call rt} {dc : Option ℕ}
      (hholder : s.holder = some ⟨call, dc, .done (.returned none)⟩) :
      Step frameSize id s .unlock
        { s with holder := none, returned := s.returned ++ dc.toList }
  | unpublish {call : Call rt} {dc : Option ℕ} {e : SendError}
      (hholder : s.holder = some ⟨call, dc, .done (.returned (some e))⟩)
      (hpublish : call.isPublish = true) (hconfirming : s.confirming = true) :
      Step frameSize id s .unlock { s with holder := none, confirms := s.confirms.unpublish }
  | fail {call : Call rt} {dc : Option ℕ} {e : SendError}
      (hholder : s.holder = some ⟨call, dc, .done (.returned (some e))⟩)
      (hcount : ¬ (call.isPublish = true ∧ s.confirming = true)) :
      Step frameSize id s .unlock { s with holder := none }
  | panic {call : Call rt} {dc : Option ℕ}
      (hholder : s.holder = some ⟨call, dc, .done .panicked⟩) :
      Step frameSize id s .unlock { s with holder := none }
  | call {m : Message} (unlocked : m.method.sentUnlocked = true) :
      Step frameSize id s (.call m unlocked)
        { s with senders := s.senders ++ [⟨m, unlocked, .send⟩] }
  | stepSender {k : ℕ} {x : Sender} {t : Transport} {link : Link} {point : Point}
      (hsender : s.senders[k]? = some x)
      (hstep : s.link.step frameSize id (x.outgoing : Outgoing rt) t x.point =
        some (link, point)) :
      Step frameSize id s (.stepSender k t)
        { s with link := link, senders := s.senders.set k { x with point := point } }
  | setClosed : Step frameSize id s .setClosed
      { s with link := { s.link with closed := true } }
  | setConnectionClosed : Step frameSize id s .setConnectionClosed
      { s with link := { s.link with connectionClosed := true } }
  | confirm : Step frameSize id s .confirm { s with confirming := true }
  | serverConfirm {e : ServerConfirm} {c : Confirms ℕ} (hconfirming : s.confirming = true)
      (hbusy : s.busy = false) (hhead : e.head s.confirms = some c) :
      Step frameSize id s (.serverConfirm e) { s with confirms := c, busy := true }
  | resequence (hbusy : s.busy = true) :
      Step frameSize id s .resequence
        { s with confirms := s.confirms.resequence, busy := false }
  | shutdown (hclosed : s.link.closed = true) (hfree : s.holder = none)
      (hbusy : s.busy = false) (hdestroyed : s.destroyed = false) :
      Step frameSize id s .shutdown
        { s with confirms := s.confirms.close, destroyed := true }

theorem step_unlock {frameSize : ℤ} {id : UInt16} {s : ChannelState rt} {call : Call rt}
    {dc : Option ℕ} {outcome : Outcome}
    (hholder : s.holder = some ⟨call, dc, .done outcome⟩) :
    Step frameSize id s .unlock (s.leave call dc outcome) := by
  cases outcome with
  | panicked => exact .panic hholder
  | returned err =>
      cases err with
      | none => exact .succeed hholder
      | some e =>
          by_cases hcount : call.isPublish = true ∧ s.confirming = true
          · rw [leave, if_pos hcount]
            exact .unpublish hholder hcount.1 hcount.2
          · rw [leave, if_neg hcount]
            exact .fail hholder hcount

theorem step_of_next {frameSize : ℤ} {id : UInt16} {s s' : ChannelState rt}
    {a : ChannelAction rt} (h : s.next frameSize id a = some s') : Step frameSize id s a s' := by
  cases a with
  | lock call =>
      cases hholder : s.holder with
      | some x => simp [next, hholder] at h
      | none =>
          simp only [next, hholder, Option.isNone_none, if_true, Option.some.injEq, enter] at h
          subst h
          split
          · rename_i hcount
            exact .publish hholder hcount.1 hcount.2
          · rename_i hcount
            exact .lock hholder hcount
  | step t =>
      rw [next, stepHolder] at h
      cases hholder : s.holder with
      | none => simp [hholder] at h
      | some x =>
          simp only [hholder, Option.map_eq_some_iff] at h
          obtain ⟨⟨link, point⟩, hstep, rfl⟩ := h
          exact .step hholder hstep
  | unlock =>
      rw [next] at h
      split at h
      · rename_i hholder
        cases h
        exact step_unlock hholder
      · cases h
  | call m unlocked =>
      cases h
      exact .call unlocked
  | stepSender k t =>
      rw [next, stepSender] at h
      cases hsender : s.senders[k]? with
      | none => simp [hsender] at h
      | some x =>
          simp only [hsender, Option.map_eq_some_iff] at h
          obtain ⟨⟨link, point⟩, hstep, rfl⟩ := h
          exact .stepSender hsender hstep
  | setClosed =>
      cases h
      exact .setClosed
  | setConnectionClosed =>
      cases h
      exact .setConnectionClosed
  | confirm =>
      cases h
      exact .confirm
  | serverConfirm e =>
      rw [next] at h
      split at h
      · rename_i henabled
        obtain ⟨c, hhead, rfl⟩ := Option.map_eq_some_iff.mp h
        exact .serverConfirm henabled.1 (by simpa using henabled.2) hhead
      · cases h
  | resequence =>
      rw [next] at h
      split at h
      · rename_i hbusy
        cases h
        exact .resequence hbusy
      · cases h
  | shutdown =>
      rw [next] at h
      split at h
      · rename_i henabled
        cases h
        obtain ⟨hclosed, hfree, hbusy, hdestroyed⟩ := henabled
        exact .shutdown hclosed (Option.isNone_iff_eq_none.mp hfree) (by simpa using hbusy)
          (by simpa using hdestroyed)
      · cases h

end ChannelState

end Amqp091

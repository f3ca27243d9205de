import Amqp091.Verification.Channel.Numbering
import Amqp091.Verification.Confirms.Counters

/-! # Counters of a channel in confirm mode

A publish that fails takes back its own count, so the counter of a channel that has been in
confirm mode from the start does not fall below zero. -/

namespace Amqp091

open Transition

variable {rt : GoRuntime} {frameSize : ℤ} {id : UInt16}

def ChannelAction.isPublish : ChannelAction rt → Bool
  | .lock c => c.isPublish
  | _ => false

namespace ChannelState

variable {s s' : ChannelState rt} {a : ChannelAction rt}

def count (s : ChannelState rt) : CountState := ⟨s.confirms, s.busy⟩

/-- The call of the resequencer that an action makes. -/
def call (s : ChannelState rt) : ChannelAction rt → Option TagAction
  | .lock call => if call.isPublish ∧ s.confirming = true then some .publish else none
  | .unlock =>
      match s.holder with
      | some ⟨call, _, .done (.returned (some _))⟩ =>
          if call.isPublish ∧ s.confirming = true then some .unpublish else none
      | _ => none
  | .serverConfirm e => some (.confirm e.toTags)
  | .resequence => some .resequence
  | .shutdown => some .close
  | _ => none

theorem isPublish_of_call (h : s.call a = some .publish) : a.isPublish = true := by
  cases a with
  | lock call =>
      obtain ⟨⟨hpublish, -⟩, -⟩ := Option.ite_none_right_eq_some.mp h
      exact hpublish
  | unlock =>
      rw [call] at h
      split at h
      · obtain ⟨-, h⟩ := Option.ite_none_right_eq_some.mp h
        cases h
      · cases h
  | _ => cases h

/-- In confirm mode, the publish that holds `ch.m` is counted. -/
structure Counting (s : ChannelState rt) : Prop where
  confirming : s.confirming = true
  holder : ∀ h ∈ s.holder, h.call.isPublish = true → s.confirms.published ≠ 0

theorem Counting.step (h : Counting s) (hstep : Step frameSize id s a s') : Counting s' := by
  obtain ⟨hconfirming, hholder⟩ := h
  cases hstep with
  | publish => exact ⟨hconfirming, fun _ _ _ => Nat.succ_ne_zero _⟩
  | lock _ hcount =>
      refine ⟨hconfirming, fun x hx hpublish => ?_⟩
      cases hx
      exact absurd ⟨hpublish, hconfirming⟩ hcount
  | step hold =>
      refine ⟨hconfirming, fun x hx hpublish => ?_⟩
      cases hx
      exact hholder _ hold hpublish
  | succeed | unpublish | fail | panic => exact ⟨hconfirming, fun x hx => by cases hx⟩
  | serverConfirm _ _ hhead =>
      refine ⟨hconfirming, fun x hx hpublish => ?_⟩
      rw [(ServerConfirm.head_deferred hhead).2]
      exact hholder x hx hpublish
  | resequence =>
      refine ⟨hconfirming, fun x hx hpublish => ?_⟩
      rw [(Confirms.resequence_deferred s.confirms).2]
      exact hholder x hx hpublish
  | confirm => exact ⟨rfl, hholder⟩
  | _ => exact ⟨hconfirming, hholder⟩

theorem counting_start (link : Link) (senders : List Sender) :
    Counting (start link senders true : ChannelState rt) where
  confirming := rfl
  holder := by simp [start]

theorem count_step (h : Counting s) (hstep : Step frameSize id s a s')
    (htag : ∀ e, a = .serverConfirm e → e.confirmed.deliveryTag < 2 ^ 64 - 1) :
    Run CountState.next CountState.Unwrapped s.count (s.call a).toList s'.count := by
  cases hstep with
  | publish _ hpublish hconfirming =>
      rw [call, if_pos ⟨hpublish, hconfirming⟩]
      exact .cons trivial rfl (.nil _)
  | lock _ hcount =>
      rw [call, if_neg hcount]
      exact .nil _
  | succeed hholder | panic hholder =>
      rw [call, hholder]
      exact .nil _
  | unpublish hholder hpublish hconfirming =>
      have hpositive := h.holder _ hholder hpublish
      rw [call, hholder]
      simp only [hpublish, hconfirming, and_self, if_true]
      exact .cons hpositive rfl (.nil _)
  | fail hholder hcount =>
      rw [call, hholder]
      simp only [if_neg hcount]
      exact .nil _
  | serverConfirm _ hbusy hhead => exact CountState.confirm_toTags (htag _ rfl) hbusy hhead
  | resequence hbusy =>
      exact .cons trivial (by simp [CountState.next, count, hbusy]) (.nil _)
  | shutdown _ _ hbusy =>
      exact .cons trivial (by simp [CountState.next, count, hbusy]) (.nil _)
  | _ => exact .nil _

/-- A channel in confirm mode with counters of 64 bits. -/
theorem counters {link : Link} {senders : List Sender} {as : List (ChannelAction rt)}
    {guard : ChannelState rt → ChannelAction rt → Prop}
    (h : Run (next frameSize id) guard (start link senders true) as s)
    (htags : ∀ e, .serverConfirm e ∈ as → e.confirmed.deliveryTag < 2 ^ 64 - 1)
    (hcount : as.countP ChannelAction.isPublish < 2 ^ 64) :
    ∃ t, Run TagState.next (fun t => t.toNat.Unwrapped) .start
        (trace (next frameSize id) call (start link senders true) as) t ∧
      s.count = t.toNat := by
  apply TagState.counters_of_run count ChannelAction.isPublish Counting h
    (counting_start link senders)
  · intro s a s' hs _ hnext
    exact hs.step (step_of_next hnext)
  · intro s a s' ha hs _ hnext
    apply count_step hs (step_of_next hnext)
    rintro e rfl
    exact htags e ha
  · exact fun s a ha => isPublish_of_call ha
  · exact TagState.inOrder_new
  · rfl
  · rfl
  · exact hcount

end ChannelState

namespace PublishLog

/-- The channel of the record with counters of 64 bits. -/
theorem counters {s : PublishLog rt} {link : Link} {senders : List Sender}
    {as : List (ChannelAction rt)} {guard : PublishLog rt → ChannelAction rt → Prop}
    (h : Run (next frameSize id) guard (start link senders) as s)
    (htags : ∀ e, .serverConfirm e ∈ as → e.confirmed.deliveryTag < 2 ^ 64 - 1)
    (hcount : as.countP ChannelAction.isPublish < 2 ^ 64) :
    ∃ t, Run TagState.next (fun t => t.toNat.Unwrapped) .start
        (trace (ChannelState.next frameSize id) ChannelState.call
          (.start link senders true) as) t ∧
      s.channel.count = t.toNat := by
  have hrun : Run (ChannelState.next frameSize id) (fun _ _ => True) (.start link senders true) as
      s.channel := by
    apply h.map channel
    intro s a s' hnext
    obtain ⟨channel, hchannel, rfl⟩ := Option.map_eq_some_iff.mp hnext
    rw [channel_record]
    exact hchannel
  exact ChannelState.counters hrun htags hcount

end PublishLog

end Amqp091

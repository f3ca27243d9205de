import Amqp091.Verification.Calls.Shelter

/-! # No call outlives its connection

The shutdown of the connection reaches every channel with a call under way, so that each of
them can return. The reader is released too, unless it is offering a method to a channel that
could not be opened: such a channel is never shut down. -/

namespace Amqp091

open Transition

namespace CallChannel

variable {s s' : CallChannel} {i : ℕ} {c : ChannelCall}

theorem returned_setPhase (hc : s.calls[i]? = some c) (r : ChannelResult) :
    (s.setPhase i (.returned r)).Returned i { c with phase := .returned r } r := by
  refine ⟨?_, rfl⟩
  rw [getElem?_setPhase, if_pos rfl, hc, Option.map_some]

/-- On a channel that is shut down a call returns in its next step: from the test of the flag,
from the send on a connection that is closed as well, or from its `select`. -/
theorem exists_return (hclosed : s.closed = true) (hstage : s.stage = .finished)
    (hc : s.calls[i]? = some c) :
    (∃ r, c.phase = .returned r) ∨ ∃ b s' c' r,
      (b = .test i ∨ b = .write i (some errClosed) ∨ b = .takeError i) ∧
        s.next b = some s' ∧ s'.Returned i c' r := by
  have hphase : s.phaseOf i = some c.phase := by
    rw [phaseOf, hc, Option.map_some]
  obtain ⟨req, res, phase⟩ := c
  cases phase with
  | start =>
      refine .inr ⟨_, _, _, .refused, .inl rfl, ?_, returned_setPhase hc .refused⟩
      simp only [next, hphase, hclosed, if_true]
  | tested =>
      refine .inr ⟨_, _, _, .sendError errClosed, .inr (.inl rfl), ?_,
        returned_setPhase hc (.sendError errClosed)⟩
      simp only [next, hc]
      rfl
  | waiting =>
      cases herrors : s.errors with
      | some e =>
          let s' : CallChannel := { s with errors := none }
          have hc' : s'.calls[i]? = some ⟨req, res, .waiting⟩ := hc
          refine .inr ⟨_, _, _, .shutdownError e, .inr (.inr rfl), ?_,
            returned_setPhase hc' (.shutdownError e)⟩
          simp only [next, hphase, herrors]
          rfl
      | none =>
          refine .inr ⟨_, _, _, .errorsClosed, .inr (.inr rfl), ?_,
            returned_setPhase hc .errorsClosed⟩
          simp [next, hphase, herrors, hstage, ChannelStage.hasClosedErrors]
  | returned r => exact .inl ⟨r, rfl⟩

end CallChannel

namespace CallConnection

variable {channelMax : ℕ} {s s' : CallConnection} {ch : ChannelRef}

/-! ## Whole runs -/

/-- What a step of the connection is for one channel: nothing, its creation, or a step of its
own. -/
def Moves (s s' : CallConnection) (ch : ChannelRef) : Prop :=
  s'.channels ch = s.channels ch ∨ s'.channels ch = newChannel ∨
    ∃ b, (s.channels ch).next b = some (s'.channels ch)

theorem moves_of_lift {d : ChannelRef} {b : CallChannel.Action} {t : CallConnection}
    (h : s.lift d b = some t) (hchannels : s'.channels = t.channels) : s.Moves s' ch := by
  obtain ⟨o, ho, rfl⟩ := lift_eq_some.mp h
  unfold Moves
  rw [hchannels, channels_setChannel]
  split
  · next hd =>
      subst hd
      exact .inr (.inr ⟨b, ho⟩)
  · exact .inl rfl

theorem moves_of_release {d : ChannelRef} {t : CallConnection} (h : s.release d = some t)
    (hchannels : s'.channels = t.channels) : s.Moves s' ch := by
  refine .inl ?_
  unfold CallConnection.release at h
  split at h
  · cases h
  · obtain ⟨c, -, rfl⟩ := Option.map_eq_some_iff.mp h
    rw [hchannels]

theorem Step.moves (h : s.Step s') (ch : ChannelRef) : s.Moves s' ch := by
  cases h with
  | openChannel hopen =>
      simp only [CallConnection.openChannel] at hopen
      split at hopen
      · cases hopen
      · split at hopen
        · next d _ =>
            cases hopen
            by_cases hd : ch = d
            · exact .inr (.inl (by simp [CallConnection.setOpening, hd]))
            · exact .inl (by simp [CallConnection.setOpening, hd])
        · cases hopen
          exact .inl rfl
        · cases hopen
  | call _ hlift | own _ _ hlift => exact moves_of_lift hlift rfl
  | reply _ _ ht | readClose _ _ _ ht | readOffer _ _ ht | readerShutdown _ ht
  | closeChannel _ ht | shutdownChannel _ ht => exact moves_of_lift ht rfl
  | openFailed _ ht | readerRelease _ _ ht | release _ ht => exact moves_of_release ht rfl
  | opened | read | setClosed | shutdown | shutdownReturn | finish => exact .inl rfl

theorem reachable_channel {actions : List Action}
    (h : Run next (fun _ _ => True) (start channelMax) actions s) (ch : ChannelRef) :
    ∃ own, Run CallChannel.next (fun _ _ => True) {} own (s.channels ch) := by
  refine h.invariant (P := fun s => ∃ own, Run CallChannel.next (fun _ _ => True) {} own
    (s.channels ch)) ⟨[], .nil _⟩ ?_
  rintro s a s' ⟨own, hown⟩ - hnext
  rcases (step_of_next hnext).moves ch with heq | heq | ⟨b, hb⟩
  · exact ⟨own, by rwa [heq]⟩
  · exact ⟨[.call ⟨.channelOpen, ([], ())⟩ [.channelOpenOk]],
      by rw [heq]; exact .cons trivial rfl (.nil _)⟩
  · exact ⟨own ++ [b], hown.append (.cons trivial hb (.nil _))⟩

theorem Valid.exists_return (h : s.Valid channelMax) (hstage : s.stage = .finished) {i : ℕ}
    {c : ChannelCall} (hc : (s.channels ch).calls[i]? = some c) :
    (∃ r, c.phase = .returned r) ∨ ∃ a s' c' r, a.index = some (ch, i) ∧
      s.next a = some s' ∧ (s'.channels ch).Returned i c' r := by
  cases h.sheltered ch with
  | registered hlookup =>
      rw [h.down hstage] at hlookup
      cases hlookup
  | unused _ hcalls => exact .inl (hcalls i c hc)
  | finished hfinished =>
      have hflag := h.flags ch (by simp [hfinished])
      refine (CallChannel.exists_return hflag hfinished hc).imp_right ?_
      rintro ⟨b, o, c', r, hb, hnext, hreturned⟩
      have hclosed : s.registry.closed = true := h.closed (by simp [hstage])
      have hlift : s.lift ch b = some (s.setChannel ch o) := lift_eq_some.mpr ⟨o, hnext, rfl⟩
      have hreturned' : ((s.setChannel ch o).channels ch).Returned i c' r := by
        rwa [channels_setChannel, if_pos rfl]
      rcases hb with rfl | rfl | rfl
      · exact ⟨.test ch i, _, c', r, rfl, hlift, hreturned'⟩
      · refine ⟨.write ch i none, _, c', r, rfl, ?_, hreturned'⟩
        simpa only [next, sendResult, hclosed, if_true] using hlift
      · exact ⟨.takeError ch i, _, c', r, rfl, hlift, hreturned'⟩

theorem Valid.exists_giveUp (h : s.Valid channelMax) (hstage : s.stage = .finished)
    (hreader : s.reader = .offering ch) :
    (∃ s', s.next .giveUp = some s') ∨ s.opening ch = .failed := by
  obtain ⟨hoffering, -, hopening⟩ := h.reader ch hreader
  cases h.sheltered ch with
  | registered hlookup =>
      rw [h.down hstage] at hlookup
      cases hlookup
  | unused hunused => exact .inr (hunused.resolve_left hopening)
  | finished hfinished =>
      refine .inl ⟨{ s with reader := .reading }.setChannel ch
        { s.channels ch with offering := false }, ?_⟩
      simp [next, hreader, CallConnection.lift, CallChannel.next, hoffering, hfinished,
        CallConnection.setChannel]

/-- In every interleaving of the calls on all channels, of opening and closing channels, of
the reader and of `Connection.shutdown`: each channel goes through a run of its own, and once
the shutdown of the connection has ended every call on any channel can return in its next
step, and the reader is not kept by a channel that was opened. -/
theorem calls_end_with_connection (channelMax : ℕ) (hmax : 1 ≤ channelMax ∧ channelMax ≤ 65535)
    (actions : List Action) (s : CallConnection)
    (h : Run next (fun _ _ => True) (start channelMax) actions s) :
    (∀ ch, ∃ own, Run CallChannel.next (fun _ _ => True) {} own (s.channels ch)) ∧
    (s.stage = .finished → ∀ (ch : ChannelRef) (i : ℕ) (c : ChannelCall),
      (s.channels ch).calls[i]? = some c → (∃ r, c.phase = .returned r) ∨
        ∃ a s' c' r, a.index = some (ch, i) ∧ s.next a = some s' ∧
          (s'.channels ch).Returned i c' r) ∧
    (s.stage = .finished → ∀ ch, s.reader = .offering ch →
      (∃ s', s.next .giveUp = some s') ∨ s.opening ch = .failed) := by
  have hvalid : s.Valid channelMax := h.invariant (valid_start hmax.1)
    fun s a s' hs _ hnext => hs.step hmax.2 (step_of_next hnext)
  exact ⟨reachable_channel h, fun hstage ch i c hc => hvalid.exists_return hstage hc,
    fun hstage ch hreader => hvalid.exists_giveUp hstage hreader⟩

/-- A channel is opened and a call on it waits for its reply while the connection is shut
down. -/
theorem calls_end_with_connection_waiting :
    let ch : ChannelRef := ⟨0, 1⟩
    let declare : Message := ⟨.queueDeclare,
      ((0 : UInt16), [113], #[false, false, false, false, false].toVector, [], ())⟩
    let e : Error := { code := 320, reason := "CONNECTION_FORCED", server := true }
    ∃ s, Run next (fun _ _ => True) (start 1) [.openChannel, .test ch 0, .write ch 0 none,
        .read 1 ⟨.channelOpenOk, ([], ())⟩ e, .takeReply ch 0, .opened ch,
        .call ch declare [.queueDeclareOk], .test ch 1, .write ch 1 none, .setClosed,
        .shutdown (some e) [ch], .shutdownChannel, .sendError ch, .closeErrors ch,
        .finishChannel ch, .shutdownReturn, .finish] s ∧
      (s.channels ch).phaseOf 1 = some .waiting ∧
      ∃ a s' c' r, a.index = some (ch, 1) ∧ s.next a = some s' ∧
        (s'.channels ch).Returned 1 c' r := by
  intro ch declare e
  have hrun : ∃ s, Run next (fun _ _ => True) (start 1) [.openChannel, .test ch 0,
        .write ch 0 none, .read 1 ⟨.channelOpenOk, ([], ())⟩ e, .takeReply ch 0, .opened ch,
        .call ch declare [.queueDeclareOk], .test ch 1, .write ch 1 none, .setClosed,
        .shutdown (some e) [ch], .shutdownChannel, .sendError ch, .closeErrors ch,
        .finishChannel ch, .shutdownReturn, .finish] s ∧ s.stage = .finished ∧
      (s.channels ch).calls[1]? = some ⟨declare, [.queueDeclareOk], .waiting⟩ :=
    ⟨_, .of_exec rfl, rfl, rfl⟩
  obtain ⟨s, hrun, hstage, hcall⟩ := hrun
  refine ⟨s, hrun, by rw [CallChannel.phaseOf, hcall, Option.map_some], ?_⟩
  rcases (calls_end_with_connection 1 (by decide) _ s hrun).2.1 hstage ch 1 _ hcall with
    ⟨r, hr⟩ | hreturn
  · cases hr
  · exact hreturn

end CallConnection

end Amqp091

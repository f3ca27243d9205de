import Amqp091.Verification.Channel.Machine
import Amqp091.Verification.Channel.Send

/-! # Nothing follows the reply to `channel.close`

One channel with the goroutines that call `Publish`, `Ack`, `Nack` and `Reject`, and with
the connection's reader, which takes the server's `channel.close` through `dispatchN`,
`updateChannel`, `dispatch` and `closeChannel`. -/

namespace Amqp091

open Transition

variable {rt : GoRuntime} {frameSize : ℤ} {id : UInt16}

/-- The holder of `ch.m` is the reader. -/
def ChannelState.replying (s : ChannelState rt) : Prop := ∃ h ∈ s.holder, h.call = .closeOk

/-! ## The frame -/

def closeOkFrame (id : UInt16) : Frame := .method id 0 0 (some ⟨.channelCloseOk, ()⟩)

theorem method_of_closeOkFrame {m : Message} (h : .method id 0 0 (some m) = closeOkFrame id) :
    m.method = .channelCloseOk := by
  simp only [closeOkFrame, Frame.method.injEq, Option.some.injEq, true_and] at h
  rw [h]

theorem Call.frame_ne_closeOk {call : Call rt} (h : call ≠ .closeOk) (cursor : Cursor) :
    call.message.frame id cursor ≠ closeOkFrame id := by
  intro heq
  cases call with
  | publish p =>
      cases cursor with
      | method => cases method_of_closeOkFrame heq
      | header | body => cases heq
  | ack | nack | reject => cases method_of_closeOkFrame heq
  | closeOk => exact h rfl

theorem Call.sendClosed_of_ne {call : Call rt} (h : call ≠ .closeOk) :
    call.message.sendClosed = .done (.returned (some (.go errClosed))) := by
  cases call with
  | closeOk => exact absurd rfl h
  | _ => rfl

namespace ClosingChannel

/-- A holder of `ch.m` that writes nothing more. -/
structure Spent (connectionClosed : Bool) (h : Holder rt) : Prop where
  reply : h.call = .closeOk → (∃ outcome, h.point = .done outcome) ∨
    connectionClosed = true ∧ ∀ cursor, h.point ≠ .write cursor
  refused : h.call ≠ .closeOk → h.point = .send ∨
    h.point = .done (.returned (some (.go errClosed)))

/-- The reply is not written yet, or it was the last frame. In that case a reader that comes
to the channel again finds the connection closed. -/
inductive Quiet (id : UInt16) (s : ClosingChannel rt) : Prop
  | before (hnew : closeOkFrame id ∉ s.channel.link.written)
  | after {w : List Frame} (hwritten : s.channel.link.written = w ++ [closeOkFrame id])
      (hnew : closeOkFrame id ∉ w) (hclosed : s.channel.link.closed = true)
      (hholder : ∀ h ∈ s.channel.holder, Spent s.channel.link.connectionClosed h)
      (hidle : s.reader = .idle → s.registered = true → s.channel.link.connectionClosed = true)
      (hreceived : s.reader = .received → s.channel.link.connectionClosed = true)

structure Valid (id : UInt16) (s : ClosingChannel rt) : Prop where
  senders : s.channel.senders = []
  flag : s.reader ≠ .idle → s.channel.link.closed = true
  replying : s.channel.replying ↔ s.reader = .replying
  quiet : Quiet id s

variable {s s' : ClosingChannel rt}

/-- A spent holder stays spent and adds no frame. -/
theorem Spent.step {l l' : Link} {h : Holder rt} {point : Point}
    (hspent : Spent l.connectionClosed h) (hclosed : l.closed = true)
    (hstep : SendStep frameSize id l h.call.message h.point l' point) :
    l'.written = l.written ∧ Spent l'.connectionClosed { h with point := point } := by
  by_cases hcall : h.call = .closeOk
  · rcases hspent.reply hcall with ⟨outcome, hdone⟩ | ⟨hconnection, hpoint⟩
    · rw [hdone] at hstep
      exact absurd hstep SendStep.not_done
    · refine ⟨hstep.written_of_ne_write hpoint, ?_, fun hne => absurd hcall hne⟩
      intro _
      rw [hstep.flags.2]
      exact .inr ⟨hconnection, hstep.ne_write hconnection hpoint⟩
  · rcases hspent.refused hcall with hsend | hdone
    · rw [hsend] at hstep
      cases hstep with
      | send hopen =>
          rw [hclosed] at hopen
          cases hopen
      | closed =>
          refine ⟨rfl, fun heq => absurd heq hcall, fun _ => .inr ?_⟩
          exact Call.sendClosed_of_ne hcall
    · rw [hdone] at hstep
      exact absurd hstep SendStep.not_done

/-- Steps that write nothing. -/
theorem Quiet.frame (h : Quiet id s)
    (hwritten : s'.channel.link.written = s.channel.link.written)
    (hclosed : s.channel.link.closed = true → s'.channel.link.closed = true)
    (hconnection : s.channel.link.connectionClosed = true →
      s'.channel.link.connectionClosed = true)
    (hholder : s.channel.link.closed = true →
      (∀ x ∈ s.channel.holder, Spent s.channel.link.connectionClosed x) →
      ∀ x ∈ s'.channel.holder, Spent s'.channel.link.connectionClosed x)
    (hidle : s'.reader = .idle → s'.registered = true → s'.channel.link.connectionClosed = true ∨
      s.reader = .idle ∧ s.registered = true)
    (hreceived : s'.reader = .received → s.reader = .received ∨
      s.reader = .idle ∧ s.registered = true) : Quiet id s' := by
  cases h with
  | before hnew => exact .before (hwritten ▸ hnew)
  | after hw hnew hflag hspent hidle' hreceived' =>
      refine .after (hwritten.trans hw) hnew (hclosed hflag) (hholder hflag hspent) ?_ ?_
      · intro hreader hregistered
        rcases hidle hreader hregistered with hdone | ⟨hreader, hregistered⟩
        · exact hdone
        · exact hconnection (hidle' hreader hregistered)
      · intro hreader
        rcases hreceived hreader with hreader | ⟨hreader, hregistered⟩
        · exact hconnection (hreceived' hreader)
        · exact hconnection (hidle' hreader hregistered)

/-- A step of the call that holds `ch.m`. -/
theorem Quiet.step_holder (h : Quiet id s) (hvalid : Valid id s) {x : Holder rt} {link : Link}
    {point : Point} (hx : s.channel.holder = some x)
    (hstep : SendStep frameSize id s.channel.link x.call.message x.point link point) :
    Quiet id { s with
      channel := { s.channel with link := link, holder := some { x with point := point } } } := by
  cases h with
  | before hnew =>
      rcases hstep.written_cases with hsame | ⟨cursor, hpoint, hwritten⟩
      · exact .before (hsame ▸ hnew)
      · by_cases hcall : x.call = .closeOk
        · -- the reply itself
          have hreader : s.reader = .replying := hvalid.replying.mp ⟨x, hx, hcall⟩
          have hflag : s.channel.link.closed = true := hvalid.flag (by simp [hreader])
          rw [hcall] at hstep hwritten
          rw [hpoint] at hstep
          obtain ⟨outcome, hdone⟩ := hstep.done_of_plain
          refine .after hwritten hnew (hstep.flags.1.trans hflag) ?_ ?_ ?_
          · intro y hy
            cases hy
            exact ⟨fun _ => .inl ⟨outcome, hdone⟩, fun hne => absurd hcall hne⟩
          · simp [hreader]
          · simp [hreader]
        · refine .before ?_
          rw [hwritten, List.mem_append, List.mem_singleton]
          rintro (hold | heq)
          · exact hnew hold
          · exact Call.frame_ne_closeOk hcall cursor heq.symm
  | after hw hnew hflag hspent hidle hreceived =>
      obtain ⟨hwritten, hspent'⟩ := (hspent x hx).step hflag hstep
      obtain ⟨hclosed, hconnection⟩ := hstep.flags
      refine .after (hwritten.trans hw) hnew (hclosed.trans hflag) ?_ ?_ ?_
      · intro y hy
        cases hy
        exact hspent'
      · exact fun hreader hregistered => hconnection.trans (hidle hreader hregistered)
      · exact fun hreader => hconnection.trans (hreceived hreader)

theorem Spent.mono {b b' : Bool} (hb : b = true → b' = true) {h : Holder rt}
    (hspent : Spent b h) : Spent b' h :=
  ⟨fun hcall => (hspent.reply hcall).imp_right fun h => ⟨hb h.1, h.2⟩, hspent.refused⟩

theorem stepOthers_spec {a : ChannelAction rt} (h : s.stepOthers frameSize id a = some s') :
    ∃ channel, s.channel.Step frameSize id a channel ∧ s' = { s with channel := channel } ∧
      a.byOthers = true ∧ (a = .unlock → ¬ s.channel.replying) := by
  unfold stepOthers at h
  split at h
  · cases h
  · rename_i hnot
    obtain ⟨hothers, hmap⟩ := Option.ite_none_right_eq_some.mp h
    obtain ⟨channel, hchannel, rfl⟩ := Option.map_eq_some_iff.mp hmap
    refine ⟨channel, ChannelState.step_of_next hchannel, rfl, hothers, ?_⟩
    rintro rfl ⟨⟨call, dc, point⟩, hholder, hcall⟩
    cases hcall
    exact hnot dc point rfl hholder

/-- A call takes a free `ch.m`. -/
theorem Valid.enter (h : Valid id s) (hfree : s.channel.holder = none) {call : Call rt}
    (hcall : call ≠ .closeOk) {dc : Option ℕ} {confirms : Confirms ℕ} :
    Valid id { s with channel := { s.channel with
      holder := some ⟨call, dc, .send⟩, confirms := confirms } } := by
  refine ⟨h.senders, h.flag, ?_, ?_⟩
  · have hnot : ¬ s.channel.replying := by
      rintro ⟨x, hx, -⟩
      rw [hfree] at hx
      cases hx
    rw [← h.replying]
    refine ⟨?_, fun hreplying => absurd hreplying hnot⟩
    rintro ⟨x, hx, hclose⟩
    cases hx
    exact absurd hclose hcall
  · refine h.quiet.frame rfl (fun h => h) (fun h => h) ?_
      (fun hreader hregistered => .inr ⟨hreader, hregistered⟩) (fun hreader => .inl hreader)
    intro _ _ x hx
    cases hx
    exact ⟨fun heq => absurd heq hcall, fun _ => .inl rfl⟩

/-- A call of another goroutine gives `ch.m` back. -/
theorem Valid.leave (h : Valid id s) (hnot : ¬ s.channel.replying) {confirms : Confirms ℕ}
    {returned : List ℕ} :
    Valid id ({ s with channel := { s.channel with
      holder := none, confirms := confirms, returned := returned } } : ClosingChannel rt) := by
  refine ⟨h.senders, h.flag, ?_, ?_⟩
  · rw [← h.replying]
    refine ⟨?_, fun hreplying => absurd hreplying hnot⟩
    rintro ⟨x, hx, -⟩
    cases hx
  · refine h.quiet.frame rfl (fun h => h) (fun h => h) ?_
      (fun hreader hregistered => .inr ⟨hreader, hregistered⟩) (fun hreader => .inl hreader)
    exact fun _ _ x hx => by cases hx

/-- Steps that touch neither the holder of `ch.m` nor the frames. -/
theorem Valid.frame (h : Valid id s) {channel : ChannelState rt}
    (hholder : channel.holder = s.channel.holder) (hsenders : channel.senders = s.channel.senders)
    (hwritten : channel.link.written = s.channel.link.written)
    (hclosed : s.channel.link.closed = true → channel.link.closed = true)
    (hconnection : s.channel.link.connectionClosed = true →
      channel.link.connectionClosed = true) :
    Valid id { s with channel := channel } := by
  refine ⟨hsenders.trans h.senders, fun hreader => hclosed (h.flag hreader), ?_, ?_⟩
  · rw [← h.replying, ChannelState.replying, ChannelState.replying, hholder]
  · refine h.quiet.frame hwritten hclosed hconnection ?_
      (fun hreader hregistered => .inr ⟨hreader, hregistered⟩) (fun hreader => .inl hreader)
    intro _ hspent x hx
    exact (hspent x (hholder ▸ hx)).mono hconnection

theorem Valid.stepOthers (h : Valid id s) {a : ChannelAction rt}
    (hnext : s.stepOthers frameSize id a = some s') : Valid id s' := by
  obtain ⟨channel, hstep, rfl, hothers, hunlock⟩ := stepOthers_spec hnext
  have hne : ∀ {call : Call rt}, (ChannelAction.lock call).byOthers = true → call ≠ .closeOk := by
    rintro call hothers rfl
    cases hothers
  cases hstep with
  | publish hfree => exact h.enter hfree (hne hothers)
  | lock hfree => exact h.enter hfree (hne hothers)
  | @step x t link point hholder hstep =>
      have hsend := sendStep_of_step hstep
      refine ⟨h.senders, fun hreader => hsend.flags.1.trans (h.flag hreader), ?_,
        h.quiet.step_holder h hholder hsend⟩
      rw [← h.replying, ChannelState.replying, ChannelState.replying, hholder]
      simp
  | succeed | unpublish | fail | panic => exact h.leave (hunlock rfl)
  | call | stepSender => cases hothers
  | setClosed => exact h.frame rfl rfl rfl (fun _ => rfl) fun h => h
  | setConnectionClosed => exact h.frame rfl rfl rfl (fun h => h) fun _ => rfl
  | confirm | serverConfirm | resequence | shutdown =>
      exact h.frame rfl rfl rfl (fun h => h) fun h => h

/-! ## Steps of the reader -/

theorem Valid.receiveClose (h : Valid id s) (hstep : s.receiveClose = some s') : Valid id s' := by
  obtain ⟨⟨hreader, hregistered⟩, ⟨⟩⟩ := Option.ite_none_right_eq_some.mp hstep
  refine ⟨h.senders, fun _ => rfl, ?_, ?_⟩
  · have hnot : ¬ s.channel.replying := by
      rw [h.replying, hreader]
      exact nofun
    exact ⟨fun hreplying => absurd hreplying hnot, nofun⟩
  · refine h.quiet.frame rfl (fun _ => rfl) (fun h => h) (fun _ hspent => hspent) nofun ?_
    exact fun _ => .inr ⟨hreader, hregistered⟩

theorem Valid.lock (h : Valid id s) (hstep : s.lock = some s') : Valid id s' := by
  obtain ⟨⟨hreader, hfree⟩, ⟨⟩⟩ := Option.ite_none_right_eq_some.mp hstep
  refine ⟨h.senders, fun _ => h.flag (by simp [hreader]), ⟨fun _ => rfl, fun _ => ?_⟩, ?_⟩
  · exact ⟨_, rfl, rfl⟩
  · cases h.quiet with
    | before hnew => exact .before hnew
    | after hw hnew hflag _ _ hreceived =>
        refine .after hw hnew hflag ?_ nofun nofun
        intro x hx
        cases hx
        exact ⟨fun _ => .inr ⟨hreceived hreader, fun cursor => Point.noConfusion⟩,
          fun hne => absurd rfl hne⟩

theorem Valid.unlock (h : Valid id s) (hstep : s.unlock = some s') : Valid id s' := by
  rw [ClosingChannel.unlock] at hstep
  split at hstep
  · rename_i dc outcome hholder
    cases hstep
    have hflag : s.channel.link.closed = true :=
      h.flag (by simp [h.replying.mp ⟨_, hholder, rfl⟩])
    have hleave : s.channel.leave .closeOk dc outcome =
        { s.channel with
          holder := none
          returned := (s.channel.leave .closeOk dc outcome).returned } := by
      cases outcome with
      | panicked => rfl
      | returned err => cases err <;> rfl
    rw [hleave]
    refine ⟨h.senders, fun _ => hflag, ⟨?_, nofun⟩, ?_⟩
    · rintro ⟨x, hx, -⟩
      cases hx
    · exact h.quiet.frame rfl (fun h => h) (fun h => h) (fun _ _ x hx => by cases hx) nofun nofun
  · cases hstep

theorem Valid.shutdown (h : Valid id s) (hstep : s.shutdown frameSize id = some s') :
    Valid id s' := by
  rw [ClosingChannel.shutdown] at hstep
  obtain ⟨hreader, hbody⟩ := Option.ite_none_right_eq_some.mp hstep
  have hflag : s.channel.link.closed = true := h.flag (by simp [hreader])
  have hnot : ¬ s.channel.replying := by
    rw [h.replying, hreader]
    exact nofun
  -- what is left of the channel's state does not matter here
  have hmove : ∀ confirms destroyed, Valid id ({ s with
      channel := { s.channel with confirms := confirms, destroyed := destroyed }
      reader := .destroyed } : ClosingChannel rt) := by
    intro confirms destroyed
    refine ⟨h.senders, fun _ => hflag, ⟨fun hreplying => absurd hreplying hnot, nofun⟩, ?_⟩
    exact h.quiet.frame rfl (fun h => h) (fun h => h) (fun _ hspent => hspent) nofun nofun
  split at hbody
  · cases hbody
    exact hmove _ _
  · obtain ⟨channel, hchannel, rfl⟩ := Option.map_eq_some_iff.mp hbody
    cases ChannelState.step_of_next hchannel with
    | shutdown => exact hmove _ _

theorem Valid.releaseChannel (h : Valid id s) (hstep : s.releaseChannel = some s') :
    Valid id s' := by
  obtain ⟨hreader, ⟨⟩⟩ := Option.ite_none_right_eq_some.mp hstep
  have hnot : ¬ s.channel.replying := by
    rw [h.replying, hreader]
    exact nofun
  refine ⟨h.senders, fun hidle => absurd rfl hidle,
    ⟨fun hreplying => absurd hreplying hnot, nofun⟩, ?_⟩
  refine h.quiet.frame rfl (fun h => h) (fun h => h) (fun _ hspent => hspent) ?_ nofun
  intro _ hregistered
  exact .inl (Bool.and_eq_true_iff.mp hregistered).2

theorem Valid.unregister (h : Valid id s) : Valid id { s with registered := false } :=
  ⟨h.senders, h.flag, h.replying,
    h.quiet.frame rfl (fun h => h) (fun h => h) (fun _ hspent => hspent) nofun
      fun hreader => .inl hreader⟩

theorem Valid.step (h : Valid id s) {a : ClosingAction rt}
    (hnext : s.next frameSize id a = some s') : Valid id s' := by
  cases a with
  | channel a => exact h.stepOthers hnext
  | receiveClose => exact h.receiveClose hnext
  | lock => exact h.lock hnext
  | unlock => exact h.unlock hnext
  | shutdown => exact h.shutdown hnext
  | releaseChannel => exact h.releaseChannel hnext
  | unregister =>
      cases hnext
      exact h.unregister

theorem valid_newChannel : Valid id (newChannel : ClosingChannel rt) where
  senders := rfl
  flag := fun h => absurd rfl h
  replying := by
    simp [ChannelState.replying, newChannel, ChannelState.newChannel, ChannelState.start]
  quiet := .before List.not_mem_nil

/-- The reply is written by the holder of `ch.m`, so no publish is in progress then. -/
theorem replying_of_written {a : ClosingAction rt} (hnext : s.next frameSize id a = some s')
    (hold : closeOkFrame id ∉ s.channel.link.written)
    (hnew : closeOkFrame id ∈ s'.channel.link.written) : s.channel.replying := by
  cases a with
  | channel a =>
      obtain ⟨channel, hstep, rfl, hothers, -⟩ := stepOthers_spec hnext
      cases hstep with
      | @step x t link point hholder hstep =>
          rcases (sendStep_of_step hstep).written_cases with hsame | ⟨cursor, -, hwritten⟩
          · rw [hsame] at hnew
            exact absurd hnew hold
          · rw [hwritten, List.mem_append, List.mem_singleton] at hnew
            refine ⟨x, hholder, ?_⟩
            by_contra hcall
            rcases hnew with hnew | heq
            · exact hold hnew
            · exact Call.frame_ne_closeOk hcall cursor heq.symm
      | stepSender => cases hothers
      | _ => exact absurd hnew hold
  | unlock =>
      rw [next, ClosingChannel.unlock] at hnext
      split at hnext
      · rename_i dc outcome hholder
        exact ⟨_, hholder, rfl⟩
      · cases hnext
  | shutdown =>
      rw [next, ClosingChannel.shutdown] at hnext
      obtain ⟨-, hbody⟩ := Option.ite_none_right_eq_some.mp hnext
      split at hbody
      · cases hbody
        exact absurd hnew hold
      · obtain ⟨channel, hchannel, rfl⟩ := Option.map_eq_some_iff.mp hbody
        cases ChannelState.step_of_next hchannel with
        | shutdown => exact absurd hnew hold
  | receiveClose | lock | releaseChannel =>
      obtain ⟨-, ⟨⟩⟩ := Option.ite_none_right_eq_some.mp hnext
      exact absurd hnew hold
  | unregister =>
      cases hnext
      exact absurd hnew hold

theorem last_of_split {α : Type} {v w w' : List α} {f : α} (hnew : f ∉ v)
    (h : v ++ [f] = w ++ f :: w') : f ∉ w ∧ w' = [] := by
  rcases List.append_eq_append_iff.mp h with ⟨u, hw, hu⟩ | ⟨u, hv, hu⟩
  · obtain ⟨rfl, hw'⟩ : u = [] ∧ w' = [] := by
      cases u with
      | nil => simpa using hu
      | cons x u => simp at hu
    exact ⟨by simpa [hw] using hnew, hw'⟩
  · cases u with
    | nil =>
        rw [List.append_nil] at hv
        exact ⟨hv ▸ hnew, by simpa using hu⟩
    | cons x u =>
        -- then the frame would stand in `v`
        cases hu
        rw [hv] at hnew
        exact absurd (List.mem_append_right w List.mem_cons_self) hnew

/-- The reply to `channel.close` is the last frame of its channel and stands there once. It
is written while no publish is in progress, and a call that takes `ch.m` after it returns
`ErrClosed`. -/
theorem nothing_follows_closeOk {as : List (ClosingAction rt)}
    (h : Run (next frameSize id) (fun _ _ => True) newChannel as s) :
    (∀ w w', s.channel.link.written = w ++ closeOkFrame id :: w' →
      closeOkFrame id ∉ w ∧ w' = []) ∧
    (∀ a s', s.next frameSize id a = some s' → closeOkFrame id ∉ s.channel.link.written →
      closeOkFrame id ∈ s'.channel.link.written → ∀ x ∈ s.channel.holder, x.call = .closeOk) ∧
    (closeOkFrame id ∈ s.channel.link.written → ∀ x ∈ s.channel.holder, x.call ≠ .closeOk →
      x.point = .send ∨ x.point = .done (.returned (some (.go errClosed)))) := by
  have hs : Valid id s :=
    h.invariant valid_newChannel fun _ _ _ hs _ hnext => hs.step hnext
  refine ⟨?_, ?_, ?_⟩
  · intro w w' hsplit
    cases hs.quiet with
    | before hnew =>
        rw [hsplit] at hnew
        exact absurd (List.mem_append_right w List.mem_cons_self) hnew
    | @after v hwritten hnew =>
        exact last_of_split hnew (hwritten.symm.trans hsplit)
  · intro a s' hnext hold hnew x hx
    obtain ⟨y, hy, hcall⟩ := replying_of_written hnext hold hnew
    rw [hx] at hy
    cases hy
    exact hcall
  · intro hmem x hx hcall
    cases hs.quiet with
    | before hnew => exact absurd hmem hnew
    | after _ _ _ hspent => exact (hspent x hx).refused hcall

/-- The server's `channel.close` comes in the middle of a publish; an acknowledgement after
the reply is refused. -/
theorem nothing_follows_closeOk_publish :
    let ok : Transport := ⟨true, true⟩
    ∃ s : ClosingChannel .exact, Run (next 0 1) (fun _ _ => True) newChannel
        [.channel (.lock (.publish ChannelState.emptyPublishing)), .channel (.step ok),
          .channel (.step ok), .channel (.step ok), .channel (.step ok), .receiveClose,
          .channel (.step ok), .channel (.step ok), .channel (.step ok), .channel .unlock, .lock,
          .channel (.step ok), .channel (.step ok), .channel (.step ok), .unlock,
          .channel (.lock (.ack 1 false)), .channel (.step ok)] s ∧
      s.channel.link.written =
        [.method 1 0 0 (some ChannelState.emptyPublishing.content.method),
          .header 1 60 0 0 {}] ++ closeOkFrame 1 :: [] ∧
      closeOkFrame 1 ∉ [Frame.method 1 0 0 (some ChannelState.emptyPublishing.content.method),
          .header 1 60 0 0 {}] := by
  intro ok
  have hrun : Run (next 0 1) (fun _ _ => True) (newChannel : ClosingChannel .exact)
      [.channel (.lock (.publish ChannelState.emptyPublishing)), .channel (.step ok),
        .channel (.step ok), .channel (.step ok), .channel (.step ok), .receiveClose,
        .channel (.step ok), .channel (.step ok), .channel (.step ok), .channel .unlock, .lock,
        .channel (.step ok), .channel (.step ok), .channel (.step ok), .unlock,
        .channel (.lock (.ack 1 false)), .channel (.step ok)] _ :=
    .cons trivial rfl (.cons trivial rfl (.cons trivial rfl (.cons trivial rfl
      (.cons trivial rfl (.cons trivial rfl (.cons trivial rfl (.cons trivial rfl
      (.cons trivial rfl (.cons trivial rfl (.cons trivial rfl (.cons trivial rfl
      (.cons trivial rfl (.cons trivial rfl (.cons trivial rfl (.cons trivial rfl
      (.cons trivial rfl (.nil _)))))))))))))))))
  exact ⟨_, hrun, rfl, ((nothing_follows_closeOk hrun).1 _ [] rfl).1⟩

end ClosingChannel

end Amqp091

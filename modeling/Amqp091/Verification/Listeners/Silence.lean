import Amqp091.Algorithm.GracefulClose
import Amqp091.Verification.Listeners.ChannelSafety
import Amqp091.Verification.Listeners.ConnectionSafety

/-! # When a graceful close is silent

Whether listeners see an error depends on who enters `shutdown` first. -/

namespace Amqp091

open Channels Positions Transition

def Closing.result : Closing → Option (Option GoError)
  | .returning r | .deferred r | .returned r => some r
  | _ => none

namespace ConnectionListeners

variable {s s' : ConnectionListeners} {a : Action}

theorem sendsBeforeClosing_of_isLocal (h : a.isLocal = true) : SendsBeforeClosing s a := by
  intro heq
  cases heq
  cases h

theorem destructor_of_isLocal (h : a.isLocal = true) (hnext : s.next a = some s') :
    s'.destructor.error = s.destructor.error ∧
      s'.destructor.isFinished = s.destructor.isFinished := by
  cases a with
  | notifyClose | notifyBlocked => grind [next, notifyClose, notifyBlocked, notify]
  | shutdownReturn => grind [next, shutdownReturn]
  | shutdownNotify | closeNext | shutdownChannels =>
      grind [next, shutdownNotify, closeNext, shutdownChannels, ConnectionDestructor.error,
        ConnectionDestructor.isFinished]
  | _ => cases h

theorem shutdown_error (e : Option Error) :
    (s.shutdown e).destructor.error = s.destructor.error.or (some e) := by
  cases hd : s.destructor <;> simp [shutdown, hd, ConnectionDestructor.error]

theorem shutdown_isFinished (e : Option Error) :
    (s.shutdown e).destructor.isFinished = s.destructor.isFinished := by
  cases hd : s.destructor <;> simp [shutdown, hd, ConnectionDestructor.isFinished]

end ConnectionListeners

namespace ChannelListeners

theorem isFinished_of_next {s s' : ChannelListeners} {a : Action} (hnext : s.next a = some s')
    (h : s.destructor.isFinished = true) : s'.destructor.isFinished = true := by
  cases a with
  | shutdown e =>
      cases hnext
      cases hd : s.destructor <;> simp_all [shutdown, Destructor.isFinished]
  | shutdownNotify | shutdownConfirms | shutdownFinish =>
      grind [next, shutdownNotify, shutdownConfirms, shutdownFinish, Destructor.isFinished]
  | serverConfirm e => grind [next, serverConfirm, Option.map_eq_some_iff]
  | dispatch | sendNext | dispatched | resequence | confirm | publish | unpublish =>
      grind [next, dispatch, sendNext, dispatched, resequence]
  | notifyPublish => grind [next, notifyPublish, notify]
  | _ => grind [next, notifyClose, notifyFlow, notifyReturn, notifyCancel, notify]

end ChannelListeners

namespace GracefulClose

/-! ## Who is to blame for an error -/

structure Valid (s : GracefulClose) : Prop where
  connection : s.connection.Valid
  channels : ∀ ch ∈ s.channels, ch.Valid ∧
    (ch.destructor.error = none ∨ ch.destructor.error = s.connection.destructor.error)
  blamed : ∀ e, s.spawned = some e ∨ s.connection.destructor.error = some (some e) →
    ∃ err, s.closer.result = some (some err)
  shut : ∀ i < s.shut, ∀ ch, s.channels[i]? = some ch → ch.destructor.isFinished = true
  finished : s.connection.destructor.isFinished = true → s.shut = s.channels.length
  returned : s.closer = .returned none → s.connection.destructor.isFinished = true

variable {s s' : GracefulClose}

theorem valid_start (n : ℕ) : (start n).Valid where
  connection := ConnectionListeners.valid_newConnection
  channels := by
    intro ch hch
    rw [List.eq_of_mem_replicate hch]
    exact ⟨ChannelListeners.valid_newChannel, .inl rfl⟩
  blamed := by simp [start, ConnectionListeners.newConnection, ConnectionDestructor.error]
  shut := fun i hi => absurd hi (Nat.not_lt_zero i)
  finished := nofun
  returned := nofun

/-- A step of `Close`, the server or the reader that touches no listeners. -/
theorem Valid.of_closer (h : s.Valid) {closer : Closing} (server : ClosingServer) (reply : Bool)
    (hresult : ∀ r, s.closer.result = some r → closer.result = some r)
    (hreturned : closer = .returned none → s.connection.destructor.isFinished = true) :
    Valid { s with closer := closer, server := server, reply := reply } where
  connection := h.connection
  channels := h.channels
  blamed := by
    intro e he
    obtain ⟨err, hr⟩ := h.blamed e he
    exact ⟨err, hresult _ hr⟩
  shut := h.shut
  finished := h.finished
  returned := hreturned

theorem Valid.of_connection (h : s.Valid) {c : ConnectionListeners} (hc : c.Valid)
    (herror : c.destructor.error = s.connection.destructor.error)
    (hfinished : c.destructor.isFinished = s.connection.destructor.isFinished) :
    Valid { s with connection := c } where
  connection := hc
  channels := by
    rw [herror]
    exact h.channels
  blamed := by
    rw [herror]
    exact h.blamed
  shut := h.shut
  finished := by
    rw [hfinished]
    exact h.finished
  returned := by
    rw [hfinished]
    exact h.returned

/-- An error may enter `shutdown` only when `Close` returns one. -/
theorem Valid.shutdown (h : s.Valid) (e : Option Error)
    (hblame : e = none ∨ ∃ err, s.closer.result = some (some err)) :
    Valid { s with connection := s.connection.shutdown e } where
  connection := h.connection.shutdown e
  channels := by
    intro ch hch
    obtain ⟨hvalid, herror⟩ := h.channels ch hch
    refine ⟨hvalid, ?_⟩
    rw [ConnectionListeners.shutdown_error]
    cases hconnection : s.connection.destructor.error with
    | none => exact .inl (herror.elim (fun h => h) fun h => h.trans hconnection)
    | some e => exact herror.imp_right fun h => h.trans hconnection
  blamed := by
    intro e' he'
    rcases hblame with rfl | hresult
    · refine h.blamed e' (he'.imp_right fun herror => ?_)
      rw [ConnectionListeners.shutdown_error] at herror
      cases hconnection : s.connection.destructor.error <;> simp_all
    · exact hresult
  shut := h.shut
  finished := by
    rw [ConnectionListeners.shutdown_isFinished]
    exact h.finished
  returned := by
    rw [ConnectionListeners.shutdown_isFinished]
    exact h.returned

theorem Valid.of_channel (h : s.Valid) {i : ℕ} {ch ch' : ChannelListeners}
    (hi : s.channels[i]? = some ch) (hvalid : ch'.Valid)
    (herror : ch'.destructor.error = none ∨
      ch'.destructor.error = s.connection.destructor.error)
    (hfinished : ch.destructor.isFinished = true → ch'.destructor.isFinished = true) :
    Valid { s with channels := s.channels.set i ch' } where
  connection := h.connection
  channels := by
    intro c hc
    rcases List.mem_or_eq_of_mem_set hc with hc | rfl
    · exact h.channels c hc
    · exact ⟨hvalid, herror⟩
  blamed := h.blamed
  shut := by
    intro j hj c hc
    rcases getElem?_set_cases hc with ⟨rfl, rfl⟩ | ⟨-, hc⟩
    · exact hfinished (h.shut j hj ch hi)
    · exact h.shut j hj c hc
  finished := by
    rw [List.length_set]
    exact h.finished
  returned := h.returned

/-! ## Steps of `Close` -/

theorem Valid.check (h : s.Valid) (hnext : s.check = some s') : s'.Valid := by
  unfold GracefulClose.check at hnext
  split at hnext <;> cases hnext
  rename_i hstart
  refine h.of_closer _ _ (by simp [hstart, Closing.result]) ?_
  split <;> exact nofun

theorem Valid.send (h : s.Valid) {failure : Option String} (hnext : s.send failure = some s') :
    s'.Valid := by
  unfold GracefulClose.send at hnext
  split at hnext
  · rename_i hchecked hclosed
    cases hnext
    exact h.of_closer _ _ (by simp [hchecked, Closing.result]) nofun
  · cases hnext
    exact { h with blamed := fun _ _ => ⟨_, rfl⟩, returned := nofun }
  · rename_i hchecked hclosed
    cases hnext
    exact h.of_closer _ _ (by simp [hchecked, Closing.result]) nofun
  · cases hnext

theorem Valid.spawnedShutdown (h : s.Valid) (hnext : s.spawnedShutdown = some s') :
    s'.Valid := by
  unfold GracefulClose.spawnedShutdown at hnext
  split at hnext <;> cases hnext
  rename_i e hspawned
  have hresult := h.blamed e (.inl hspawned)
  exact { h.shutdown (some e) (.inr hresult) with blamed := fun _ _ => hresult }

theorem Valid.takeReply (h : s.Valid) (hnext : s.takeReply = some s') : s'.Valid := by
  unfold GracefulClose.takeReply at hnext
  split at hnext <;> cases hnext
  rename_i hwaiting _ _
  exact h.of_closer _ _ (by simp [hwaiting, Closing.result]) nofun

theorem Valid.takeError (h : s.Valid) (hnext : s.takeError = some s') : s'.Valid := by
  unfold GracefulClose.takeError at hnext
  split at hnext <;> cases hnext
  all_goals
    rename_i hwaiting _
    exact h.of_closer _ _ (by simp [hwaiting, Closing.result]) nofun

theorem Valid.takeClosed (h : s.Valid) (hnext : s.takeClosed = some s') : s'.Valid := by
  unfold GracefulClose.takeClosed at hnext
  split at hnext <;> cases hnext
  rename_i hwaiting _
  exact h.of_closer _ _ (by simp [hwaiting, Closing.result]) nofun

theorem Valid.deferredShutdown (h : s.Valid) (hnext : s.deferredShutdown = some s') :
    s'.Valid := by
  unfold GracefulClose.deferredShutdown at hnext
  split at hnext <;> cases hnext
  rename_i r hreturning
  have hshutdown := h.shutdown none (.inl rfl)
  exact hshutdown.of_closer _ _ (by simp [hreturning, Closing.result]) nofun

theorem Valid.closeReturn (h : s.Valid) (hnext : s.closeReturn = some s') : s'.Valid := by
  unfold GracefulClose.closeReturn at hnext
  split at hnext <;> cases hnext
  rename_i r e hdeferred hfinished
  refine h.of_closer _ _ (by simp [hdeferred, Closing.result]) fun _ => ?_
  rw [hfinished]
  rfl

/-! ## Steps of the server and the reader -/

theorem Valid.answer (h : s.Valid) (hnext : s.answer = some s') : s'.Valid := by
  unfold GracefulClose.answer at hnext
  split at hnext <;> cases hnext
  exact h.of_closer _ _ (fun _ hr => hr) h.returned

theorem Valid.hangUp (h : s.Valid) (hnext : s.hangUp = some s') : s'.Valid := by
  unfold GracefulClose.hangUp at hnext
  split at hnext <;> cases hnext
  exact h.of_closer _ _ (fun _ hr => hr) h.returned

theorem Valid.dropReply (h : s.Valid) (hnext : s.dropReply = some s') : s'.Valid := by
  unfold GracefulClose.dropReply at hnext
  split at hnext <;> cases hnext
  exact h.of_closer _ _ (fun _ hr => hr) h.returned

/-- The error of the read is without effect when another call has entered `shutdown`. -/
theorem readError_destructor {c c' : ConnectionListeners} {e : Error}
    (hentered : c.destructor ≠ .idle) (hnext : c.readError e = some c') :
    c'.destructor = c.destructor := by
  unfold ConnectionListeners.readError at hnext
  split at hnext <;> cases hnext
  cases hd : c.destructor with
  | idle => exact absurd hd hentered
  | _ => simp [ConnectionListeners.shutdown, hd]

theorem Valid.readError (h : s.Valid) {reason : String}
    (hentered : s.connection.destructor ≠ .idle) (hnext : s.readError reason = some s') :
    s'.Valid := by
  have hread : ∃ c, s.connection.readError (transportError reason) = some c ∧
      s' = { s with connection := c } := by
    unfold GracefulClose.readError at hnext
    split at hnext
    · obtain ⟨c, hc, rfl⟩ := Option.map_eq_some_iff.mp hnext
      exact ⟨c, hc, rfl⟩
    · obtain ⟨c, hc, rfl⟩ := Option.map_eq_some_iff.mp hnext
      exact ⟨c, hc, rfl⟩
    · cases hnext
  obtain ⟨c, hc, rfl⟩ := hread
  have hdestructor := readError_destructor hentered hc
  refine h.of_connection ?_ (congrArg _ hdestructor) (congrArg _ hdestructor)
  exact h.connection.step (a := .readError _) nofun hc

/-! ## Steps of `shutdown` -/

theorem Valid.shutdownChannel (h : s.Valid) (hnext : s.shutdownChannel = some s') :
    s'.Valid := by
  unfold GracefulClose.shutdownChannel at hnext
  split at hnext <;> cases hnext
  rename_i e ch hchannels hch
  obtain ⟨hvalid, herror⟩ := h.channels ch (List.mem_of_getElem? hch)
  have hnext : ch.next (.shutdown e) = some (ch.shutdown e) := rfl
  refine h.of_channel hch (hvalid.shutdown e) ?_ (ChannelListeners.isFinished_of_next hnext)
  rw [ChannelListeners.error_of_next hnext]
  rcases herror with herror | herror
  · right
    simp [herror, hchannels, ChannelListeners.Action.error, ConnectionDestructor.error]
  · right
    simp [herror, hchannels, ConnectionDestructor.error]

theorem Valid.channelShut (h : s.Valid) (hnext : s.channelShut = some s') : s'.Valid := by
  unfold GracefulClose.channelShut at hnext
  split at hnext
  · rename_i e ch hchannels hch
    obtain ⟨hfinished, ⟨⟩⟩ := Option.ite_none_right_eq_some.mp hnext
    refine { h with shut := ?_, finished := ?_ }
    · intro i hi c hc
      rcases Nat.lt_succ_iff_lt_or_eq.mp hi with hi | rfl
      · exact h.shut i hi c hc
      · rw [hch] at hc
        cases hc
        exact hfinished
    · simp [hchannels, ConnectionDestructor.isFinished]
  · cases hnext

theorem Valid.shutdownFinish (h : s.Valid) (hnext : s.shutdownFinish = some s') : s'.Valid := by
  unfold GracefulClose.shutdownFinish at hnext
  obtain ⟨hall, hmap⟩ := Option.ite_none_right_eq_some.mp hnext
  obtain ⟨c, hc, rfl⟩ := Option.map_eq_some_iff.mp hmap
  have hvalid := h.connection.shutdownFinish hc
  unfold ConnectionListeners.shutdownFinish at hc
  split at hc <;> cases hc
  rename_i e hchannels
  refine ⟨hvalid, ?_, ?_, h.shut, fun _ => hall, fun _ => rfl⟩
  · have hold := h.channels
    rw [hchannels] at hold
    exact hold
  · have hold := h.blamed
    rw [hchannels] at hold
    exact hold

theorem Valid.stepConnection (h : s.Valid) {a : ConnectionListeners.Action}
    (hnext : s.stepConnection a = some s') : s'.Valid := by
  obtain ⟨hlocal, hmap⟩ := Option.ite_none_right_eq_some.mp hnext
  obtain ⟨c, hc, rfl⟩ := Option.map_eq_some_iff.mp hmap
  obtain ⟨herror, hfinished⟩ := ConnectionListeners.destructor_of_isLocal hlocal hc
  have hguard := ConnectionListeners.sendsBeforeClosing_of_isLocal (s := s.connection) hlocal
  exact h.of_connection (h.connection.step hguard hc) herror hfinished

theorem Valid.stepChannel (h : s.Valid) {i : ℕ} {a : ChannelListeners.Action}
    (hnext : s.stepChannel i a = some s') : s'.Valid := by
  unfold GracefulClose.stepChannel at hnext
  split at hnext
  · rename_i ch hch ha
    obtain ⟨ch', hch', rfl⟩ := Option.map_eq_some_iff.mp hnext
    obtain ⟨hvalid, herror⟩ := h.channels ch (List.mem_of_getElem? hch)
    refine h.of_channel hch (hvalid.step hch') ?_ (ChannelListeners.isFinished_of_next hch')
    rw [ChannelListeners.error_of_next hch', ha, Option.or_none]
    exact herror
  · cases hnext

/-! ## Runs -/

/-- When the reader calls `shutdown` with the error of a read, another call has entered it. -/
def EntersFirst (s : GracefulClose) (a : Action) : Prop :=
  ∀ reason, a = .readError reason → s.connection.destructor ≠ .idle

theorem Valid.step (h : s.Valid) {a : Action} (hguard : EntersFirst s a)
    (hnext : s.next a = some s') : s'.Valid := by
  cases a with
  | check => exact h.check hnext
  | send failure => exact h.send hnext
  | spawnedShutdown => exact h.spawnedShutdown hnext
  | takeReply => exact h.takeReply hnext
  | takeError => exact h.takeError hnext
  | takeClosed => exact h.takeClosed hnext
  | dropReply => exact h.dropReply hnext
  | deferredShutdown => exact h.deferredShutdown hnext
  | closeReturn => exact h.closeReturn hnext
  | answer => exact h.answer hnext
  | hangUp => exact h.hangUp hnext
  | readError reason => exact h.readError (hguard reason rfl) hnext
  | shutdownChannel => exact h.shutdownChannel hnext
  | channelShut => exact h.channelShut hnext
  | shutdownFinish => exact h.shutdownFinish hnext
  | connection a => exact h.stepConnection hnext
  | channel i a => exact h.stepChannel hnext

theorem Valid.error_ne (h : s.Valid) (hresult : s.closer.result = some none) (e : Error) :
    s.connection.destructor.error ≠ some (some e) := by
  intro herror
  obtain ⟨err, herr⟩ := h.blamed e (.inr herror)
  rw [hresult] at herr
  cases herr

theorem Valid.connection_silent (h : s.Valid) (hresult : s.closer.result = some none) :
    ∀ x ∈ s.connection.listeners.all, x.kind = .closes → x.chan.sent = [] := by
  intro x hx hkind
  rw [(h.connection.good x hx).sent hkind, ShutdownProgress.sent_eq_none (h.error_ne hresult)]
  simp

theorem Valid.channel_silent (h : s.Valid) (hresult : s.closer.result = some none)
    {ch : ChannelListeners} (hch : ch ∈ s.channels) :
    ∀ x ∈ ch.listeners.all, x.kind = .closes → x.chan.sent = [] := by
  intro x hx hkind
  obtain ⟨hvalid, herror⟩ := h.channels ch hch
  have hsent : ch.destructor.progress.sent = none := by
    refine ShutdownProgress.sent_eq_none fun e he => ?_
    replace he : ch.destructor.error = some (some e) := he
    rcases herror with herror | herror
    · rw [herror] at he
      cases he
    · exact h.error_ne hresult e (herror ▸ he)
  rw [(hvalid.good x hx).sent hkind, hsent]
  simp

theorem Valid.channel_finished (h : s.Valid) (hreturned : s.closer = .returned none)
    {ch : ChannelListeners} (hch : ch ∈ s.channels) : ch.destructor.isFinished = true := by
  obtain ⟨i, hi⟩ := List.mem_iff_getElem?.mp hch
  refine h.shut i ?_ ch hi
  rw [h.finished (h.returned hreturned)]
  exact (List.getElem?_eq_some_iff.mp hi).1

/-- If `Close` returns no error, and the reader did not enter `shutdown` before it, then the
listeners for closes of the connection and of its channels are closed without an error. -/
theorem silent_of_entersFirst {n : ℕ} {as : List Action}
    (hrun : Run next EntersFirst (start n) as s) (hreturned : s.closer = .returned none) :
    (∀ x ∈ s.connection.listeners.all, x.kind = .closes →
      x.chan.sent = [] ∧ x.chan.isClosed = true) ∧
    ∀ ch ∈ s.channels, ∀ x ∈ ch.listeners.all, x.kind = .closes →
      x.chan.sent = [] ∧ x.chan.isClosed = true := by
  have hvalid : s.Valid :=
    hrun.invariant (valid_start n) fun _ _ _ h hguard hnext => h.step hguard hnext
  have hresult : s.closer.result = some none := by rw [hreturned]; rfl
  constructor
  · intro x hx hkind
    refine ⟨hvalid.connection_silent hresult x hx hkind, ?_⟩
    have hfinished := hvalid.returned hreturned
    cases hd : s.connection.destructor with
    | finished e => exact hvalid.connection.isClosed hd x hx
    | _ => simp [hd, ConnectionDestructor.isFinished] at hfinished
  · intro ch hch x hx hkind
    refine ⟨hvalid.channel_silent hresult hch x hx hkind, ?_⟩
    have hfinished := hvalid.channel_finished hreturned hch
    cases hd : ch.destructor with
    | finished e => exact (hvalid.channels ch hch).1.isClosed hd x hx
    | _ => simp [hd, Destructor.isFinished] at hfinished

theorem silent_of_entersFirst_channel :
    ∃ s, Run next EntersFirst (start 1)
        [.connection .notifyClose, .channel 0 .notifyClose, .check, .send none, .answer, .hangUp,
          .takeReply, .deferredShutdown, .readError "EOF", .connection .shutdownNotify,
          .connection .shutdownChannels, .shutdownChannel, .channel 0 .shutdownNotify,
          .channel 0 .shutdownConfirms, .channel 0 .shutdownFinish, .channelShut,
          .shutdownFinish, .closeReturn] s ∧
      s.closer = .returned none ∧ s.connection.listeners.all.map (·.kind) = [.closes] ∧
      ∀ x ∈ s.connection.listeners.all, x.kind = .closes →
        x.chan.sent = [] ∧ x.chan.isClosed = true := by
  have hrun : Run next EntersFirst (start 1)
      [.connection .notifyClose, .channel 0 .notifyClose, .check, .send none, .answer, .hangUp,
        .takeReply, .deferredShutdown, .readError "EOF", .connection .shutdownNotify,
        .connection .shutdownChannels, .shutdownChannel, .channel 0 .shutdownNotify,
        .channel 0 .shutdownConfirms, .channel 0 .shutdownFinish, .channelShut,
        .shutdownFinish, .closeReturn] _ :=
    .cons nofun rfl (.cons nofun rfl (.cons nofun rfl (.cons nofun rfl (.cons nofun rfl
      (.cons nofun rfl (.cons nofun rfl (.cons nofun rfl (.cons (fun _ _ => nofun) rfl
      (.cons nofun rfl (.cons nofun rfl (.cons nofun rfl (.cons nofun rfl (.cons nofun rfl
      (.cons nofun rfl (.cons nofun rfl (.cons nofun rfl (.cons nofun rfl
      (.nil _))))))))))))))))))
  exact ⟨_, hrun, rfl, rfl, (silent_of_entersFirst hrun rfl).1⟩

/-- The reader finds the transport closed before `Close` gets to the deferred `shutdown`. -/
theorem read_error_reaches_listener :
    ∃ s, Run next (fun _ _ => True) (start 0)
        [.connection .notifyClose, .check, .send none, .answer, .takeReply, .hangUp,
          .readError "EOF", .deferredShutdown, .connection .shutdownNotify,
          .connection .shutdownChannels, .shutdownFinish, .closeReturn] s ∧
      s.closer = .returned none ∧
      s.connection.listeners.all.map (·.chan.sent) = [[.error (transportError "EOF")]] :=
  ⟨_, .cons trivial rfl (.cons trivial rfl (.cons trivial rfl (.cons trivial rfl
    (.cons trivial rfl (.cons trivial rfl (.cons trivial rfl (.cons trivial rfl
    (.cons trivial rfl (.cons trivial rfl (.cons trivial rfl (.cons trivial rfl
    (.nil _)))))))))))), rfl, rfl⟩

end GracefulClose

end Amqp091

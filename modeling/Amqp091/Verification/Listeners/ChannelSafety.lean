import Amqp091.Algorithm.ChannelListeners
import Amqp091.Verification.Confirms.Machine

/-! # Listeners of a channel are notified and closed safely -/

namespace Amqp091

open Channels Transition

namespace Destructor

/-- The body of `shutdown` holds `notifyM`. -/
def locked : Destructor → Bool
  | .notified _ | .confirmsClosed _ => true
  | _ => false

/-- The slices whose listeners have been closed. -/
def closed : Destructor → ChannelListenerKind → Bool
  | .confirmsClosed _, _ | .finished _, _ => true
  | .notified _, k => k ≠ .confirms
  | _, _ => false

/-- What the call of `shutdown` that entered the body was given. -/
def error : Destructor → Option (Option Error)
  | .idle => none
  | .entered e | .notified e | .confirmsClosed e | .finished e => some e

def progress (d : Destructor) : ShutdownProgress ChannelListenerKind Error where
  error := d.error
  told := d.closed .closes
  ended := d.isFinished
  closed := d.closed

end Destructor

namespace ChannelListeners

/-- What holds of a listener while `shutdown` goes on. -/
def Good (d : Destructor) : Listener ChannelListenerKind Notification → Prop :=
  Listener.Good .closes Notification.error d.progress

structure Valid (s : ChannelListeners) : Prop where
  sound : s.listeners.Sound
  good : s.listeners.Each (Good s.destructor)
  noNotify : s.noNotify = s.destructor.isFinished
  cleared : ∀ k, s.destructor.closed k = true → s.listeners.slice k = []
  sending : ∀ v rest, s.reader = .sending v rest → v.kind ≠ .closes ∧ rest.Nodup ∧
    (∀ i ∈ rest, i ∈ s.listeners.slice v.kind) ∧ s.destructor.locked = false

variable {s s' : ChannelListeners} {d : Destructor}

/-! ## Registering -/

theorem closed_eq_false (hfinished : d.isFinished = false) (hlocked : d.locked = false)
    (k : ChannelListenerKind) : d.closed k = false := by
  cases d with
  | idle | entered => rfl
  | notified | confirmsClosed => cases hlocked
  | finished => cases hfinished

theorem closed_eq_true (hfinished : d.isFinished = true) (k : ChannelListenerKind) :
    d.closed k = true := by
  cases d with
  | finished => rfl
  | _ => cases hfinished

theorem not_locked (h : s.notifyLocked = false) :
    s.destructor.locked = false ∧ ∀ v rest, s.reader ≠ .sending v rest := by
  unfold notifyLocked at h
  split at h
  · cases h
  · cases h
  · cases h
  · rename_i hsending hnotified hconfirms
    refine ⟨?_, hsending⟩
    cases hd : s.destructor with
    | notified e => exact absurd hd (hnotified e)
    | confirmsClosed e => exact absurd hd (hconfirms e)
    | _ => rfl

theorem Valid.notify (h : s.Valid) {k : ChannelListenerKind} (hnext : s.notify k = some s') :
    s'.Valid := by
  rw [ChannelListeners.notify] at hnext
  obtain ⟨hfree, hnext⟩ := Option.ite_none_left_eq_some.mp hnext
  obtain ⟨hlocked, hreader⟩ := not_locked (by simpa using hfree)
  have hno := h.noNotify
  split at hnext
  · rename_i hlate
    cases hnext
    rw [hlate] at hno
    refine ⟨h.sound.registerLate k, ?_, h.noNotify, h.cleared,
      fun v rest hv => absurd hv (hreader v rest)⟩
    exact h.good.registerLate (.registeredLate hno.symm (closed_eq_true hno.symm k))
  · rename_i hearly
    cases hnext
    rw [Bool.eq_false_iff.mpr hearly] at hno
    have hopen := closed_eq_false hno.symm hlocked
    refine ⟨h.sound.register k, h.good.register (.registered (hopen .closes) k), h.noNotify,
      fun k' hk' => ?_, fun v rest hv => absurd hv (hreader v rest)⟩
    rw [hopen k'] at hk'
    cases hk'

/-! ## Dispatching -/

theorem Valid.dispatch (h : s.Valid) {m : ServerNotice} (hnext : s.dispatch m = some s') :
    s'.Valid := by
  unfold ChannelListeners.dispatch at hnext
  split at hnext
  · rename_i hreader hlocked
    cases hnext
    refine { h with sending := ?_ }
    intro v rest hv
    cases hv
    refine ⟨?_, h.sound.nodup _, fun i hi => hi, (not_locked hlocked).1⟩
    cases m <;> exact nofun
  · cases hnext

theorem Valid.sendNext (h : s.Valid) (hnext : s.sendNext = some s') : s'.Valid := by
  unfold ChannelListeners.sendNext at hnext
  split at hnext
  · rename_i v i rest hreader
    cases hnext
    obtain ⟨hkind, hnodup, hrest, hlocked⟩ := h.sending v _ hreader
    have hone : ∀ j ∈ [i], j ∈ s.listeners.slice v.kind := fun j hj =>
      hrest j (List.mem_cons.mpr (.inl (List.mem_singleton.mp hj)))
    refine ⟨h.sound.sendAll (by simp) v, ?_, h.noNotify, h.cleared, ?_⟩
    · exact h.good.sendAll h.sound (by simp) hone fun x hx hopen hgood =>
        Listener.Good.send hgood (hx ▸ hkind) hopen v
    · intro v' rest' hv'
      cases hv'
      exact ⟨hkind, (List.nodup_cons.mp hnodup).2, fun j hj => hrest j (List.mem_cons_of_mem i hj),
        hlocked⟩
  · cases hnext

theorem Valid.dispatched (h : s.Valid) (hnext : s.dispatched = some s') : s'.Valid := by
  unfold ChannelListeners.dispatched at hnext
  split at hnext
  · cases hnext
    exact { h with sending := nofun }
  · cases hnext

/-- Confirmations go to open listeners of their own list. -/
theorem sendConfirmations_spec (h : s.Valid) (cs : List (Confirmation ℕ)) :
    (s.sendConfirmations cs).Sound ∧ (s.sendConfirmations cs).Each (Good s.destructor) ∧
      (s.sendConfirmations cs).slice = s.listeners.slice := by
  rw [sendConfirmations]
  have hloop : ∀ l : Listeners ChannelListenerKind Notification, l.Sound →
      l.Each (Good s.destructor) → l.slice = s.listeners.slice →
      (cs.foldl (fun l c => l.sendAll (l.slice .confirms) (.confirmation c)) l).Sound ∧
      (cs.foldl (fun l c => l.sendAll (l.slice .confirms) (.confirmation c)) l).Each
        (Good s.destructor) ∧
      (cs.foldl (fun l c => l.sendAll (l.slice .confirms) (.confirmation c)) l).slice =
        s.listeners.slice := by
    induction cs with
    | nil => exact fun l hsound hgood hslice => ⟨hsound, hgood, hslice⟩
    | cons c cs ih =>
        intro l hsound hgood hslice
        refine ih _ (hsound.sendAll (hsound.nodup _) _) ?_ hslice
        exact hgood.sendAll hsound (hsound.nodup _) (fun i hi => hi) fun x hx hopen hx' =>
          Listener.Good.send hx' (by simp [hx]) hopen _
  exact hloop _ h.sound h.good rfl

theorem Valid.confirmations (h : s.Valid) (cs : List (Confirmation ℕ)) (c : Confirms ℕ)
    {reader : Dispatching} (hreader : ∀ v rest, reader ≠ .sending v rest) :
    Valid { s with confirms := c, listeners := s.sendConfirmations cs, reader := reader } := by
  obtain ⟨hsound, hgood, hslice⟩ := sendConfirmations_spec h cs
  refine ⟨hsound, hgood, h.noNotify, ?_, fun v rest hv => absurd hv (hreader v rest)⟩
  rw [hslice]
  exact h.cleared

theorem Valid.serverConfirm (h : s.Valid) {e : ServerConfirm}
    (hnext : s.serverConfirm e = some s') : s'.Valid := by
  unfold ChannelListeners.serverConfirm at hnext
  split at hnext
  · obtain ⟨-, hmap⟩ := Option.ite_none_right_eq_some.mp hnext
    obtain ⟨⟨c, cs⟩, -, rfl⟩ := Option.map_eq_some_iff.mp hmap
    exact h.confirmations cs c nofun
  · cases hnext

theorem Valid.resequence (h : s.Valid) (hnext : s.resequence = some s') : s'.Valid := by
  unfold ChannelListeners.resequence at hnext
  split at hnext
  · cases hnext
    exact h.confirmations _ _ nofun
  · cases hnext

/-! ## Shutting down -/

theorem closeLists_eq (l : Listeners ChannelListenerKind Notification) :
    closeLists l =
      (((l.closeSlice .closes).closeSlice .flows).closeSlice .returns).closeSlice .cancels := by
  refine congrArg (Listeners.mk _) ?_
  funext k
  cases k <;> rfl

theorem Valid.shutdown (h : s.Valid) (e : Option Error) : (s.shutdown e).Valid := by
  unfold ChannelListeners.shutdown
  split
  · rename_i hidle
    obtain ⟨hsound, hgood, hno, hcleared, hsending⟩ := h
    rw [hidle] at hgood hno hcleared
    refine ⟨hsound, fun x hx => ?_, hno, nofun, fun v rest hv => ?_⟩
    · exact Listener.Good.mono (hgood x hx) (fun _ => rfl) id fun _ => id
    · obtain ⟨hkind, hnodup, hrest, -⟩ := hsending v rest hv
      exact ⟨hkind, hnodup, hrest, rfl⟩
  · exact h

theorem Valid.shutdownNotify (h : s.Valid) (hnext : s.shutdownNotify = some s') : s'.Valid := by
  unfold ChannelListeners.shutdownNotify at hnext
  split at hnext
  · rename_i e hentered hlocked
    cases hnext
    obtain ⟨-, hreader⟩ := not_locked hlocked
    have hgood := h.good
    have hno := h.noNotify
    rw [hentered] at hgood hno
    have hg : (sendError s.listeners e).Each (Good (.notified e)) :=
      hgood.told (q := (Destructor.notified e).progress) h.sound rfl rfl fun _ => rfl
    obtain ⟨hs, hg⟩ := hg.closed (h.sound.sendOption _ _) (k := .closes) rfl
    obtain ⟨hs, hg⟩ := hg.closed hs (k := .flows) rfl
    obtain ⟨hs, hg⟩ := hg.closed hs (k := .returns) rfl
    obtain ⟨hs, hg⟩ := hg.closed hs (k := .cancels) rfl
    refine ⟨closeLists_eq _ ▸ hs, closeLists_eq _ ▸ hg, hno, ?_,
      fun v rest hv => absurd hv (hreader v rest)⟩
    intro k hk
    cases k with
    | confirms => cases hk
    | _ => rfl
  · cases hnext

theorem Valid.shutdownConfirms (h : s.Valid) (hnext : s.shutdownConfirms = some s') :
    s'.Valid := by
  unfold ChannelListeners.shutdownConfirms at hnext
  split at hnext
  · cases hnext
  · rename_i e hnotified hreader
    cases hnext
    have hgood := h.good
    have hno := h.noNotify
    have hcleared := h.cleared
    have hsending := h.sending
    rw [hnotified] at hgood hno hcleared hsending
    have hgood' : s.listeners.Each (Good (.confirmsClosed e)) := fun x hx =>
      Listener.Good.mono (hgood x hx) (fun _ => rfl) id nofun
    obtain ⟨hs, hg⟩ := hgood'.closed h.sound (k := .confirms) rfl
    refine ⟨hs, hg, hno, ?_, ?_⟩
    · intro k hk
      cases k with
      | confirms => exact Listeners.closeSlice_slice _ _
      | _ => exact hcleared _ rfl
    · intro v rest hv
      obtain ⟨-, -, -, hlocked⟩ := hsending v rest hv
      cases hlocked
  · cases hnext

theorem Valid.shutdownFinish (h : s.Valid) (hnext : s.shutdownFinish = some s') : s'.Valid := by
  unfold ChannelListeners.shutdownFinish at hnext
  split at hnext
  · rename_i e hclosed
    cases hnext
    obtain ⟨hsound, hgood, hno, hcleared, hsending⟩ := h
    rw [hclosed] at hgood hno hcleared hsending
    refine ⟨hsound, fun x hx => ?_, rfl, fun k _ => hcleared k rfl, fun v rest hv => ?_⟩
    · exact Listener.Good.mono (hgood x hx) (fun _ => rfl) nofun nofun
    · obtain ⟨-, -, -, hlocked⟩ := hsending v rest hv
      cases hlocked
  · cases hnext

/-! ## Runs -/

theorem valid_newChannel : newChannel.Valid where
  sound := Listeners.sound_empty
  good := Listeners.each_empty
  noNotify := rfl
  cleared := fun _ _ => rfl
  sending := nofun

theorem Valid.step (h : s.Valid) {a : Action} (hnext : s.next a = some s') : s'.Valid := by
  cases a with
  | notifyClose | notifyFlow | notifyReturn | notifyCancel => exact h.notify hnext
  | notifyPublish =>
      have hnext : s.notifyPublish = some s' := hnext
      unfold ChannelListeners.notifyPublish at hnext
      split at hnext
      · cases hnext
      · exact h.notify hnext
  | dispatch m => exact h.dispatch hnext
  | sendNext => exact h.sendNext hnext
  | dispatched => exact h.dispatched hnext
  | confirm | publish | unpublish =>
      cases hnext
      exact { h with }
  | serverConfirm e => exact h.serverConfirm hnext
  | resequence => exact h.resequence hnext
  | shutdown e =>
      cases hnext
      exact h.shutdown e
  | shutdownNotify => exact h.shutdownNotify hnext
  | shutdownConfirms => exact h.shutdownConfirms hnext
  | shutdownFinish => exact h.shutdownFinish hnext

theorem error_of_next {a : Action} (hnext : s.next a = some s') :
    s'.destructor.error = s.destructor.error.or a.error := by
  cases a with
  | shutdown e =>
      cases hnext
      cases hd : s.destructor <;>
        simp [hd, ChannelListeners.shutdown, Destructor.error, Action.error]
  | shutdownNotify => grind [next, shutdownNotify, Destructor.error, Action.error]
  | shutdownConfirms => grind [next, shutdownConfirms, Destructor.error, Action.error]
  | shutdownFinish => grind [next, shutdownFinish, Destructor.error, Action.error]
  | serverConfirm e => grind [next, serverConfirm, Option.map_eq_some_iff, Action.error]
  | dispatch | sendNext | dispatched | resequence | confirm | publish | unpublish =>
      grind [next, dispatch, sendNext, dispatched, resequence, Action.error]
  | notifyPublish => grind [next, notifyPublish, notify, Action.error]
  | _ =>
      grind [next, notifyClose, notifyFlow, notifyReturn, notifyCancel, notify, Action.error]

/-- The first call of `shutdown` decides the error. -/
theorem error_of_run {as : List Action} (h : Run next (fun _ _ => True) s as s') :
    s'.destructor.error = s.destructor.error.or (as.findSome? Action.error) := by
  induction h with
  | nil s => simp
  | cons _ hnext _ ih =>
      rw [ih, error_of_next hnext, Option.or_assoc, List.findSome?_cons]
      cases Action.error _ <;> rfl

theorem Valid.isClosed (h : s.Valid) {e : Option Error} (hfinished : s.destructor = .finished e) :
    ∀ x ∈ s.listeners.all, x.chan.isClosed = true := by
  intro x hx
  obtain ⟨i, hi⟩ := List.mem_iff_getElem?.mp hx
  rcases h.sound.settled i x hi with hmem | hclosed
  · rw [h.cleared x.kind (by rw [hfinished]; rfl)] at hmem
    cases hmem
  · exact hclosed

/-- In every interleaving no listener is sent to after it was closed or closed twice. When
the body of `shutdown` is over, its error is the one of the first call, all listeners are
closed, and those for closes that registered before got that error, if any, exactly once;
the late ones got nothing. -/
theorem listeners_notified_and_closed {as : List Action}
    (hrun : Run next (fun _ _ => True) newChannel as s) :
    (∀ x ∈ s.listeners.all, x.chan.Safe) ∧
      ∀ e, s.destructor = .finished e →
        as.findSome? Action.error = some e ∧
        ∀ x ∈ s.listeners.all, x.chan.isClosed = true ∧
          (x.kind = .closes →
            x.chan.sent = if x.late then [] else (e.map Notification.error).toList) := by
  have hvalid : s.Valid :=
    hrun.invariant valid_newChannel fun _ _ _ h _ hnext => h.step hnext
  refine ⟨fun x hx => (hvalid.good x hx).safe, fun e he => ⟨?_, fun x hx => ?_⟩⟩
  · have herror := error_of_run hrun
    rw [he] at herror
    exact herror.symm
  · refine ⟨hvalid.isClosed he x hx, fun hkind => ?_⟩
    rw [(hvalid.good x hx).sent hkind, he]
    rfl

theorem listeners_notified_and_closed_late :
    let e : Error := ⟨channelErrorCode, "channel closed", true, false⟩
    ∃ s : ChannelListeners, Run next (fun _ _ => True) newChannel
        [.notifyClose, .notifyFlow, .dispatch (.channelFlow false), .sendNext, .dispatched,
          .shutdown (some e), .shutdown none, .shutdownNotify, .shutdownConfirms,
          .shutdownFinish, .notifyClose] s ∧
      s.destructor = .finished (some e) ∧
      s.listeners.all.map (·.late) = [false, false, true] ∧
      ∀ x ∈ s.listeners.all, x.chan.Safe ∧ x.chan.isClosed = true := by
  intro e
  have hrun : Run next (fun _ _ => True) newChannel
      [.notifyClose, .notifyFlow, .dispatch (.channelFlow false), .sendNext, .dispatched,
        .shutdown (some e), .shutdown none, .shutdownNotify, .shutdownConfirms,
        .shutdownFinish, .notifyClose] _ :=
    .cons trivial rfl (.cons trivial rfl (.cons trivial rfl (.cons trivial rfl
      (.cons trivial rfl (.cons trivial rfl (.cons trivial rfl (.cons trivial rfl
      (.cons trivial rfl (.cons trivial rfl (.cons trivial rfl (.nil _)))))))))))
  obtain ⟨hsafe, hfinished⟩ := listeners_notified_and_closed hrun
  exact ⟨_, hrun, rfl, rfl, fun x hx => ⟨hsafe x hx, ((hfinished _ rfl).2 x hx).1⟩⟩

end ChannelListeners

end Amqp091

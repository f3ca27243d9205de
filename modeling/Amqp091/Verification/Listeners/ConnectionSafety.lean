import Amqp091.Algorithm.ConnectionListeners
import Amqp091.Shared.Transition

/-! # When listeners of a connection are notified and closed safely

The reader may still be sending to the listeners in `blocks` while `shutdown` closes them.
Everything else about the listeners of a connection is safe. -/

namespace Amqp091

open ByteCodec Channels Transition

namespace ConnectionDestructor

/-- The body of `shutdown` has come to the loops that close listeners. -/
def closes : ConnectionDestructor → Bool
  | .closing _ _ | .channels _ | .finished _ => true
  | _ => false

def isFinished : ConnectionDestructor → Bool
  | .finished _ => true
  | _ => false

/-- What the call of `shutdown` that entered the body was given. -/
def error : ConnectionDestructor → Option (Option Error)
  | .idle => none
  | .entered e | .closing e _ | .channels e | .finished e => some e

def progress (d : ConnectionDestructor) : ShutdownProgress ConnectionListenerKind Error where
  error := d.error
  told := d.closes
  ended := d.isFinished
  closed := fun _ => d.closes

end ConnectionDestructor

namespace ConnectionListeners

/-- The listeners, with the slices cut down to what `shutdown` has not closed yet. -/
def pending (s : ConnectionListeners) : Listeners ConnectionListenerKind ConnectionNotice where
  all := s.listeners.all
  slice := match s.destructor with
    | .idle | .entered _ => s.listeners.slice
    | .closing _ rest => fun
        | .closes => []
        | .blocks => rest
    | .channels _ | .finished _ => fun _ => []

/-- What holds of a listener while `shutdown` goes on. -/
def Good (d : ConnectionDestructor) : Listener ConnectionListenerKind ConnectionNotice → Prop :=
  Listener.Good .closes ConnectionNotice.error d.progress

structure Valid (s : ConnectionListeners) : Prop where
  sound : s.pending.Sound
  good : s.listeners.Each (Good s.destructor)
  noNotify : s.noNotify = s.destructor.isFinished
  sending : ∀ b rest, s.reader = .sending b rest → ∀ i ∈ rest, i ∈ s.listeners.slice .blocks

variable {s s' : ConnectionListeners} {d : ConnectionDestructor}
  {x : Listener ConnectionListenerKind ConnectionNotice}

theorem pending_eq (h : s.destructor.closes = false) : s.pending = s.listeners := by
  unfold pending
  cases hd : s.destructor with
  | idle | entered => rfl
  | _ => simp [hd, ConnectionDestructor.closes] at h

theorem sound_pending (h : s.destructor.closes = false) (hsound : s.listeners.Sound) :
    s.pending.Sound := by
  rw [pending_eq h]
  exact hsound

/-- Steps that leave the listeners and the destructor alone. -/
theorem Valid.of_reader (h : s.Valid) {r : ConnectionReader}
    (hr : ∀ b rest, r = .sending b rest → ∀ i ∈ rest, i ∈ s.listeners.slice .blocks) :
    Valid { s with reader := r } :=
  ⟨h.sound, h.good, h.noNotify, hr⟩

/-! ## Registering -/

theorem closes_of_isFinished (hfinished : d.isFinished = true) : d.closes = true := by
  cases d with
  | finished => rfl
  | _ => cases hfinished

theorem Valid.notify (h : s.Valid) {k : ConnectionListenerKind} (hnext : s.notify k = some s') :
    s'.Valid := by
  rw [ConnectionListeners.notify] at hnext
  obtain ⟨hfree, hnext⟩ := Option.ite_none_left_eq_some.mp hnext
  have hno := h.noNotify
  split at hnext
  · rename_i hlate
    cases hnext
    rw [hlate] at hno
    refine ⟨h.sound.registerLate k, ?_, h.noNotify, h.sending⟩
    exact h.good.registerLate (.registeredLate hno.symm (closes_of_isFinished hno.symm))
  · rename_i hearly
    cases hnext
    rw [Bool.eq_false_iff.mpr hearly] at hno
    have hcloses : s.destructor.closes = false := by
      cases hd : s.destructor with
      | idle | entered => rfl
      | closing | channels => simp [locked, hd] at hfree
      | finished => simp [hd, ConnectionDestructor.isFinished] at hno
    have hsound := pending_eq hcloses ▸ h.sound
    refine ⟨sound_pending hcloses (hsound.register k),
      h.good.register (.registered hcloses k), h.noNotify, ?_⟩
    intro b rest hb i hi
    have hold := h.sending b rest hb i hi
    rw [Listeners.register_slice]
    split
    · rename_i heq
      exact List.mem_append_left _ (heq ▸ hold)
    · exact hold

/-! ## Dispatching -/

theorem Valid.sendNext (h : s.Valid) (hcloses : s.destructor.closes = false)
    (hnext : s.sendNext = some s') : s'.Valid := by
  unfold ConnectionListeners.sendNext at hnext
  split at hnext
  · rename_i b i rest hreader
    cases hnext
    have hsound := pending_eq hcloses ▸ h.sound
    have hrest := h.sending b _ hreader
    have hone : ∀ j ∈ [i], j ∈ s.listeners.slice .blocks := fun j hj =>
      hrest j (List.mem_cons.mpr (.inl (List.mem_singleton.mp hj)))
    refine ⟨sound_pending hcloses (hsound.sendAll (by simp) _), ?_, h.noNotify, ?_⟩
    · exact h.good.sendAll hsound (by simp) hone fun x hx hopen hgood =>
        Listener.Good.send hgood (by simp [hx]) hopen _
    · intro b' rest' hb'
      cases hb'
      exact fun j hj => hrest j (List.mem_cons_of_mem i hj)
  · cases hnext

theorem Valid.shutdown (h : s.Valid) (e : Option Error) : (s.shutdown e).Valid := by
  unfold ConnectionListeners.shutdown
  split
  · rename_i hidle
    obtain ⟨hsound, hgood, hno, hsending⟩ := h
    rw [hidle] at hgood hno
    rw [pending_eq (by rw [hidle]; rfl)] at hsound
    refine ⟨hsound, fun x hx => ?_, hno, hsending⟩
    exact Listener.Good.mono (hgood x hx) (fun _ => rfl) id fun _ => id
  · exact { h with }

theorem Valid.dispatch0 (h : s.Valid) {m : ConnectionMethod} (hnext : s.dispatch0 m = some s') :
    s'.Valid := by
  unfold ConnectionListeners.dispatch0 at hnext
  split at hnext
  · cases hnext
    exact (h.shutdown _).of_reader nofun
  · cases hnext
    refine h.of_reader fun b rest hb => ?_
    cases hb
    exact fun i hi => hi
  · cases hnext
    refine h.of_reader fun b rest hb => ?_
    cases hb
    exact fun i hi => hi
  · cases hnext

/-! ## Shutting down -/

theorem Valid.shutdownNotify (h : s.Valid) (hnext : s.shutdownNotify = some s') : s'.Valid := by
  unfold ConnectionListeners.shutdownNotify at hnext
  split at hnext
  · rename_i e hentered
    cases hnext
    obtain ⟨hsound, hgood, hno, hsending⟩ := h
    rw [hentered] at hgood hno
    rw [pending_eq (by rw [hentered]; rfl)] at hsound
    have hslice : (sendError s.listeners e).slice = s.listeners.slice :=
      Listeners.sendOption_slice _ _
    have hgood' : (sendError s.listeners e).Each (Good (.closing e (s.listeners.slice .blocks))) :=
      hgood.told (q := (ConnectionDestructor.closing e _).progress) hsound rfl rfl fun _ => rfl
    obtain ⟨hs, hg⟩ := hgood'.closed (hsound.sendOption _ _) (k := .closes) rfl
    rw [Listeners.closeSlice, hslice] at hs hg
    refine ⟨hs.of_eq rfl fun k => ?_, hg, hno, fun b rest hb => hslice ▸ hsending b rest hb⟩
    cases k with
    | closes => rfl
    | blocks => exact congrFun hslice.symm .blocks
  · cases hnext

theorem Valid.closeNext (h : s.Valid) (hnext : s.closeNext = some s') : s'.Valid := by
  unfold ConnectionListeners.closeNext at hnext
  split at hnext
  · rename_i e i rest hclosing
    cases hnext
    obtain ⟨hsound, hgood, hno, hsending⟩ := h
    rw [hclosing] at hgood hno
    have hblocks : s.pending.slice .blocks = i :: rest := by simp [pending, hclosing]
    refine ⟨?_, ?_, hno, hsending⟩
    · refine (hsound.closeHead hblocks).of_eq rfl fun k => ?_
      cases k <;> simp [pending, hclosing]
    · refine Listeners.Each.modifyAll (fun x hx => Listener.Good.mono (hgood x hx)
        (fun _ => rfl) id nofun) (by simp) fun j x hx hj hgood => ?_
      rw [List.mem_singleton.mp hj] at hx
      exact Listener.Good.close hgood rfl (hsound.active_eq (hblocks ▸ List.mem_cons_self) hx).2
  · cases hnext

theorem Valid.shutdownChannels (h : s.Valid) (hnext : s.shutdownChannels = some s') :
    s'.Valid := by
  unfold ConnectionListeners.shutdownChannels at hnext
  split at hnext
  · rename_i e hclosing
    cases hnext
    obtain ⟨hsound, hgood, hno, hsending⟩ := h
    rw [hclosing] at hgood hno
    refine ⟨?_, fun x hx => ?_, hno, hsending⟩
    · refine hsound.of_eq rfl fun k => ?_
      cases k <;> simp [pending, hclosing]
    · exact Listener.Good.mono (hgood x hx) (fun _ => rfl) id nofun
  · cases hnext

theorem Valid.shutdownFinish (h : s.Valid) (hnext : s.shutdownFinish = some s') : s'.Valid := by
  unfold ConnectionListeners.shutdownFinish at hnext
  split at hnext
  · rename_i e hchannels
    cases hnext
    obtain ⟨hsound, hgood, hno, hsending⟩ := h
    rw [hchannels] at hgood
    refine ⟨?_, fun x hx => ?_, rfl, hsending⟩
    · exact hsound.of_eq rfl fun k => by simp [pending, hchannels]
    · exact Listener.Good.mono (hgood x hx) (fun _ => rfl) nofun nofun
  · cases hnext

/-! ## Runs -/

/-- The reader sends to a listener only before `shutdown` comes to the loop over `blocks`. -/
def SendsBeforeClosing (s : ConnectionListeners) (a : Action) : Prop :=
  a = .sendNext → s.destructor.closes = false

theorem valid_newConnection : newConnection.Valid where
  sound := Listeners.sound_empty
  good := Listeners.each_empty
  noNotify := rfl
  sending := nofun

theorem Valid.step (h : s.Valid) {a : Action} (hguard : SendsBeforeClosing s a)
    (hnext : s.next a = some s') : s'.Valid := by
  cases a with
  | notifyClose | notifyBlocked => exact h.notify hnext
  | dispatch0 m => exact h.dispatch0 hnext
  | sendNext => exact h.sendNext (hguard rfl) hnext
  | dispatched =>
      have hnext : s.dispatched = some s' := hnext
      unfold ConnectionListeners.dispatched at hnext
      split at hnext <;> cases hnext
      exact h.of_reader nofun
  | readError e =>
      have hnext : s.readError e = some s' := hnext
      unfold ConnectionListeners.readError at hnext
      split at hnext <;> cases hnext
      exact (h.shutdown _).of_reader nofun
  | shutdownReturn =>
      have hnext : s.shutdownReturn = some s' := hnext
      unfold ConnectionListeners.shutdownReturn at hnext
      split at hnext <;> cases hnext
      exact h.of_reader (by split <;> exact nofun)
  | shutdown e =>
      cases hnext
      exact h.shutdown e
  | shutdownNotify => exact h.shutdownNotify hnext
  | closeNext => exact h.closeNext hnext
  | shutdownChannels => exact h.shutdownChannels hnext
  | shutdownFinish => exact h.shutdownFinish hnext

theorem Valid.isClosed (h : s.Valid) {e : Option Error} (hfinished : s.destructor = .finished e) :
    ∀ x ∈ s.listeners.all, x.chan.isClosed = true := by
  intro x hx
  obtain ⟨i, hi⟩ := List.mem_iff_getElem?.mp hx
  rcases h.sound.settled i x hi with hmem | hclosed
  · simp [pending, hfinished] at hmem
  · exact hclosed

theorem Valid.sent_length (h : s.Valid) (hx : x ∈ s.listeners.all) (hkind : x.kind = .closes) :
    x.chan.sent.length ≤ 1 := by
  rw [(h.good x hx).sent hkind]
  split
  · exact Nat.zero_le 1
  · cases s.destructor.progress.sent <;> simp

/-- While the reader sends only before `shutdown` closes the listeners in `blocks`, no
listener is sent to after it was closed or closed twice, those for closes get at most one
error, and all of them are closed when `shutdown` is over. -/
theorem listeners_safe_of_sendsBeforeClosing {as : List Action}
    (hrun : Run next SendsBeforeClosing newConnection as s) :
    (∀ x ∈ s.listeners.all, x.chan.Safe ∧ (x.kind = .closes → x.chan.sent.length ≤ 1)) ∧
      ∀ e, s.destructor = .finished e → ∀ x ∈ s.listeners.all, x.chan.isClosed = true := by
  have hvalid : s.Valid :=
    hrun.invariant valid_newConnection fun _ _ _ h hguard hnext => h.step hguard hnext
  exact ⟨fun x hx => ⟨(hvalid.good x hx).safe, hvalid.sent_length hx⟩,
    fun e he => hvalid.isClosed he⟩

theorem listeners_safe_of_sendsBeforeClosing_blocked :
    ∃ s, Run next SendsBeforeClosing newConnection
        [.notifyClose, .notifyBlocked, .dispatch0 (.connectionBlocked []), .shutdown none,
          .sendNext, .dispatched, .shutdownNotify, .closeNext, .shutdownChannels,
          .shutdownFinish] s ∧
      s.listeners.all.map (·.chan.sent) = [[], [.blocking ⟨true, []⟩]] ∧
      ∀ x ∈ s.listeners.all, x.chan.Safe ∧ x.chan.isClosed = true := by
  have hrun : Run next SendsBeforeClosing newConnection
      [.notifyClose, .notifyBlocked, .dispatch0 (.connectionBlocked []), .shutdown none,
        .sendNext, .dispatched, .shutdownNotify, .closeNext, .shutdownChannels,
        .shutdownFinish] _ :=
    .cons nofun rfl (.cons nofun rfl (.cons nofun rfl (.cons nofun rfl (.cons (fun _ => rfl) rfl
      (.cons nofun rfl (.cons nofun rfl (.cons nofun rfl (.cons nofun rfl (.cons nofun rfl
      (.nil _))))))))))
  obtain ⟨hsafe, hclosed⟩ := listeners_safe_of_sendsBeforeClosing hrun
  exact ⟨_, hrun, rfl, fun x hx => ⟨(hsafe x hx).1, hclosed _ rfl x hx⟩⟩

/-- A `connection.blocked` that was still buffered when the connection shut down. -/
theorem blocked_after_shutdown_faults :
    ∃ s, Run next (fun _ _ => True) newConnection
        [.notifyBlocked, .shutdown none, .shutdownNotify, .closeNext, .shutdownChannels,
          .shutdownFinish, .dispatch0 (.connectionBlocked []), .sendNext] s ∧
      ∃ x ∈ s.listeners.all, ¬x.chan.Safe := by
  refine ⟨_, .cons trivial rfl (.cons trivial rfl (.cons trivial rfl (.cons trivial rfl
    (.cons trivial rfl (.cons trivial rfl (.cons trivial rfl (.cons trivial rfl
    (.nil _)))))))), _, List.mem_cons_self, fun hsafe => ?_⟩
  exact absurd hsafe.faults (by decide)

end ConnectionListeners

end Amqp091

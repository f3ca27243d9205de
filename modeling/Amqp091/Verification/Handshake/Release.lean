import Amqp091.Verification.Handshake.Machine
import Amqp091.Verification.Rpc.Shutdown

/-! # What a failed handshake leaves behind

An error of the transport starts a shutdown, and every later exit of the handshake with it.
The exits that come from what the peer says, and two of the exits of `DialConfig`, only
return. -/

namespace Amqp091

open Transition

namespace Handshake

variable {s s' : Handshake}

/-- The transport is closed, or a shutdown that has started is going to close it together
with the connection. -/
def Released (s : Handshake) : Prop :=
  match s.link with
  | some l => l.Ending
  | none => s.closed = true

/-- An error after the transport was established leaves nothing open. -/
def Sound (s : Handshake) : Prop :=
  ∀ e, s.phase = .returned (some e) → s.established = true → s.Released

/-- The deadline can be set, the TLS parameters of the URI are usable, and as long as no
shutdown has started the server sends what is expected and offers a mechanism that the
client has. -/
def Accepted (s : Handshake) : OpenAction → Prop
  | .setDeadline failure => failure = none
  | .tlsConfig failure => s.plan.amqps = true → s.plan.hasTLS = false → failure = none
  | .select .rpc => ∀ l m k msg, s.link = some l → expected s.phase = some m →
      l.reader = .handing k → l.received[k]? = some msg → msg.method = m ∨ l.started = true
  | .pick => ∀ l k, s.link = some l → s.phase = .picking k →
      (s.mechanism l k).isSome = true ∨ l.started = true
  | _ => True

/-! ## What every step preserves -/

/-- The caller is still in `DialConfig`. -/
def isDialing : OpenPhase → Bool
  | .dialing | .settingDeadline | .connected | .securing | .opening => true
  | _ => false

structure Valid (s : Handshake) : Prop where
  settled : ∀ l, s.link = some l → l.Settled
  dialing : isDialing s.phase = true → s.link = none ∧ s.closed = false
  established : s.established = true ∨ s.phase = .dialing ∨ ∃ e, s.phase = .returned (some e)

theorem valid_dial (request : DialRequest) (hasDial hasTLS : Bool) :
    Valid (dial request hasDial hasTLS) where
  settled := fun l hl => by cases hl
  dialing := fun _ => ⟨rfl, rfl⟩
  established := .inr (.inl rfl)

theorem valid_openWith (config : Config) : Valid (openWith config) where
  settled := fun l hl => by cases hl
  dialing := fun _ => ⟨rfl, rfl⟩
  established := .inl rfl

variable {phase phase' : OpenPhase}

/-- A send that fails makes the handshake fail. -/
theorem afterSend_error {e : GoError} (h : afterSend phase (some e) = some phase') :
    ∃ e', phase' = .returned (some e') := by
  cases phase <;> cases h <;> exact ⟨_, rfl⟩

theorem afterSend_ok (h : afterSend phase none = some phase') :
    isDialing phase' = false ∧ ∀ e, phase' ≠ .returned (some e) := by
  cases phase <;> cases h <;> exact ⟨rfl, by simp⟩

theorem afterSend_phase {e : Option GoError} (h : afterSend phase e = some phase') :
    phase ≠ .dialing ∧ ∀ r, phase ≠ .returned r := by
  cases phase <;> cases e <;> cases h <;> simp

/-- A call that succeeds makes the handshake go on or succeed. -/
theorem afterCall_ok {m : Method} (h : expected phase = some m) (k : ℕ) :
    isDialing (afterCall phase (.ok k)) = false ∧
      ∀ e, afterCall phase (.ok k) ≠ .returned (some e) := by
  cases phase <;> cases h <;> exact ⟨rfl, by simp [afterCall]⟩

theorem afterCall_error {m : Method} (h : expected phase = some m) {r : CallResult}
    (hr : r.error ≠ none) : ∃ e, afterCall phase r = .returned (some e) := by
  cases r with
  | ok k => exact absurd rfl hr
  | _ => cases phase <;> cases h <;> exact ⟨_, rfl⟩

theorem expected_phase {m : Method} (h : expected phase = some m) :
    phase ≠ .dialing ∧ ∀ r, phase ≠ .returned r := by
  cases phase <;> cases h <;> simp

theorem isDialing_afterCall {m : Method} (h : expected phase = some m) (r : CallResult) :
    isDialing (afterCall phase r) = false := by
  cases phase <;> cases h <;> cases r <;> rfl

/-! ## Steps -/

theorem Valid.established_of (h : s.Valid) (hdialing : s.phase ≠ .dialing)
    (hreturned : ∀ r, s.phase ≠ .returned r) : s.established = true := by
  rcases h.established with hestablished | hphase | ⟨e, hphase⟩
  · exact hestablished
  · exact absurd hphase hdialing
  · exact absurd hphase (hreturned _)

/-- `DialConfig` goes on. -/
theorem Valid.dialed (h : s.Valid) (hdialing : isDialing s.phase = true)
    (hne : s.phase ≠ .dialing) : Valid { s with phase := phase } := by
  refine ⟨h.settled, fun _ => h.dialing hdialing, .inl (h.established_of hne fun r hr => ?_)⟩
  rw [hr] at hdialing
  cases hdialing

/-- The connection exists. -/
theorem valid_of_link {l : RpcLink} (hlink : s.link = some l) (hsettled : l.Settled)
    (hestablished : s.established = true) (hphase : isDialing s.phase = false) : s.Valid where
  settled := fun l' hl => by
    rw [hlink] at hl
    cases hl
    exact hsettled
  dialing := fun hdialing => by
    rw [hphase] at hdialing
    cases hdialing
  established := .inl hestablished

theorem Valid.step {a : OpenAction} (h : s.Valid) (hstep : s.Step a s') : s'.Valid := by
  cases hstep with
  | dial failure hphase =>
      refine ⟨h.settled, fun _ => h.dialing (by rw [hphase]; rfl), ?_⟩
      cases failure with
      | none => exact .inl rfl
      | some reason => exact .inr (.inr ⟨_, rfl⟩)
  | setDeadline failure hphase => exact h.dialed (by rw [hphase]; rfl) (by simp [hphase])
  | tlsConfig failure hphase => exact h.dialed (by rw [hphase]; rfl) (by simp [hphase])
  | tlsGiven failure hphase => exact h.dialed (by rw [hphase]; rfl) (by simp [hphase])
  | noTLS failure hphase => exact h.dialed (by rw [hphase]; rfl) (by simp [hphase])
  | tlsHandshake failure hphase =>
      have hdialed : Valid { s with phase := afterFailure failure .opening } :=
        h.dialed (by rw [hphase]; rfl) (by simp [hphase])
      refine ⟨h.settled, fun hdialing => ⟨(hdialed.dialing hdialing).1, ?_⟩, hdialed.established⟩
      cases failure with
      | none => rfl
      | some reason => cases hdialing
  | create hphase =>
      exact valid_of_link rfl RpcLink.settled_start
        (h.established_of (by simp [hphase]) (by simp [hphase])) rfl
  | @send l phase failure hlink hafter =>
      obtain ⟨hdialing, hreturned⟩ := afterSend_phase hafter
      refine valid_of_link rfl ((h.settled l hlink).send failure)
        (h.established_of hdialing hreturned) ?_
      cases he : (l.send failure).2 with
      | none =>
          rw [he] at hafter
          exact (afterSend_ok hafter).1
      | some e =>
          rw [he] at hafter
          obtain ⟨e', rfl⟩ := afterSend_error hafter
          rfl
  | select hlink hexpected hselect =>
      obtain ⟨hdialing, hreturned⟩ := expected_phase hexpected
      exact valid_of_link rfl ((h.settled _ hlink).select hselect)
        (h.established_of hdialing hreturned) (isDialing_afterCall hexpected _)
  | pick hlink hphase =>
      refine valid_of_link hlink (h.settled _ hlink)
        (h.established_of (by simp [hphase]) (by simp [hphase])) ?_
      dsimp only
      split <;> rfl
  | link hlink hphase hforeign hnext =>
      refine ⟨fun l hl => ?_, fun hdialing => ?_, h.established⟩
      · cases hl
        exact (h.settled _ hlink).next hnext
      · rw [(h.dialing hdialing).1] at hlink
        cases hlink

/-! ## What each exit leaves behind -/

theorem sound_of_phase (h : ∀ e, s.phase ≠ .returned (some e)) : s.Sound :=
  fun e he => absurd he (h e)

/-- An exit once the connection exists. -/
theorem sound_iff_started {l : RpcLink} {e : GoError} (hphase : s.phase = .returned (some e))
    (hestablished : s.established = true) (hlink : s.link = some l) (hsettled : l.Settled) :
    s.Sound ↔ l.started = true := by
  have hreleased : s.Released ↔ l.started = true := by
    rw [Released, hlink]
    exact RpcLink.ending_iff hsettled
  rw [← hreleased]
  exact ⟨fun h => h e hphase hestablished, fun h _ _ _ => h⟩

/-- An exit of `DialConfig` that does not close the transport. -/
theorem Valid.sound_afterFailure_iff (h : s.Valid) (hdialing : isDialing s.phase = true)
    (hne : s.phase ≠ .dialing) {failure : Option String}
    (hphase : ∀ e, phase ≠ .returned (some e)) :
    Sound { s with phase := afterFailure failure phase } ↔ failure = none := by
  obtain ⟨hlink, hclosed⟩ := h.dialing hdialing
  cases failure with
  | none => exact iff_of_true (sound_of_phase hphase) rfl
  | some reason =>
      refine iff_of_false (fun hsound => ?_) (by simp)
      have hestablished : s.established = true := h.established_of hne fun r hr => by
        rw [hr] at hdialing
        cases hdialing
      have hreleased := hsound _ rfl hestablished
      rw [Released] at hreleased
      simp only [hlink, hclosed] at hreleased
      cases hreleased

theorem started_reader {l : RpcLink} {k : ℕ} (hk : l.reader = .handing k) :
    RpcLink.started { l with reader := .reading } = l.started := by
  rw [RpcLink.started, RpcLink.started, hk]
  rfl

/-- A method is what was expected, or its refusal is released by a shutdown that has
started. -/
theorem sound_reply_iff {l : RpcLink} {m : Method} {k : ℕ} (hsettled : l.Settled)
    (hestablished : s.established = true) (hexpected : expected s.phase = some m)
    (hk : l.reader = .handing k) :
    Sound { s with
      phase := afterCall s.phase (RpcLink.result { l with reader := .reading } [m] (.reply k))
      link := some { l with reader := .reading } } ↔
    ∀ msg, l.received[k]? = some msg → msg.method = m ∨ l.started = true := by
  have hlength := hsettled.coherent.handing k hk
  have hmessage : l.received[k]? = some l.received[k] := List.getElem?_eq_getElem (by omega)
  have hresult : RpcLink.result { l with reader := .reading } [m] (.reply k) =
      if l.received[k].method = m then .ok k else .commandInvalid (some k) := by
    rw [RpcLink.result]
    change (if (l.received[k]?).any _ then _ else _) = _
    rw [hmessage]
    simp
  have hforall : (∀ msg, l.received[k]? = some msg → msg.method = m ∨ l.started = true) ↔
      l.received[k].method = m ∨ l.started = true := by
    rw [hmessage]
    simp
  rw [hforall, hresult]
  by_cases hmethod : l.received[k].method = m
  · rw [if_pos hmethod]
    exact iff_of_true (sound_of_phase (afterCall_ok hexpected k).2) (.inl hmethod)
  · rw [if_neg hmethod]
    have hne : (CallResult.commandInvalid (some k)).error ≠ none := by simp [CallResult.error]
    obtain ⟨e, he⟩ := afterCall_error hexpected hne
    refine Iff.trans (sound_iff_started he hestablished rfl (hsettled.select (.reply hk))) ?_
    rw [started_reader hk, or_iff_right hmethod]

/-- What comes out of a `select` other than a method comes with a shutdown. -/
theorem sound_of_select {l l' : RpcLink} {m : Method} {c : RpcLink.Case} {r : RpcLink.Received}
    (hsettled : l.Settled) (hestablished : s.established = true)
    (hexpected : expected s.phase = some m) (hselect : l.Select c l' r)
    (hr : ∀ k, r ≠ .reply k) :
    Sound { s with phase := afterCall s.phase (l'.result [m] r), link := some l' } := by
  have hne : (l'.result [m] r).error ≠ none := by
    cases r with
    | reply k => exact absurd rfl (hr k)
    | _ => simp [RpcLink.result, CallResult.error]
  obtain ⟨e, he⟩ := afterCall_error hexpected hne
  refine Iff.mpr (sound_iff_started he hestablished rfl (hsettled.select hselect)) ?_
  exact hsettled.started_of_select hselect hr

/-- A send that fails comes with a shutdown, too. -/
theorem Valid.sound_send (h : s.Valid) {l : RpcLink} {failure : Option String}
    (hlink : s.link = some l) (hafter : afterSend s.phase (l.send failure).2 = some phase) :
    Sound { s with phase := phase, link := some (l.send failure).1 } := by
  obtain ⟨hdialing, hreturned⟩ := afterSend_phase hafter
  cases he : (l.send failure).2 with
  | none =>
      rw [he] at hafter
      exact sound_of_phase (afterSend_ok hafter).2
  | some e =>
      have hstarted := (h.settled l hlink).started_of_send he
      rw [he] at hafter
      obtain ⟨e', rfl⟩ := afterSend_error hafter
      exact Iff.mpr (sound_iff_started rfl (h.established_of hdialing hreturned) rfl
        ((h.settled l hlink).send failure)) hstarted

theorem accepted_reply_iff {l : RpcLink} {m : Method} {k : ℕ} (hlink : s.link = some l)
    (hexpected : expected s.phase = some m) (hk : l.reader = .handing k) :
    Accepted s (.select .rpc) ↔
      ∀ msg, l.received[k]? = some msg → msg.method = m ∨ l.started = true := by
  constructor
  · exact fun haccepted msg hmsg => haccepted l m k msg hlink hexpected hk hmsg
  · intro hmethod l' m' k' msg hl hm hk' hmsg
    rw [hlink] at hl
    cases hl
    rw [hexpected] at hm
    cases hm
    rw [hk] at hk'
    cases hk'
    exact hmethod msg hmsg

theorem accepted_pick_iff {l : RpcLink} {k : ℕ} (hlink : s.link = some l)
    (hphase : s.phase = .picking k) :
    Accepted s .pick ↔ (s.mechanism l k).isSome = true ∨ l.started = true := by
  constructor
  · exact fun haccepted => haccepted l k hlink hphase
  · intro hpicked l' k' hl hk
    rw [hlink] at hl
    cases hl
    rw [hphase] at hk
    cases hk
    exact hpicked

/-- Once the reader has stopped there is no method to be refused. -/
theorem accepted_of_stopped {l : RpcLink} (hlink : s.link = some l)
    (hstopped : l.reader = .stopped) : Accepted s (.select .rpc) := by
  intro l' m k msg hl _ hk
  rw [hlink] at hl
  cases hl
  rw [hstopped] at hk
  cases hk

theorem sound_iff {a : OpenAction} (h : s.Valid) (hstep : s.Step a s') :
    s'.Sound ↔ Accepted s a := by
  cases hstep with
  | dial failure hphase =>
      refine iff_of_true (fun e he hestablished => ?_) trivial
      cases failure with
      | none =>
          dsimp only [afterFailure] at he
          split at he <;> cases he
      | some reason => cases hestablished
  | setDeadline failure hphase =>
      exact h.sound_afterFailure_iff (by rw [hphase]; rfl) (by simp [hphase]) (by simp)
  | tlsConfig failure hphase hamqps hnone =>
      refine Iff.trans (h.sound_afterFailure_iff (by rw [hphase]; rfl) (by simp [hphase])
        (by simp)) ?_
      exact ⟨fun hfailure _ _ => hfailure, fun haccepted => haccepted hamqps hnone⟩
  | tlsGiven failure hphase htls =>
      refine iff_of_true (sound_of_phase (by simp)) fun _ hnone => ?_
      rw [htls] at hnone
      cases hnone
  | noTLS failure hphase hamqp =>
      refine iff_of_true (sound_of_phase (by simp)) fun hamqps => ?_
      rw [hamqp] at hamqps
      cases hamqps
  | tlsHandshake failure hphase =>
      refine iff_of_true (fun e he _ => ?_) trivial
      obtain ⟨hlink, -⟩ := h.dialing (by rw [hphase]; rfl)
      rw [Released, hlink]
      cases failure with
      | none => cases he
      | some reason => rfl
  | create hphase => exact iff_of_true (sound_of_phase (by simp)) trivial
  | send failure hlink hafter => exact iff_of_true (h.sound_send hlink hafter) trivial
  | @select l l' m c r hlink hexpected hselect =>
      obtain ⟨hdialing, hreturned⟩ := expected_phase hexpected
      have hestablished := h.established_of hdialing hreturned
      have hsettled := h.settled l hlink
      have hother := sound_of_select hsettled hestablished hexpected hselect
      cases hselect with
      | error => exact iff_of_true (hother (by simp)) trivial
      | errorsClosed => exact iff_of_true (hother (by simp)) trivial
      | reply hk =>
          rw [accepted_reply_iff hlink hexpected hk]
          exact sound_reply_iff hsettled hestablished hexpected hk
      | rpcClosed hstopped =>
          exact iff_of_true (hother (by simp)) (accepted_of_stopped hlink hstopped)
  | @pick l k hlink hphase =>
      rw [accepted_pick_iff hlink hphase]
      by_cases hpicked : (s.mechanism l k).isSome = true
      · rw [if_pos hpicked]
        exact iff_of_true (sound_of_phase (by simp)) (.inl hpicked)
      · rw [if_neg hpicked, or_iff_right hpicked]
        exact sound_iff_started rfl (h.established_of (by simp [hphase]) (by simp [hphase])) hlink
          (h.settled l hlink)
  | link hlink hphase hforeign hnext =>
      exact iff_of_true (sound_of_phase fun e => hphase (some e)) trivial

/-! ## Runs -/

/-- The caller has its result. -/
theorem next_of_returned {r : Option GoError} (h : s.phase = .returned r) (a : OpenAction) :
    s.next a = none := by
  cases hnext : s.next a with
  | none => rfl
  | some s' =>
      exfalso
      cases step_of_next hnext with
      | send failure hlink hafter => exact (afterSend_phase hafter).2 r h
      | select hlink hexpected => exact (expected_phase hexpected).2 r h
      | link hlink hphase => exact hphase r h
      | _ => simp_all

/-- A state in which a handshake begins. -/
def IsStart (s : Handshake) : Prop :=
  (∃ request hasDial hasTLS, s = dial request hasDial hasTLS) ∨ ∃ config, s = openWith config

theorem IsStart.valid (h : s.IsStart) : s.Valid := by
  rcases h with ⟨request, hasDial, hasTLS, rfl⟩ | ⟨config, rfl⟩
  · exact valid_dial request hasDial hasTLS
  · exact valid_openWith config

theorem IsStart.sound (h : s.IsStart) : s.Sound := by
  refine sound_of_phase fun e he => ?_
  rcases h with ⟨request, hasDial, hasTLS, rfl⟩ | ⟨config, rfl⟩ <;> cases he

/-- A state that is not sound has a result, and no step follows. -/
theorem next_of_not_sound (h : ¬ s.Sound) (a : OpenAction) : s.next a = none := by
  have hreturned : ∃ e, s.phase = .returned (some e) := by
    by_contra hnone
    exact h (sound_of_phase (not_exists.mp hnone))
  obtain ⟨e, he⟩ := hreturned
  exact next_of_returned he a

/-- Every handshake that fails once its transport is established releases it, exactly when
all of its steps are accepted. -/
theorem sound_iff_accepted (init : Handshake) (hinit : init.IsStart) (as : List OpenAction)
    (s : Handshake) (h : Run next (fun _ _ => True) init as s) :
    s.Sound ↔ Run next Accepted init as s := by
  constructor
  · intro hsound
    refine h.guarded hinit.valid (fun s a s' hvalid hnext => hvalid.step (step_of_next hnext))
      (fun s a s' hvalid hnext haccepted hsound' => haccepted
        ((sound_iff hvalid (step_of_next hnext)).mp hsound')) (fun s a s' hnext hbad => ?_)
      (not_not.mpr hsound)
    rw [next_of_not_sound hbad a] at hnext
    cases hnext
  · intro hrun
    have hstate := hrun.invariant (P := fun s => s.Valid ∧ s.Sound) ⟨hinit.valid, hinit.sound⟩
      fun s a s' hs haccepted hnext =>
        ⟨hs.1.step (step_of_next hnext), (sound_iff hs.1 (step_of_next hnext)).mpr haccepted⟩
    exact hstate.2

/-- The configuration that `DialConfig` makes of the default URI. -/
def plainConfig : Config where
  sasl := some [defaultURI.plainAuth]

/-- A `connection.start` with these mechanisms. -/
def startMessage (mechanisms : String) : Message :=
  ⟨.connectionStart, ((0 : UInt8), (9 : UInt8), [], Url.ascii mechanisms, Url.ascii "en_US", ())⟩

/-- The mechanism is accepted, and the server closes the transport instead of sending
`connection.tune`. -/
def refused : List OpenAction :=
  [.create, .send none, .link (.reply (startMessage "AMQPLAIN PLAIN")), .select .rpc, .pick,
    .send none, .link (.readError "EOF"), .link .readerShutdown, .link .sendError,
    .select .errors]

def refusedState : Handshake where
  plan := { config := plainConfig }
  phase := .returned (some errCredentials)
  established := true
  closed := false
  link := some
    { RpcLink.start with
      closed := true
      stage := .sent
      err := some (RpcLink.frameError "EOF")
      reader := .closing true
      received := [startMessage "AMQPLAIN PLAIN"] }

theorem isStart_openWith (config : Config) : IsStart (openWith config) := .inr ⟨config, rfl⟩

theorem run_refused {guard : Handshake → OpenAction → Prop}
    (h : ∀ s a, Accepted s a → guard s a) :
    Run next guard (openWith plainConfig) refused refusedState := by
  refine .cons (h _ _ trivial) rfl (.cons (h _ _ trivial) rfl (.cons (h _ _ trivial) rfl
    (.cons (h _ _ ?_) rfl (.cons (h _ _ ?_) rfl (.cons (h _ _ trivial) rfl
    (.cons (h _ _ trivial) rfl (.cons (h _ _ trivial) rfl (.cons (h _ _ trivial) rfl
    (.cons (h _ _ trivial) rfl (.nil _))))))))))
  · rintro l m k msg hl hm hk hmsg
    cases hl; cases hm; cases hk; cases hmsg
    exact .inl rfl
  · rintro l k hl hk
    cases hl; cases hk
    exact .inl (by decide +kernel)

theorem sound_of_refused :
    Run next Accepted (openWith plainConfig) refused refusedState ∧
      refusedState.phase = .returned (some errCredentials) ∧ refusedState.Sound :=
  have hrun : Run next Accepted (openWith plainConfig) refused refusedState :=
    run_refused fun _ _ h => h
  ⟨hrun, rfl, (sound_iff_accepted _ (isStart_openWith plainConfig) _ _
    (run_refused fun _ _ _ => trivial)).mpr hrun⟩

/-- The server has none of the mechanisms of the client. -/
def disagreeing : List OpenAction :=
  [.create, .send none, .link (.reply (startMessage "EXTERNAL")), .select .rpc, .pick]

theorem errSASL_without_shutdown :
    ∃ s l, Run next (fun _ _ => True) (openWith plainConfig) disagreeing s ∧
      s.phase = .returned (some errSASL) ∧ s.established = true ∧ s.link = some l ∧
      l.closed = false ∧ l.stage = .idle ∧ l.reader = .reading ∧ ¬ s.Sound := by
  have hrun : Run next (fun _ _ => True) (openWith plainConfig) disagreeing
      { openWith plainConfig with
        phase := .returned (some errSASL)
        link := some { RpcLink.start with received := [startMessage "EXTERNAL"] } } :=
    .cons trivial rfl (.cons trivial rfl (.cons trivial rfl (.cons trivial rfl
      (.cons trivial rfl (.nil _)))))
  have hvalid := hrun.invariant (isStart_openWith plainConfig).valid
    fun s a s' hvalid _ hnext => hvalid.step (step_of_next hnext)
  refine ⟨_, _, hrun, rfl, rfl, rfl, rfl, rfl, rfl, fun hsound => ?_⟩
  have hstarted := (sound_iff_started rfl rfl rfl (hvalid.settled _ rfl)).mp hsound
  cases hstarted

end Handshake

end Amqp091

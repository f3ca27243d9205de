import Amqp091.Verification.Calls.Shelter

/-! # A reader that is never released

`openChannel` releases a channel it could not open without shutting it down. When the server
sends two methods where `channel.open-ok` is expected, the first one ends the opening, and the
reader may be offering the second one already: nobody takes it, and nobody closes `close`. -/

namespace Amqp091

open Transition

namespace CallChannel

variable {s s' : CallChannel} {a : Action}

/-- A channel without calls that nobody shuts down stays as it is. -/
theorem next_of_quiet (hcalls : s.AllReturned) (hstage : s.stage = .idle) (ha : a.isOwn = true) :
    s.next a = none := by
  cases hnext : s.next a with
  | none => rfl
  | some s' =>
      have hcall : ∀ {i : ℕ} {phase : ChannelCallPhase}, s.phaseOf i = some phase →
          ∃ r, phase = .returned r := by
        intro i phase hphase
        obtain ⟨c, hc, rfl⟩ := Option.map_eq_some_iff.mp hphase
        exact hcalls i c hc
      cases step_of_next hnext with
      | test hphase => cases (hcall hphase).choose_spec
      | write err hc => cases (hcalls _ _ hc).choose_spec
      | takeError hphase => cases (hcall hphase).choose_spec
      | takeClosed hphase => cases (hcall hphase).choose_spec
      | takeReply hc => cases (hcalls _ _ hc).choose_spec
      | giveUp _ hfinished =>
          rw [hstage] at hfinished
          cases hfinished
      | sendError hentered =>
          rw [hstage] at hentered
          cases hentered
      | closeErrors hentered =>
          rw [hstage] at hentered
          rcases hentered with ⟨h, -⟩ | h <;> cases h
      | finish hclosed =>
          rw [hstage] at hclosed
          cases hclosed
      | _ => cases ha

end CallChannel

namespace CallConnection

variable {channelMax : ℕ} {s s' : CallConnection} {ch : ChannelRef}

/-- The reader offers a method to a channel that could not be opened and was released. -/
structure Stranded (s : CallConnection) (ch : ChannelRef) : Prop where
  reader : s.reader = .offering ch
  opening : s.opening ch = .failed
  stage : (s.channels ch).stage = .idle
  unregistered : ∀ id, s.registry.lookupChannel id ≠ some ch

theorem Stranded.allReturned (h : s.Stranded ch) (hvalid : s.Valid channelMax) :
    (s.channels ch).AllReturned := by
  cases hvalid.sheltered ch with
  | registered hlookup => exact absurd hlookup (h.unregistered _)
  | finished hfinished =>
      rw [h.stage] at hfinished
      cases hfinished
  | unused _ hcalls => exact hcalls

theorem Stranded.not_awaited (h : s.Stranded ch) (hvalid : s.Valid channelMax) :
    ¬ s.Awaited ch := by
  intro hawaited
  obtain ⟨id, hid⟩ := hvalid.awaited ch hawaited
  exact h.unregistered id hid

/-- No step of the channel itself is possible. -/
theorem Stranded.ne_of_lift (h : s.Stranded ch) (hvalid : s.Valid channelMax) {d : ChannelRef}
    {b : CallChannel.Action} (hlift : s.lift d b = some s') (hb : b.isOwn = true) : ch ≠ d := by
  rintro rfl
  obtain ⟨o, ho, -⟩ := lift_eq_some.mp hlift
  rw [CallChannel.next_of_quiet (h.allReturned hvalid) h.stage hb] at ho
  cases ho

/-- A step of another channel. -/
theorem Stranded.lift (h : s.Stranded ch) {d : ChannelRef} {b : CallChannel.Action}
    (hlift : s.lift d b = some s') (hd : ch ≠ d) : s'.Stranded ch := by
  obtain ⟨o, ho, rfl⟩ := lift_eq_some.mp hlift
  exact { h with
    stage := by
      rw [channels_setChannel, if_neg hd]
      exact h.stage }

theorem Stranded.release (h : s.Stranded ch) (hvalid : s.Valid channelMax) {d : ChannelRef}
    (hrelease : s.release d = some s') : s'.Stranded ch := by
  rcases release_cases hvalid.registry hrelease with rfl | ⟨c, rfl, -, -, -, hlookup⟩
  · exact h
  · refine { h with unregistered := fun id hid => ?_ }
    replace hid : c.lookupChannel id = some ch := hid
    rw [hlookup] at hid
    split at hid
    · cases hid
    · exact h.unregistered id hid

theorem Stranded.openChannel (h : s.Stranded ch) (hmax : channelMax ≤ 65535)
    (hvalid : s.Valid channelMax) (hopen : s.openChannel = some s') : s'.Stranded ch := by
  rcases openChannel_cases hmax hvalid.registry hopen with
    ⟨c, rfl, -, hlookup, -⟩ | ⟨c, d, rfl, -, -, -, hlookup, hobject, -⟩
  · refine { h with unregistered := ?_ }
    change ∀ id, c.lookupChannel id ≠ some ch
    rw [hlookup]
    exact h.unregistered
  · have hd : ch ≠ d := by
      rintro rfl
      have hknown := (hvalid.reader ch h.reader).2.1
      omega
    refine ⟨h.reader, ?_, ?_, fun id hid => ?_⟩
    · rw [opening_setOpening, if_neg hd]
      exact h.opening
    · simpa [CallConnection.setOpening, hd] using h.stage
    · replace hid : c.lookupChannel id = some ch := hid
      rw [hlookup] at hid
      split at hid
      · exact hd (Option.some.inj hid).symm
      · exact h.unregistered id hid

theorem Stranded.setOpening (h : s.Stranded ch) {d : ChannelRef} {r : ChannelResult}
    (hresult : s.openResult d = some r) (phase : ChannelOpening) :
    (s.setOpening d phase).Stranded ch := by
  have hd : ch ≠ d := by
    rintro rfl
    rw [openResult, h.opening] at hresult
    cases hresult
  exact { h with
    opening := by
      rw [opening_setOpening, if_neg hd]
      exact h.opening }

theorem Stranded.ne_of_opened (h : s.Stranded ch) {d : ChannelRef}
    (hopened : s.opening d = .opened) : ch ≠ d := by
  rintro rfl
  rw [h.opening] at hopened
  cases hopened

theorem Stranded.step (h : s.Stranded ch) (hmax : channelMax ≤ 65535)
    (hvalid : s.Valid channelMax) (hstep : s.Step s') : s'.Stranded ch := by
  cases hstep with
  | openChannel hopen => exact h.openChannel hmax hvalid hopen
  | opened hresult => exact h.setOpening hresult _
  | openFailed hresult ht =>
      have hopening := (hvalid.allReturned_of_openResult hresult).1
      exact (h.setOpening hresult .failed).release (hvalid.setOpening hopening (.inr rfl))
        (by rw [release_setOpening, ht]; rfl)
  | call hopened hlift => exact h.lift hlift (h.ne_of_opened hopened)
  | own hown _ hlift => exact h.lift hlift (h.ne_of_lift hvalid hlift hown)
  | reply hreader hown ht =>
      -- the reader cannot end its offer
      rw [h.reader] at hreader
      cases hreader
      exact absurd rfl (h.ne_of_lift hvalid ht hown)
  | read => exact h
  | readClose _ hreader | readOffer hreader | readerShutdown hreader | readerRelease hreader =>
      rw [h.reader] at hreader
      cases hreader
  | closeChannel hopened ht => exact { h.lift ht (h.ne_of_opened hopened) with }
  | release _ ht => exact { h.release hvalid ht with }
  | setClosed => exact { h with }
  | shutdown => exact { h with }
  | shutdownChannel hstage ht =>
      have hawaited := h.not_awaited hvalid
      simp only [Awaited, hstage, reduceCtorEq, false_or, List.mem_cons, not_or] at hawaited
      exact { h.lift ht hawaited.1 with }
  | shutdownReturn => exact { h with }
  | finish => exact { h with unregistered := fun id hid => by cases hid }

/-- From a state in which the reader offers a method to a channel that could not be opened and
was released it never comes back, whatever else happens, the shutdown of the connection
included. -/
theorem reader_stranded (channelMax : ℕ) (hmax : 1 ≤ channelMax ∧ channelMax ≤ 65535)
    (actions more : List Action) (s s' : CallConnection) (ch : ChannelRef)
    (h : Run next (fun _ _ => True) (start channelMax) actions s) (hstranded : s.Stranded ch)
    (h' : Run next (fun _ _ => True) s more s') : s'.reader = .offering ch := by
  have hvalid : s.Valid channelMax := h.invariant (valid_start hmax.1)
    fun s a s' hs _ hnext => hs.step hmax.2 (step_of_next hnext)
  have hboth : s'.Valid channelMax ∧ s'.Stranded ch :=
    h'.invariant (P := fun s => s.Valid channelMax ∧ s.Stranded ch) ⟨hvalid, hstranded⟩
      fun s a s' hs _ hnext =>
        have hstep := step_of_next hnext
        ⟨hs.1.step hmax.2 hstep, hs.2.step hmax.2 hs.1 hstep⟩
  exact hboth.2.reader

/-- The server answers `channel.open` with two methods that are not `channel.open-ok`. -/
theorem reader_stranded_unexpected :
    let ch : ChannelRef := ⟨0, 1⟩
    let qosOk : Message := ⟨.basicQosOk, ()⟩
    let e : Error := { code := 320, reason := "CONNECTION_FORCED", server := true }
    ∃ s s', Run next (fun _ _ => True) (start 1) [.openChannel, .test ch 0, .write ch 0 none,
        .read 1 qosOk e, .takeReply ch 0, .read 1 qosOk e, .openFailed ch] s ∧
      Run next (fun _ _ => True) s [.setClosed, .shutdown (some e) [], .finish] s' ∧
      s'.stage = .finished ∧ s'.reader = .offering ch := by
  intro ch qosOk e
  have hrun : ∃ s s', Run next (fun _ _ => True) (start 1) [.openChannel, .test ch 0,
        .write ch 0 none, .read 1 qosOk e, .takeReply ch 0, .read 1 qosOk e,
        .openFailed ch] s ∧ s.reader = .offering ch ∧ s.opening ch = .failed ∧
      (s.channels ch).stage = .idle ∧ s.registry.channels = some ∅ ∧
      Run next (fun _ _ => True) s [.setClosed, .shutdown (some e) [], .finish] s' ∧
      s'.stage = .finished :=
    ⟨_, _, .of_exec rfl, rfl, rfl, rfl, rfl, .of_exec rfl, rfl⟩
  obtain ⟨s, s', hrun, hreader, hopening, hidle, hchannels, hmore, hfinished⟩ := hrun
  have hstranded : s.Stranded ch := by
    refine ⟨hreader, hopening, hidle, fun id hid => ?_⟩
    rw [Registry.lookupChannel, hchannels] at hid
    cases hid
  exact ⟨s, s', hrun, hmore, hfinished,
    reader_stranded 1 (by decide) _ _ s s' ch hrun hstranded hmore⟩

end CallConnection

end Amqp091

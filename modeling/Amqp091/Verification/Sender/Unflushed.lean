import Amqp091.Algorithm.Sender
import Amqp091.Verification.Frame.RoundTrip

/-! # Sending with and without a flush after each frame

Both ways write the same bytes and report every failure of the transport. The flush at
the end of a message does not start the shutdown of the connection. -/

namespace Amqp091

open ByteCodec Buffered

/-! ## Frames -/

theorem flatten_parts {f : Frame} {ps : List Bytes} (h : f.parts = .ok ps) :
    ps.flatten = f.write.out := by
  rw [Frame.parts] at h
  split at h
  · cases h
    simp only [List.flatten_cons, List.flatten_nil, List.append_nil]
    rw [List.dropLast_eq_take, List.take_append_drop, List.take_append_drop]
  · cases h

/-- The payload is built before anything is written. -/
theorem write_out_of_error {f : Frame} {e : GoError} (h : f.write.result = .error e) :
    f.write.out = [] := by
  have hcapture : ∀ {w : Output GoError Unit} {typ : UInt8} {channel : UInt16},
      (w.capture >>= Amqp091.writeFrame typ channel).result = .error e →
      (w.capture >>= Amqp091.writeFrame typ channel).out = [] := by
    intro w typ channel hw
    cases hresult : w.result with
    | ok v => rw [Output.capture, hresult] at hw; cases hw
    | error e' => rw [Output.capture_bind_of_error hresult]
  cases f with
  | method channelId classId methodId method =>
      cases method with
      | none => rfl
      | some m => exact hcapture h
  | header channelId classId weight size p => exact hcapture h
  | body channelId bytes => cases h
  | heartbeat channelId => cases h

/-- The error of a result, if it is one. -/
def errorOf {ε : Type} : Except ε Unit → Option ε
  | .ok _ => none
  | .error e => some e

namespace FrameSender

variable {t : Behaviour GoError} {s : FrameSender} {w : Writer GoError} {f : Frame}

/-! ## The writer -/

/-- A frame is accepted unless the transport fails, and every failure is reported. -/
structure Written (t : Behaviour GoError) (w : Writer GoError) (r : Writer GoError × Option GoError)
    (o : Output GoError Unit) : Prop where
  accepts : Accepts t w r.1 o.out
  reported : r.1.err.isSome → r.2.isSome
  result : r.1.err = none → r.2 = errorOf o.result

theorem writeFrameNoFlush_written (herr : w.err = none) :
    Written t w (writeFrameNoFlush t w f) f.write ∧
      ((writeFrameNoFlush t w f).2.isSome → (writeFrameNoFlush t w f).1.err.isSome ∨
        (writeFrameNoFlush t w f).1 = w) := by
  rw [writeFrameNoFlush]
  cases hparts : f.parts with
  | error e =>
      have hresult : f.write.result = .error e := by
        rw [Frame.parts] at hparts
        split at hparts <;> cases hparts
        assumption
      refine ⟨⟨?_, fun _ => rfl, fun _ => ?_⟩, fun _ => .inr rfl⟩
      · rw [write_out_of_error hresult]
        exact Accepts.refl herr
      · rw [hresult]
        rfl
  | ok ps =>
      have hresult : f.write.result = .ok () := by
        rw [Frame.parts] at hparts
        split at hparts
        · assumption
        · cases hparts
      refine ⟨⟨?_, id, fun hok => ?_⟩, .inl⟩
      · rw [← flatten_parts hparts]
        exact Writer.writeAll_accepts herr ps
      · rw [hresult]
        exact hok

/-- After a frame that is flushed the buffer is empty again. -/
theorem writeFrame_written (herr : w.err = none) :
    Written t w (writeFrame t w f) f.write ∧
      (w.buf = [] → (writeFrame t w f).1.err = none → (writeFrame t w f).1.buf = []) := by
  obtain ⟨hwritten, hkept⟩ := writeFrameNoFlush_written (t := t) (f := f) herr
  rw [writeFrame]
  generalize writeFrameNoFlush t w f = r at hwritten hkept
  obtain ⟨w', err⟩ := r
  cases err with
  | some e =>
      refine ⟨hwritten, fun hbuf hok => ?_⟩
      rcases hkept rfl with hfailed | hsame
      · change w'.err = none at hok
        rw [hok] at hfailed
        cases hfailed
      · change w'.buf = []
        rw [show w' = w from hsame, hbuf]
  | none =>
      have hok : w'.err = none := by
        cases h : w'.err with
        | none => rfl
        | some e =>
            have hreported := hwritten.reported (by rw [h]; rfl)
            cases hreported
      have hflush := hwritten.accepts.trans hok (Writer.flush_accepts hok)
      rw [List.append_nil] at hflush
      refine ⟨⟨hflush, id, fun hflushed => ?_⟩, fun _ => Writer.buf_flush⟩
      exact hflushed.trans (hwritten.result hok)

/-! ## One frame and several -/

/-- What frames do to a connection that is open and has no error; every error starts a
shutdown. -/
structure Sends (t : Behaviour GoError) (s : FrameSender) (r : FrameSender × Option GoError)
    (o : Output GoError Unit) : Prop where
  written : Written t s.writer (r.1.writer, r.2) o
  closed : r.1.closed = s.closed
  shutdowns : r.1.shutdowns = s.shutdowns ++ r.2.toList

/-- Open, with an empty buffer and no error. -/
structure Ready (s : FrameSender) : Prop where
  opened : s.closed = false
  buf : s.writer.buf = []
  err : s.writer.err = none

theorem sendUnflushed_sends (hopen : s.closed = false) (herr : s.writer.err = none) :
    Sends t s (s.sendUnflushed t f) f.write := by
  rw [sendUnflushed, hopen, if_neg (by simp)]
  exact ⟨(writeFrameNoFlush_written herr).1, rfl, rfl⟩

theorem send_sends (hopen : s.closed = false) (herr : s.writer.err = none) :
    Sends t s (s.send t f) f.write := by
  rw [send, hopen, if_neg (by simp)]
  exact ⟨(writeFrame_written herr).1, rfl, rfl⟩

theorem buf_send (hs : s.Ready) (hok : (s.send t f).1.writer.err = none) :
    (s.send t f).1.writer.buf = [] := by
  rw [send, hs.opened, if_neg (by simp)] at hok ⊢
  exact (writeFrame_written hs.err).2 hs.buf hok

theorem Sends.err_eq_none {r : FrameSender × Option GoError} {o : Output GoError Unit}
    (h : Sends t s r o) (hnone : r.2 = none) : r.1.writer.err = none := by
  cases herr : r.1.writer.err with
  | none => rfl
  | some e =>
      have hreported := h.written.reported (by rw [herr]; rfl)
      rw [hnone] at hreported
      cases hreported

/-- The frames behind one that was sent without an error. -/
theorem Sends.cons {r r' : FrameSender × Option GoError} {fs : List Frame} (h : Sends t s r f.write)
    (hnone : r.2 = none) (h' : Sends t r.1 r' (writeFrames fs)) :
    Sends t s r' (writeFrames (f :: fs)) := by
  have hok := h.err_eq_none hnone
  have hresult : f.write = ⟨f.write.out, .ok ()⟩ := by
    have hfine := h.written.result hok
    rw [hnone] at hfine
    cases hwrite : f.write with
    | mk out result =>
        rw [hwrite] at hfine
        cases result with
        | ok v => rfl
        | error e => cases hfine
  have hall : writeFrames (f :: fs) =
      ⟨f.write.out ++ (writeFrames fs).out, (writeFrames fs).result⟩ := by
    rw [writeFrames, hresult, Output.bind_of_ok]
  rw [hall]
  refine ⟨⟨h.written.accepts.trans hok h'.written.accepts, h'.written.reported, h'.written.result⟩,
    h'.closed.trans h.closed, ?_⟩
  rw [h'.shutdowns, h.shutdowns, hnone]
  simp

/-- A frame that ends in an error is the last one. -/
theorem Sends.stop {r : FrameSender × Option GoError} (h : Sends t s r f.write) {e : GoError}
    (he : r.2 = some e) (fs : List Frame) : Sends t s r (writeFrames (f :: fs)) := by
  refine ⟨?_, h.closed, h.shutdowns⟩
  cases herr : r.1.writer.err with
  | some e' =>
      refine ⟨h.written.accepts.of_failed (by rw [herr]; rfl), h.written.reported, fun hok => ?_⟩
      change r.1.writer.err = none at hok
      rw [herr] at hok
      cases hok
  | none =>
      -- the frame could not be encoded, and so the writer of all frames stops there
      have hresult := h.written.result herr
      change r.2 = _ at hresult
      rw [he] at hresult
      have hall : writeFrames (f :: fs) = f.write := by
        rw [writeFrames]
        cases hwrite : f.write with
        | mk out result =>
            rw [hwrite] at hresult
            cases result with
            | ok v => cases hresult
            | error e' => rfl
      rw [hall]
      exact h.written

theorem sendEach_sends {one : FrameSender → Frame → FrameSender × Option GoError}
    (hone : ∀ s f, s.closed = false → s.writer.err = none → Sends t s (one s f) f.write)
    (fs : List Frame) (hopen : s.closed = false) (herr : s.writer.err = none) :
    Sends t s (sendEach one s fs) (writeFrames fs) := by
  induction fs generalizing s with
  | nil =>
      refine ⟨⟨Accepts.refl herr, fun hfailed => ?_, fun _ => rfl⟩, rfl, (List.append_nil _).symm⟩
      change s.writer.err.isSome = true at hfailed
      rw [herr] at hfailed
      cases hfailed
  | cons f fs ih =>
      have hfirst := hone s f hopen herr
      rw [sendEach]
      generalize one s f = r at hfirst
      obtain ⟨s', err⟩ := r
      cases err with
      | some e => exact hfirst.stop rfl fs
      | none =>
          exact hfirst.cons rfl (ih (hfirst.closed.trans hopen) (hfirst.err_eq_none rfl))

theorem sendFlushed_buf (fs : List Frame) (hs : s.Ready)
    (hok : (s.sendFlushed t fs).1.writer.err = none) :
    (s.sendFlushed t fs).1.writer.buf = [] := by
  induction fs generalizing s with
  | nil => exact hs.buf
  | cons f fs ih =>
      have hfirst := send_sends (t := t) (f := f) hs.opened hs.err
      have hbuf := buf_send (t := t) (f := f) hs
      rw [sendFlushed, sendEach] at hok ⊢
      generalize send t s f = r at hfirst hbuf hok
      obtain ⟨s', err⟩ := r
      cases err with
      | some e => exact hbuf hok
      | none =>
          have herr := hfirst.err_eq_none rfl
          exact ih ⟨hfirst.closed.trans hs.opened, hbuf herr, herr⟩ hok

/-! ## The two ways -/

/-- A write to the transport has failed since `s`. -/
def Fails (t : Behaviour GoError) (s : FrameSender) (r : FrameSender × Option GoError) : Prop :=
  ∃ k, s.writer.writes ≤ k ∧ k < r.1.writer.writes ∧ (t k).isSome

/-- `a` is the result of sending each frame with a flush under one behaviour of the
transport, `b` that of sending them without under another one. -/
structure Equivalent (t u : Behaviour GoError) (s : FrameSender)
    (a b : FrameSender × Option GoError) : Prop where
  same : ¬ Fails t s a → ¬ Fails u s b →
    a.1.writer.received = b.1.writer.received ∧ a.2 = b.2
  flushed : Fails t s a → a.2.isSome ∧ a.1.shutdowns ≠ s.shutdowns
  unflushed : Fails u s b → b.2.isSome ∧ b.1.shutdowns ≠ s.shutdowns

/-- The flush at the end has nothing to write, or is not the first to fail. -/
def FlushSucceeds (u : Behaviour GoError) (mid : FrameSender × Option GoError) : Prop :=
  mid.2.isSome ∨ mid.1.writer.buf = [] ∨ u mid.1.writer.writes = none

theorem append_toList_ne {err : Option GoError} (h : err.isSome) (l : List GoError) :
    l ++ err.toList ≠ l := by
  obtain ⟨e, rfl⟩ := Option.isSome_iff_exists.mp h
  simp

theorem Sends.of_fails {r : FrameSender × Option GoError} {o : Output GoError Unit}
    (h : Sends t s r o) (hfails : Fails t s r) : r.2.isSome ∧ r.1.shutdowns ≠ s.shutdowns := by
  have hsome := h.written.reported (h.written.accepts.failed.mpr hfails)
  exact ⟨hsome, h.shutdowns ▸ append_toList_ne hsome s.shutdowns⟩

theorem Sends.of_not_fails {r : FrameSender × Option GoError} {o : Output GoError Unit}
    (h : Sends t s r o) (hfails : ¬ Fails t s r) : r.1.writer.err = none := by
  cases herr : r.1.writer.err with
  | none => rfl
  | some e => exact absurd (h.written.accepts.failed.mp (by rw [herr]; rfl)) hfails

/-- The deferred flush, behind the frames. -/
theorem sendMessage_eq (u : Behaviour GoError) (s : FrameSender) (fs : List Frame) :
    s.sendMessage u fs =
      ({ (sendEach (sendUnflushed u) s fs).1 with
          writer := (sendEach (sendUnflushed u) s fs).1.writer.flush u },
        (sendEach (sendUnflushed u) s fs).2.or
          ((sendEach (sendUnflushed u) s fs).1.writer.flush u).err) := rfl

/-- What has reached the transport when nothing failed and the buffer is empty. -/
theorem Sends.received_eq {r : FrameSender × Option GoError} {o : Output GoError Unit}
    (h : Sends t s r o) (hs : s.Ready) (hok : r.1.writer.err = none)
    (hbuf : r.1.writer.buf = []) : r.1.writer.received = s.writer.received ++ o.out := by
  have hstream := h.written.accepts.stream hok
  change r.1.writer.received ++ r.1.writer.buf = _ at hstream
  rwa [hbuf, hs.buf, List.append_nil, List.append_nil] at hstream

/-! ## What the deferred flush adds -/

section Flush

variable {u : Behaviour GoError} {r : FrameSender × Option GoError} {o : Output GoError Unit}
  {m : FrameSender} {err : Option GoError}

/-- A frame has failed already: its error is reported and the flush does nothing. -/
theorem Sends.equivalent_of_failed (hflushed : Sends t s r o) (hmid : Sends u s (m, err) o)
    (hm : m.writer.err.isSome) :
    err.isSome ∧ Equivalent t u s r
      ({ m with writer := m.writer.flush u }, err.or (m.writer.flush u).err) := by
  obtain ⟨e, he⟩ := Option.isSome_iff_exists.mp hm
  have hsome : err.isSome := hmid.written.reported hm
  have hsame : ({ m with writer := m.writer.flush u }, err.or (m.writer.flush u).err) =
      (m, err) := by
    rw [Writer.flush_of_err he, Option.or_of_isSome hsome]
  rw [hsame]
  refine ⟨hsome, fun _ hok => ?_, hflushed.of_fails, hmid.of_fails⟩
  have hnone := hmid.of_not_fails hok
  change m.writer.err = none at hnone
  rw [he] at hnone
  cases hnone

theorem Sends.flush_accepts (hmid : Sends u s (m, err) o) (hm : m.writer.err = none) :
    Accepts u s.writer (m.writer.flush u) o.out := by
  have htrans := hmid.written.accepts.trans hm (Writer.flush_accepts hm)
  rwa [List.append_nil] at htrans

/-- The flush has passed everything on. -/
theorem Sends.equivalent_of_flushed (hs : s.Ready) (hflushed : Sends t s r o)
    (hbuf : r.1.writer.err = none → r.1.writer.buf = []) (hmid : Sends u s (m, err) o)
    (hm : m.writer.err = none) (hflush : (m.writer.flush u).err = none) :
    Equivalent t u s r
      ({ m with writer := m.writer.flush u }, err.or (m.writer.flush u).err) := by
  have hall := hmid.flush_accepts hm
  refine ⟨fun hok _ => ?_, hflushed.of_fails, fun hfails => ?_⟩
  · have hnone := hflushed.of_not_fails hok
    have hreceived := hflushed.received_eq hs hnone (hbuf hnone)
    have hstream := hall.stream hflush
    rw [Writer.buf_flush hflush, hs.buf, List.append_nil, List.append_nil] at hstream
    have hresult : err = errorOf o.result := hmid.written.result hm
    refine ⟨hreceived.trans hstream.symm, ?_⟩
    rw [hflush, Option.or_none, hresult]
    exact hflushed.written.result hnone
  · have hfailed := hall.failed.mpr hfails
    rw [hflush] at hfailed
    cases hfailed

/-- The flush fails, and nobody is told unless a frame has failed before. -/
theorem Sends.equivalent_iff_of_flush_failed (hflushed : Sends t s r o)
    (hmid : Sends u s (m, err) o) (hm : m.writer.err = none)
    (hflush : (m.writer.flush u).err.isSome) :
    Equivalent t u s r
      ({ m with writer := m.writer.flush u }, err.or (m.writer.flush u).err) ↔ err.isSome := by
  have hfails : Fails u s
      ({ m with writer := m.writer.flush u }, err.or (m.writer.flush u).err) :=
    (hmid.flush_accepts hm).failed.mp hflush
  have hshutdowns : m.shutdowns = s.shutdowns ++ err.toList := hmid.shutdowns
  constructor
  · intro hequivalent
    have hshut := (hequivalent.unflushed hfails).2
    change m.shutdowns ≠ s.shutdowns at hshut
    cases err with
    | none => simp [hshutdowns] at hshut
    | some e => rfl
  · intro hsome
    refine ⟨fun _ hok => absurd hfails hok, hflushed.of_fails, fun _ => ⟨?_, ?_⟩⟩
    · rw [Option.or_of_isSome hsome]
      exact hsome
    · change m.shutdowns ≠ s.shutdowns
      rw [hshutdowns]
      exact append_toList_ne hsome _

end Flush

/-- The two ways are equivalent exactly when the flush at the end is not the first write to
the transport that fails. -/
theorem unflushed_equivalent_iff (t u : Behaviour GoError) (s : FrameSender) (fs : List Frame)
    (hs : s.Ready) :
    Equivalent t u s (s.sendFlushed t fs) (s.sendMessage u fs) ↔
      FlushSucceeds u (sendEach (sendUnflushed u) s fs) := by
  have hflushed : Sends t s (s.sendFlushed t fs) (writeFrames fs) :=
    sendEach_sends (fun _ _ => send_sends) fs hs.opened hs.err
  have hmid : Sends u s (sendEach (sendUnflushed u) s fs) (writeFrames fs) :=
    sendEach_sends (fun _ _ => sendUnflushed_sends) fs hs.opened hs.err
  rw [sendMessage_eq]
  generalize sendEach (sendUnflushed u) s fs = mid at hmid
  obtain ⟨m, err⟩ := mid
  cases hm : m.writer.err with
  | some e =>
      obtain ⟨hsome, hequivalent⟩ := hflushed.equivalent_of_failed hmid (by rw [hm]; rfl)
      exact iff_of_true hequivalent (.inl hsome)
  | none =>
      have hflush := Writer.flush_err_iff (t := u) hm
      cases hf : (m.writer.flush u).err with
      | none =>
          rw [← hf]
          exact iff_of_true (hflushed.equivalent_of_flushed hs (sendFlushed_buf fs hs) hmid hm hf)
            (.inr (hflush.mp hf))
      | some e =>
          have hnot : ¬ (m.writer.buf = [] ∨ u m.writer.writes = none) := by
            rw [← hflush, hf]
            simp
          rw [FlushSucceeds, or_iff_left hnot, ← hf]
          exact hflushed.equivalent_iff_of_flush_failed hmid hm (by rw [hf]; rfl)

/-- A connection on which nothing was sent yet. -/
def start : FrameSender := ⟨false, ⟨[], 0, [], none⟩, []⟩

theorem start_ready : start.Ready := ⟨rfl, rfl, rfl⟩

/-- A transport that takes everything. -/
theorem unflushed_equivalent_of_success :
    Equivalent (fun _ => none) (fun _ => none) start
      (start.sendFlushed (fun _ => none) [.body 1 [104], .body 1 [105]])
      (start.sendMessage (fun _ => none) [.body 1 [104], .body 1 [105]]) :=
  (unflushed_equivalent_iff _ _ start _ start_ready).mpr (.inr (.inr rfl))

/-- A transport that fails at once: both ways return the error, and only `send` starts the
shutdown of the connection. -/
theorem unflushed_failure_without_shutdown :
    (start.sendFlushed (fun _ => some (.text "broken pipe", 0)) [.body 1 [104]]).2 =
        some (.text "broken pipe") ∧
      (start.sendFlushed (fun _ => some (.text "broken pipe", 0)) [.body 1 [104]]).1.shutdowns =
        [.text "broken pipe"] ∧
      (start.sendMessage (fun _ => some (.text "broken pipe", 0)) [.body 1 [104]]).2 =
        some (.text "broken pipe") ∧
      (start.sendMessage (fun _ => some (.text "broken pipe", 0)) [.body 1 [104]]).1.shutdowns =
        [] :=
  ⟨rfl, rfl, rfl, rfl⟩

end FrameSender

end Amqp091

import Amqp091.Algorithm.Channel
import Amqp091.Shared.Transition
import Amqp091.Verification.Field.Validate

/-! # The steps of a send -/

namespace Amqp091

open ByteCodec Transition

variable {rt : GoRuntime}

/-! ## Writing -/

/-- Nothing a publish writes can fail to be encoded. -/
theorem Publishing.completes_frame (p : Publishing rt) (id : UInt16) (cursor : Cursor) :
    Completes (p.content.frame id cursor).write := by
  cases cursor with
  | method =>
      refine completes_methodFrame _ _ _ ?_
      refine (Completes.emit _).bind ((completes_writeShortstr _).bind ?_)
      exact (completes_writeShortstr _).bind ((Completes.emit _).bind .pure)
  | header => exact completes_headerFrame _ _ _ _ p.valid
  | body j chunk => exact completes_writeFrame _ _ _

namespace Link

variable (l : Link) (f : Frame) (t : Transport)

theorem writeFrameNoFlush_spec :
    (∃ e, f.write.result = .error e ∧ l.writeFrameNoFlush f t = (l, some (.go e))) ∨
    l.writeFrameNoFlush f t = ({ l with broken := true }, some .transport) ∨
    (l.broken = false ∧
      l.writeFrameNoFlush f t = ({ l with written := l.written ++ [f] }, none)) := by
  unfold writeFrameNoFlush
  cases f.write.result with
  | error e => exact .inl ⟨e, rfl, rfl⟩
  | ok v =>
      cases hbroken : l.broken
      · cases t.writes
        · exact .inr (.inl rfl)
        · exact .inr (.inr ⟨rfl, rfl⟩)
      · exact .inr (.inl rfl)

theorem flush_spec :
    l.flush t = ({ l with broken := true }, some .transport) ∨
    (l.broken = false ∧ l.flush t = (l, none)) := by
  unfold flush
  cases hbroken : l.broken
  · cases t.flushes
    · exact .inl rfl
    · exact .inr ⟨rfl, rfl⟩
  · exact .inl rfl

end Link

/-! ## Steps -/

def Outgoing.frame (id : UInt16) : Outgoing rt → Cursor → Frame
  | .plain m _, _ => .method id 0 0 (some m)
  | .content c, cursor => c.frame id cursor

/-- What a step of `Channel.send` does, with the conditions under which it does it. -/
inductive SendStep (frameSize : ℤ) (id : UInt16) (l : Link) (msg : Outgoing rt) :
    Point → Link → Point → Prop
  | send (hopen : l.closed = false) : SendStep frameSize id l msg .send l .sendOpen
  | sendOpen (hopen : l.closed = false) :
      SendStep frameSize id l msg .sendOpen l (.test .method)
  | closed {p : Point} (hp : p = .send ∨ p = .sendOpen) (hclosed : l.closed = true) :
      SendStep frameSize id l msg p l msg.sendClosed
  | test {cursor : Cursor} (hopen : l.connectionClosed = false) :
      SendStep frameSize id l msg (.test cursor) l (.write cursor)
  | refused {cursor : Cursor} (hclosed : l.connectionClosed = true) :
      SendStep frameSize id l msg (.test cursor) l (msg.fail (.go errClosed))
  | unencodable {cursor : Cursor} {e : GoError}
      (he : (msg.frame id cursor).write.result = .error e) :
      SendStep frameSize id l msg (.write cursor) l (msg.fail (.go e))
  | broken {cursor : Cursor} :
      SendStep frameSize id l msg (.write cursor) { l with broken := true }
        (msg.fail .transport)
  | wrote {cursor : Cursor} {c : Content rt} (hmsg : msg = .content c)
      (hbroken : l.broken = false) :
      SendStep frameSize id l msg (.write cursor)
        { l with written := l.written ++ [c.frame id cursor] } (c.afterWrite frameSize cursor)
  | sent {cursor : Cursor} {m : Message} {plain : m.hasContent = false}
      (hmsg : msg = .plain m plain) (hbroken : l.broken = false) :
      SendStep frameSize id l msg (.write cursor)
        { l with written := l.written ++ [.method id 0 0 (some m)] } (.done (.returned none))
  | unflushed {cursor : Cursor} {m : Message} {plain : m.hasContent = false}
      (hmsg : msg = .plain m plain) (hbroken : l.broken = false) :
      SendStep frameSize id l msg (.write cursor)
        { l with written := l.written ++ [.method id 0 0 (some m)], broken := true }
        (.done (.returned (some .transport)))
  | flush {outcome : Outcome} {err : Option SendError} {broken : Bool}
      (hbroken : l.broken = true → broken = true) :
      SendStep frameSize id l msg (.flush outcome) { l with broken := broken }
        (.done (outcome.orEndError err))

theorem sendStep_write_plain {frameSize : ℤ} {id : UInt16} {l : Link} {m : Message}
    {plain : m.hasContent = false} {t : Transport} (cursor : Cursor) {l' : Link}
    {err : Option SendError} (h : l.writeFrame (.method id 0 0 (some m)) t = (l', err)) :
    SendStep frameSize id l (.plain m plain : Outgoing rt) (.write cursor) l'
      (.done (.returned err)) := by
  unfold Link.writeFrame at h
  rcases l.writeFrameNoFlush_spec (.method id 0 0 (some m)) t with
    ⟨e, he, heq⟩ | heq | ⟨hbroken, heq⟩
  · rw [heq] at h
    cases h
    exact .unencodable he
  · rw [heq] at h
    cases h
    exact .broken
  · rw [heq] at h
    simp only at h
    rcases Link.flush_spec { l with written := l.written ++ [.method id 0 0 (some m)] } t with
      hflush | ⟨-, hflush⟩
    · rw [hflush] at h
      cases h
      exact .unflushed rfl hbroken
    · rw [hflush] at h
      cases h
      exact .sent rfl hbroken

theorem sendStep_of_step {frameSize : ℤ} {id : UInt16} {l l' : Link} {msg : Outgoing rt}
    {t : Transport} {p p' : Point} (h : l.step frameSize id msg t p = some (l', p')) :
    SendStep frameSize id l msg p l' p' := by
  cases p with
  | send =>
      cases hclosed : l.closed <;> simp only [Link.step, hclosed] at h <;> cases h
      · exact .send hclosed
      · exact .closed (.inl rfl) hclosed
  | sendOpen =>
      cases hclosed : l.closed <;> simp only [Link.step, hclosed] at h <;> cases h
      · exact .sendOpen hclosed
      · exact .closed (.inr rfl) hclosed
  | test cursor =>
      cases hclosed : l.connectionClosed <;> simp only [Link.step, hclosed] at h <;> cases h
      · exact .test hclosed
      · exact .refused hclosed
  | write cursor =>
      cases msg with
      | plain m plain =>
          cases h
          exact sendStep_write_plain cursor rfl
      | content c =>
          rcases l.writeFrameNoFlush_spec (c.frame id cursor) t with
            ⟨e, he, heq⟩ | heq | ⟨hbroken, heq⟩ <;> simp only [Link.step, heq] at h <;> cases h
          · exact .unencodable he
          · exact .broken
          · exact .wrote rfl hbroken
  | flush outcome =>
      rcases l.flush_spec t with heq | ⟨hbroken, heq⟩ <;> simp only [Link.step, heq] at h <;>
        cases h
      · exact .flush fun _ => rfl
      · exact .flush fun hbroken => hbroken
  | done outcome => cases h

/-! ## What a step leaves alone -/

theorem Outgoing.sendClosed_ne_write (msg : Outgoing rt) (cursor : Cursor) :
    msg.sendClosed ≠ .write cursor := by
  cases msg with
  | plain m plain =>
      rw [sendClosed]
      split <;> exact Point.noConfusion
  | content c => exact Point.noConfusion

theorem Outgoing.fail_ne_write (msg : Outgoing rt) (e : SendError) (cursor : Cursor) :
    msg.fail e ≠ .write cursor := by
  cases msg <;> exact Point.noConfusion

namespace SendStep

variable {frameSize : ℤ} {id : UInt16} {l l' : Link} {msg : Outgoing rt} {p p' : Point}

theorem flags (h : SendStep frameSize id l msg p l' p') :
    l'.closed = l.closed ∧ l'.connectionClosed = l.connectionClosed := by
  cases h <;> exact ⟨rfl, rfl⟩

/-- A writer that has failed takes nothing more. -/
theorem of_broken (h : SendStep frameSize id l msg p l' p') (hbroken : l.broken = true) :
    l'.broken = true ∧ l'.written = l.written := by
  cases h with
  | wrote _ hopen | sent _ hopen | unflushed _ hopen =>
      rw [hbroken] at hopen
      cases hopen
  | flush hflush => exact ⟨hflush hbroken, rfl⟩
  | broken => exact ⟨rfl, rfl⟩
  | _ => exact ⟨hbroken, rfl⟩

theorem written_of_ne_write (h : SendStep frameSize id l msg p l' p')
    (hp : ∀ cursor, p ≠ .write cursor) : l'.written = l.written := by
  cases h with
  | wrote | sent | unflushed => exact absurd rfl (hp _)
  | _ => rfl

theorem written_extends (h : SendStep frameSize id l msg p l' p') : l.written <+: l'.written := by
  cases h with
  | wrote | sent | unflushed => exact List.prefix_append _ _
  | _ => exact List.prefix_refl _

theorem written_cases (h : SendStep frameSize id l msg p l' p') :
    l'.written = l.written ∨
      ∃ cursor, p = .write cursor ∧ l'.written = l.written ++ [msg.frame id cursor] := by
  cases h with
  | wrote hmsg | sent hmsg | unflushed hmsg =>
      subst hmsg
      exact .inr ⟨_, rfl, rfl⟩
  | _ => exact .inl rfl

/-- A message without content is done with its one frame. -/
theorem done_of_plain {m : Message} {plain : m.hasContent = false} {cursor : Cursor}
    (h : SendStep frameSize id l (.plain m plain : Outgoing rt) (.write cursor) l' p') :
    ∃ outcome, p' = .done outcome := by
  cases h with
  | closed hp => rcases hp with hp | hp <;> cases hp
  | wrote hmsg => cases hmsg
  | unencodable | broken | sent | unflushed => exact ⟨_, rfl⟩

theorem not_done {outcome : Outcome} : ¬ SendStep frameSize id l msg (.done outcome) l' p' := by
  intro h
  cases h with
  | closed hp => rcases hp with hp | hp <;> cases hp

/-- On a closed connection a send does not get to writing. -/
theorem ne_write (h : SendStep frameSize id l msg p l' p') (hclosed : l.connectionClosed = true)
    (hp : ∀ cursor, p ≠ .write cursor) (cursor : Cursor) : p' ≠ .write cursor := by
  cases h with
  | test hopen =>
      rw [hclosed] at hopen
      cases hopen
  | closed => exact msg.sendClosed_ne_write cursor
  | refused => exact msg.fail_ne_write _ cursor
  | unencodable | broken | wrote | sent | unflushed => exact absurd rfl (hp _)
  | _ => exact Point.noConfusion

/-- A message without content adds at most its one frame. -/
theorem written_plain {m : Message} {plain : m.hasContent = false}
    (h : SendStep frameSize id l (.plain m plain : Outgoing rt) p l' p') :
    l'.written = l.written ∨ l'.written = l.written ++ [.method id 0 0 (some m)] := by
  cases h with
  | wrote hmsg => cases hmsg
  | sent hmsg | unflushed hmsg =>
      cases hmsg
      exact .inr rfl
  | _ => exact .inl rfl

end SendStep

/-! ## A send that nothing interferes with -/

section Undisturbed

variable {frameSize : ℤ} {id : UInt16} {c : Content rt} {l : Link}

/-- The steps of one send, with a transport that takes everything. -/
def SendRun (frameSize : ℤ) (id : UInt16) (c : Content rt) (x : Link × Point)
    (ts : List Transport) (x' : Link × Point) : Prop :=
  Run (fun x t => Link.step frameSize id x.1 (.content c) t x.2)
    (fun _ t => t = ⟨true, true⟩) x ts x'

theorem Link.writeFrameNoFlush_of_completes {f : Frame} (hf : Completes f.write)
    (hbroken : l.broken = false) : l.writeFrameNoFlush f ⟨true, true⟩ =
      ({ l with written := l.written ++ [f] }, none) := by
  simp [Link.writeFrameNoFlush, hf.result_eq, hbroken]

/-- Testing the connection's flag and writing one frame. -/
theorem SendRun.frame {cursor : Cursor} (hc : Completes (c.frame id cursor).write)
    (hopen : l.connectionClosed = false) (hbroken : l.broken = false) {ts : List Transport}
    {x : Link × Point}
    (h : SendRun frameSize id c
      ({ l with written := l.written ++ [c.frame id cursor] }, c.afterWrite frameSize cursor)
      ts x) :
    ∃ ts, SendRun frameSize id c (l, .test cursor) ts x := by
  refine ⟨_, .cons (a := ⟨true, true⟩) (m := (l, .write cursor)) rfl ?_
    (.cons (a := ⟨true, true⟩) rfl ?_ h)⟩
  · simp [Link.step, hopen]
  · simp [Link.step, Link.writeFrameNoFlush_of_completes hc hbroken]

theorem sendRun_bodyLoop (hc : ∀ cursor, Completes (c.frame id cursor).write) {rounds : ℕ}
    {i j : ℤ} {chunks : List Bytes}
    (h : chunkLoop c.body (chunkSize frameSize c.body) rounds i j = .done chunks)
    (hopen : l.connectionClosed = false) (hbroken : l.broken = false) :
    ∃ ts, SendRun frameSize id c (l, c.bodyLoop i j) ts
      ({ l with written := l.written ++ chunks.map (Frame.body id) }, .done (.returned none)) := by
  induction rounds generalizing i j chunks l with
  | zero => cases h
  | succ rounds ih =>
      rw [chunkLoop] at h
      rw [Content.bodyLoop]
      split at h
      · rename_i hi
        rw [if_pos hi]
        simp only at h ⊢
        generalize (if j > c.body.length then (c.body.length : ℤ) else j) = j' at h ⊢
        cases hslice : sliceBody c.body i j' with
        | none => simp [hslice] at h
        | some chunk =>
            simp only [hslice] at h ⊢
            cases hrest : chunkLoop c.body (chunkSize frameSize c.body) rounds j'
              (j' + chunkSize frameSize c.body) with
            | done rest =>
                rw [hrest] at h
                cases h
                obtain ⟨ts, hrun⟩ := ih
                  (l := { l with written := l.written ++ [.body id chunk] }) hrest hopen hbroken
                rw [List.map_cons, ← List.singleton_append, ← List.append_assoc]
                exact SendRun.frame (hc _) hopen hbroken hrun
            | panic | timeout =>
                rw [hrest] at h
                cases h
      · rename_i hi
        cases h
        rw [if_neg hi, List.map_nil, List.append_nil]
        have hflush : l.flush ⟨true, true⟩ = (l, none) := by simp [Link.flush, hbroken]
        refine ⟨_, .cons (a := ⟨true, true⟩) rfl ?_ (.nil _)⟩
        rw [Link.step, hflush]
        rfl

/-- Without interference a publish writes the frames of `sendOpen` and succeeds. -/
theorem sendRun_sendOpen {p : Publishing rt} {frames : List Frame}
    (h : sendOpen frameSize id p.content = .done frames) (hchannel : l.closed = false)
    (hopen : l.connectionClosed = false) (hbroken : l.broken = false) :
    ∃ ts, SendRun frameSize id p.content (l, .send) ts
      ({ l with written := l.written ++ frames }, .done (.returned none)) := by
  rw [sendOpen] at h
  cases hloop : chunkLoop p.content.body (chunkSize frameSize p.content.body)
    (p.content.body.length + 1) 0 (chunkSize frameSize p.content.body) with
  | done chunks =>
      rw [hloop] at h
      cases h
      obtain ⟨ts, hbody⟩ := sendRun_bodyLoop (l := { l with
        written := l.written ++ [p.content.frame id .method] ++ [p.content.frame id .header] })
        (p.completes_frame id) hloop hopen hbroken
      obtain ⟨ts, hheader⟩ := SendRun.frame (l := { l with
        written := l.written ++ [p.content.frame id .method] })
        (p.completes_frame id .header) hopen hbroken hbody
      obtain ⟨ts, hmethod⟩ :=
        SendRun.frame (p.completes_frame id .method) hopen hbroken hheader
      rw [List.append_assoc, List.append_assoc] at hmethod
      refine ⟨_, .cons (a := ⟨true, true⟩) (m := (l, Point.sendOpen)) rfl ?_
        (.cons (a := ⟨true, true⟩) (m := (l, Point.test .method)) rfl ?_ hmethod)⟩
      · simp [Link.step, hchannel]
      · simp [Link.step, hchannel]
  | panic | timeout =>
      rw [hloop] at h
      cases h

end Undisturbed

end Amqp091

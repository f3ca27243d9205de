import Amqp091.Verification.Channel.Wire

/-! # Which interleavings keep messages together -/

namespace Amqp091

open ByteCodec Transition

variable {rt : GoRuntime} {frameSize : ℤ} {id : UInt16}

/-- A send that has written a frame of its message and still has others to write. -/
def Point.midway : Point → Bool
  | .test .method | .write .method => false
  | .test _ | .write _ => true
  | _ => false

theorem Unfinished.eq_nil {msg : Outgoing rt} {p : Point} {w : List Frame}
    (h : Unfinished id msg p w) (hp : p.midway = false) : w = [] := by
  cases p with
  | test cursor | write cursor =>
      cases h with
      | method => rfl
      | header | body => cases hp
  | _ => exact h

/-- The body of a publish fits into the frames it is cut into. -/
def Call.Fits (frameSize : ℤ) : Call rt → Prop
  | .publish p => p.content.Fits frameSize
  | _ => True

/-- What `Publish` writes can be encoded. -/
theorem Call.Fits.content {call : Call rt} (hfits : call.Fits frameSize) (c : Content rt)
    (h : call.message = .content c) :
    c.Fits frameSize ∧ ∀ cursor, Completes (c.frame id cursor).write := by
  cases call with
  | publish p =>
      cases h
      exact ⟨hfits, p.completes_frame id⟩
  | _ => cases h

namespace ChannelState

/-- The frames the holder of `ch.m` has written of a message it has not finished. -/
def HolderUnfinished (id : UInt16) : Option (Holder rt) → List Frame → Prop
  | none, w => w = []
  | some h, w => Unfinished id h.call.message h.point w

/-- Complete messages followed by what the holder of `ch.m` has written, or a message was
cut short and no further frame will be written. -/
inductive Shape (frameSize : ℤ) (id : UInt16) (s : ChannelState rt) : Prop
  | whole (messages : List (List Frame)) {w : List Frame}
      (hall : ∀ m ∈ messages, Complete id m)
      (hwritten : s.link.written = messages.flatten ++ w)
      (hw : HolderUnfinished id s.holder w)
      (hfits : ∀ h ∈ s.holder, h.call.Fits frameSize)
  | cut (hwell : WellFormed id s.link.written)
      (hcut : s.link.broken = true ∨
        s.link.connectionClosed = true ∧ ∀ h ∈ s.holder, ∀ cursor, h.point ≠ .write cursor)

/-- Bodies fit into their frames, and a sender that does not hold `ch.m` writes its frame
only while the connection is open and no publish is between its first and its last. -/
def Undisturbed (frameSize : ℤ) (s : ChannelState rt) : ChannelAction rt → Prop
  | .lock call => call.Fits frameSize
  | .stepSender k _ => ∀ x ∈ s.senders[k]?, ∀ cursor, x.point = .write cursor →
      s.link.connectionClosed = false ∧ ∀ h ∈ s.holder, h.point.midway = false
  | _ => True

variable {s s' : ChannelState rt} {a : ChannelAction rt}

theorem HolderUnfinished.wellFormed {messages : List (List Frame)} {w : List Frame}
    (hall : ∀ m ∈ messages, Complete id m) {h : Option (Holder rt)}
    (hw : HolderUnfinished id h w) : WellFormed id (messages.flatten ++ w) := by
  cases h with
  | none =>
      cases hw
      exact ⟨messages, hall, by simp⟩
  | some h =>
      obtain ⟨call, dc, point⟩ := h
      cases point with
      | test cursor | write cursor => exact wellFormed_of_progress hall hw
      | _ =>
          cases hw
          exact ⟨messages, hall, by simp⟩

theorem Shape.wellFormed (h : Shape frameSize id s) : WellFormed id s.link.written := by
  cases h with
  | whole messages hall hwritten hw _ =>
      rw [hwritten]
      exact hw.wellFormed hall
  | cut hwell _ => exact hwell

/-- A change of holder between two points at which nothing is pending. -/
theorem Shape.of_holder (h : Shape frameSize id s) (hwritten : s'.link.written = s.link.written)
    (hbroken : s'.link.broken = s.link.broken)
    (hclosed : s.link.connectionClosed = true → s'.link.connectionClosed = true)
    (hw : ∀ w, HolderUnfinished id s.holder w → HolderUnfinished id s'.holder w)
    (hfits : (∀ h ∈ s.holder, h.call.Fits frameSize) → ∀ h ∈ s'.holder, h.call.Fits frameSize)
    (hpoint : (∀ h ∈ s.holder, ∀ cursor, h.point ≠ .write cursor) →
      ∀ h ∈ s'.holder, ∀ cursor, h.point ≠ .write cursor) : Shape frameSize id s' := by
  cases h with
  | whole messages hall hs hunfinished hcalls =>
      exact .whole messages hall (hwritten.trans hs) (hw _ hunfinished) (hfits hcalls)
  | cut hwell hcut =>
      refine .cut (hwritten ▸ hwell) ?_
      rcases hcut with hb | ⟨hc, hp⟩
      · exact .inl (hbroken.trans hb)
      · exact .inr ⟨hclosed hc, hpoint hp⟩

/-- A step of the call that holds `ch.m`. -/
theorem Shape.step_holder (hs : Shape frameSize id s) {h : Holder rt} {link : Link}
    {point : Point} (hholder : s.holder = some h)
    (hstep : SendStep frameSize id s.link h.call.message h.point link point) :
    Shape frameSize id { s with link := link, holder := some { h with point := point } } := by
  cases hs with
  | whole messages hall hwritten hw hfits =>
      have hwell := hw.wellFormed hall
      rw [hholder] at hw
      rcases hstep.unfinished (hfits h hholder).content hwritten hw with
        ⟨messages', w', hall', hwritten', hw'⟩ | ⟨hwritten', hcut⟩
      · refine .whole (messages ++ messages') ?_ ?_ hw' ?_
        · intro m hm
          exact (List.mem_append.mp hm).elim (hall m) (hall' m)
        · rw [hwritten', List.flatten_append, List.append_assoc]
        · intro h' hh'
          cases hh'
          exact hfits h hholder
      · refine .cut ?_ ?_
        · rw [hwritten', hwritten]
          exact hwell
        · refine hcut.imp_right fun hcut => ⟨hcut.1, fun h' hh' => ?_⟩
          cases hh'
          exact hcut.2
  | cut hwell hcut =>
      rcases hcut with hbroken | ⟨hclosed, hp⟩
      · obtain ⟨hbroken', hwritten⟩ := hstep.of_broken hbroken
        exact .cut (hwritten ▸ hwell) (.inl hbroken')
      · have hp := hp h hholder
        refine .cut (hstep.written_of_ne_write hp ▸ hwell) (.inr ⟨?_, fun h' hh' => ?_⟩)
        · rw [hstep.flags.2, hclosed]
        · cases hh'
          exact hstep.ne_write hclosed hp

/-- A step of a sender that does not hold `ch.m`. -/
theorem Shape.step_sender (hs : Shape frameSize id s) {k : ℕ} {x : Sender} {link : Link}
    {point : Point}
    (hguard : ∀ cursor, x.point = .write cursor →
      s.link.connectionClosed = false ∧ ∀ h ∈ s.holder, h.point.midway = false)
    (hstep : SendStep frameSize id s.link (x.outgoing : Outgoing rt) x.point link point) :
    Shape frameSize id
      { s with link := link, senders := s.senders.set k { x with point := point } } := by
  by_cases hwrite : ∃ cursor, x.point = .write cursor
  · obtain ⟨cursor, hx⟩ := hwrite
    obtain ⟨hopen, hmidway⟩ := hguard cursor hx
    cases hs with
    | @whole messages w hall hwritten hw hfits =>
        -- the frame falls between two messages
        have hnil : w = [] := by
          cases hholder : s.holder with
          | none =>
              rw [hholder] at hw
              exact hw
          | some h =>
              rw [hholder] at hw
              exact Unfinished.eq_nil hw (hmidway h hholder)
        subst hnil
        rcases hstep.written_plain with hsame | hadd
        · exact .whole messages hall (hsame.trans hwritten) hw hfits
        · refine .whole (messages ++ [[.method id 0 0 (some x.message)]]) ?_ ?_ hw hfits
          · intro m hm
            rcases List.mem_append.mp hm with hm | hm
            · exact hall m hm
            · rw [List.mem_singleton.mp hm]
              exact .plain (Method.hasContent_of_sentUnlocked x.unlocked)
          · rw [hadd, hwritten]
            simp
    | cut hwell hcut =>
        rcases hcut with hbroken | ⟨hclosed, -⟩
        · obtain ⟨hbroken', hwritten⟩ := hstep.of_broken hbroken
          exact .cut (hwritten ▸ hwell) (.inl hbroken')
        · rw [hopen] at hclosed
          cases hclosed
  · have hp : ∀ cursor, x.point ≠ .write cursor := fun cursor hx => hwrite ⟨cursor, hx⟩
    have hwritten := hstep.written_of_ne_write hp
    cases hs with
    | whole messages hall hs hw hfits =>
        exact .whole messages hall (hwritten.trans hs) hw hfits
    | cut hwell hcut =>
        refine .cut (hwritten ▸ hwell) ?_
        rcases hcut with hbroken | ⟨hclosed, hp⟩
        · exact .inl (hstep.of_broken hbroken).1
        · exact .inr ⟨hstep.flags.2.trans hclosed, hp⟩

theorem Shape.step (hs : Shape frameSize id s) (hguard : s.Undisturbed frameSize a)
    (hstep : Step frameSize id s a s') : Shape frameSize id s' := by
  have hentered : ∀ (call : Call rt) (dc : Option ℕ) (w : List Frame), s.holder = none →
      HolderUnfinished id s.holder w →
      HolderUnfinished id (some ⟨call, dc, .send⟩ : Option (Holder rt)) w := by
    intro call dc w hfree hw
    rw [hfree] at hw
    exact hw
  have hleft : ∀ (call : Call rt) (dc : Option ℕ) (outcome : Outcome) (w : List Frame),
      s.holder = some ⟨call, dc, .done outcome⟩ → HolderUnfinished id s.holder w →
      HolderUnfinished id (none : Option (Holder rt)) w := by
    intro call dc outcome w hholder hw
    rw [hholder] at hw
    exact hw
  cases hstep with
  | publish hfree | lock hfree =>
      refine hs.of_holder rfl rfl (fun h => h) (fun w => hentered _ _ w hfree) ?_ ?_
      · intro _ h hh
        cases hh
        exact hguard
      · intro _ h hh cursor
        cases hh
        exact Point.noConfusion
  | step hholder hstep => exact hs.step_holder hholder (sendStep_of_step hstep)
  | succeed hholder | unpublish hholder | fail hholder | panic hholder =>
      refine hs.of_holder rfl rfl (fun h => h) (fun w => hleft _ _ _ w hholder) ?_ ?_
      · simp
      · simp
  | stepSender hsender hstep =>
      exact hs.step_sender (hguard _ hsender) (sendStep_of_step hstep)
  | setConnectionClosed =>
      exact hs.of_holder rfl rfl (fun _ => rfl) (fun _ hw => hw) (fun hf => hf) fun hp => hp
  | call | setClosed | confirm | serverConfirm | resequence | shutdown =>
      exact hs.of_holder rfl rfl (fun h => h) (fun _ hw => hw) (fun hf => hf) fun hp => hp

/-- If senders that do not hold `ch.m` keep away from publishes in progress, the frames of
the channel are complete messages one after the other, the last one possibly unfinished. -/
theorem written_wellFormed {as : List (ChannelAction rt)}
    (h : Run (next frameSize id) (Undisturbed frameSize) newChannel as s) :
    WellFormed id s.link.written := by
  have hshape : Shape frameSize id s := by
    refine h.invariant (.whole [] (w := []) (by simp) rfl rfl ?_) ?_
    · simp [newChannel, start]
    · intro s a s' hs hguard hnext
      exact hs.step hguard (step_of_next hnext)
  exact hshape.wellFormed

def flowOk : Message := ⟨.channelFlowOk, (#v[true], ())⟩

/-- The whole of a publish, and after it the reply to `channel.flow`. -/
theorem written_wellFormed_flowOk_after_publish :
    let ok : Transport := ⟨true, true⟩
    ∃ s : ChannelState .exact, Run (next 0 1) (Undisturbed 0) newChannel
        ([.lock (.publish emptyPublishing), .step ok, .step ok, .step ok, .step ok, .step ok,
          .step ok, .step ok, .unlock, .call flowOk rfl] ++
          [.stepSender 0 ok, .stepSender 0 ok, .stepSender 0 ok, .stepSender 0 ok]) s ∧
      s.link.written =
        [.method 1 0 0 (some emptyPublishing.content.method), .header 1 60 0 0 {},
          .method 1 0 0 (some flowOk)] ∧
      WellFormed 1 s.link.written := by
  intro ok
  have hfree : ∀ (s : ChannelState .exact) (k : ℕ) (t : Transport),
      s.link.connectionClosed = false → s.holder = none → s.Undisturbed 0 (.stepSender k t) := by
    intro s k t hopen hholder x hx cursor hcursor
    refine ⟨hopen, fun h hh => ?_⟩
    rw [hholder] at hh
    cases hh
  have hrun : Run (next 0 1) (Undisturbed 0) newChannel
      ([.lock (.publish emptyPublishing), .step ok, .step ok, .step ok, .step ok, .step ok,
        .step ok, .step ok, .unlock, .call flowOk rfl] ++
        [.stepSender 0 ok, .stepSender 0 ok, .stepSender 0 ok, .stepSender 0 ok]) _ :=
    .cons (.inl rfl) rfl (.cons trivial rfl (.cons trivial rfl (.cons trivial rfl
      (.cons trivial rfl (.cons trivial rfl (.cons trivial rfl (.cons trivial rfl
      (.cons trivial rfl (.cons trivial rfl (.cons (hfree _ _ _ rfl rfl) rfl
      (.cons (hfree _ _ _ rfl rfl) rfl (.cons (hfree _ _ _ rfl rfl) rfl
      (.cons (hfree _ _ _ rfl rfl) rfl (.nil _))))))))))))))
  exact ⟨_, hrun, rfl, written_wellFormed hrun⟩

/-- The reader answers `channel.flow` after a publish has written its method frame. -/
theorem flowOk_inside_publish :
    let ok : Transport := ⟨true, true⟩
    ∃ s : ChannelState .exact, Run (next 0 1) (fun _ _ => True) newChannel
        [.lock (.publish emptyPublishing), .step ok, .step ok, .step ok, .step ok,
          .call flowOk rfl, .stepSender 0 ok, .stepSender 0 ok, .stepSender 0 ok,
          .stepSender 0 ok] s ∧
      s.link.written =
        [.method 1 0 0 (some emptyPublishing.content.method), .method 1 0 0 (some flowOk)] ∧
      ¬ WellFormed 1 s.link.written := by
  intro ok
  refine ⟨_, .cons trivial rfl (.cons trivial rfl (.cons trivial rfl (.cons trivial rfl
    (.cons trivial rfl (.cons trivial rfl (.cons trivial rfl (.cons trivial rfl
    (.cons trivial rfl (.cons trivial rfl (.nil _)))))))))), rfl, fun hwell => ?_⟩
  obtain ⟨size, properties, heq⟩ := WellFormed.header_of_content hwell rfl
  cases heq

end ChannelState

end Amqp091

import Amqp091.Algorithm.Channel
import Amqp091.Verification.Content.Reassembly
import Amqp091.Verification.Frame.Methods

/-! # Messages over a connection

From the messages sent on the channels of a connection to the bytes on the wire, and from
those bytes to what the other end dispatches on each channel. -/

namespace Amqp091

open ByteCodec Reader

variable {rt : GoRuntime}

/-- The frames of a message when no write fails. -/
def Outgoing.frames (frameSize : ℤ) (id : UInt16) : Outgoing rt → Loop (List Frame)
  | .content c => sendOpen frameSize id c
  | .plain m _ => .done [.method id 0 0 (some m)]

/-- Messages sent one after the other on one channel. -/
def sendEach (frameSize : ℤ) (id : UInt16) : List (Outgoing rt) → Loop (List Frame)
  | [] => .done []
  | msg :: msgs =>
      match msg.frames frameSize id with
      | .done frames => (sendEach frameSize id msgs).map (frames ++ ·)
      | .panic => .panic
      | .timeout => .timeout

theorem sendEach_cons_done {frameSize : ℤ} {id : UInt16} {msg : Outgoing rt}
    {msgs : List (Outgoing rt)} {frames : List Frame}
    (h : sendEach frameSize id (msg :: msgs) = .done frames) :
    ∃ first rest, msg.frames frameSize id = .done first ∧
      sendEach frameSize id msgs = .done rest ∧ frames = first ++ rest := by
  rw [sendEach] at h
  cases hfirst : msg.frames frameSize id with
  | done first =>
      cases hrest : sendEach frameSize id msgs with
      | done rest =>
          rw [hfirst, hrest] at h
          cases h
          exact ⟨first, rest, rfl, rfl, rfl⟩
      | _ =>
          rw [hfirst, hrest] at h
          cases h
  | _ =>
      rw [hfirst] at h
      cases h

/-! ## What can be sent -/

/-- A message with content whose frames the codec has faithful forms for. Without a frame size
the body is sent as one frame. -/
structure Content.Sendable (frameSize : ℤ) (c : Content rt) : Prop where
  method : c.method.Encodable
  properties : c.properties.Encodable
  body : frameSize = 0 → c.body.length < 2 ^ 32

def Outgoing.Sendable (frameSize : ℤ) : Outgoing rt → Prop
  | .content c => c.Sendable frameSize
  | .plain m _ => m.Encodable

/-- A frame size that leaves room for a body and fits the size field of a frame. -/
def ValidFrameSize (frameSize : ℤ) : Prop :=
  (frameSize = 0 ∨ 8 < frameSize) ∧ frameSize < 2 ^ 32

theorem sendOpen_sendable {frameSize : ℤ} (hframe : ValidFrameSize frameSize) {id : UInt16}
    {c : Content rt} (h : c.Sendable frameSize) {frames : List Frame}
    (hsend : sendOpen frameSize id c = .done frames) : ∀ f ∈ frames, f.Sendable := by
  obtain ⟨chunks, hspec, hchunks, hflat⟩ := sendOpen_spec hframe.1 id c
  rw [hsend] at hspec
  cases hspec
  simp only [List.forall_mem_cons, List.forall_mem_map]
  refine ⟨h.method, h.properties, fun chunk hchunk => ?_⟩
  change chunk.length < 2 ^ 32
  obtain ⟨hzero | hpos, hlt⟩ := hframe
  · have hle := (List.sublist_flatten_of_mem hchunk).length_le
    rw [hflat] at hle
    exact Nat.lt_of_le_of_lt hle (h.body hzero)
  · have hfits := (hchunks chunk hchunk).2 (by omega)
    simp only [frameHeaderSize] at hfits
    omega

theorem sendEach_sendable {frameSize : ℤ} (hframe : ValidFrameSize frameSize) {id : UInt16}
    {msgs : List (Outgoing rt)} (h : ∀ msg ∈ msgs, msg.Sendable frameSize)
    {frames : List Frame} (hsend : sendEach frameSize id msgs = .done frames) :
    ∀ f ∈ frames, f.Sendable := by
  induction msgs generalizing frames with
  | nil =>
      cases hsend
      simp
  | cons msg msgs ih =>
      obtain ⟨first, rest, hfirst, hrest, rfl⟩ := sendEach_cons_done hsend
      obtain ⟨hmsg, hmsgs⟩ := List.forall_mem_cons.mp h
      refine List.forall_mem_append.mpr ⟨?_, ih hmsgs hrest⟩
      cases msg with
      | content c => exact sendOpen_sendable hframe hmsg hfirst
      | plain m plain =>
          cases hfirst
          exact List.forall_mem_singleton.mpr hmsg

/-! ## What arrives -/

/-- The message as the other end gets it. -/
def Content.received (c : Content rt) : Content rt where
  method := c.method.asRead
  properties := c.properties.asRead
  body := c.body
  hasContent := c.hasContent
  body_le := c.body_le

def Outgoing.received : Outgoing rt → Dispatched
  | .content c => c.received.dispatched
  | .plain m _ => .method (some m.asRead)

@[simp] theorem Frame.channel_received (f : Frame) : f.received.channel = f.channel := by
  cases f with
  | method _ _ _ m => cases m <;> rfl
  | _ => rfl

/-- A receiver takes no notice of the ids in a method frame. -/
def Frame.unnumbered : Frame → Frame
  | .method channelId _ _ m => .method channelId 0 0 m
  | f => f

theorem recv_unnumbered (state : RecvState) (f : Frame) :
    recv rt state f.unnumbered = recv rt state f := by
  cases f with
  | method _ _ _ m => cases state <;> cases m <;> rfl
  | _ => rfl

theorem recvRun_unnumbered (state : RecvState) (frames : List Frame) :
    recvRun rt state (frames.map Frame.unnumbered) = recvRun rt state frames := by
  induction frames generalizing state with
  | nil => rfl
  | cons f frames ih => simp only [List.map_cons, recvRun, recv_unnumbered, ih]

/-- Frames arrive as those of the message that arrives, but for the ids. -/
theorem sendOpen_received (frameSize : ℤ) (id : UInt16) (c : Content rt) :
    sendOpen frameSize id c.received =
      (sendOpen frameSize id c).map (List.map fun f => f.received.unnumbered) := by
  simp only [sendOpen, Content.received]
  cases chunkLoop c.body (chunkSize frameSize c.body) (c.body.length + 1) 0
      (chunkSize frameSize c.body) with
  | done chunks =>
      simp only [Loop.map, List.map_cons, List.map_map]
      rfl
  | panic => rfl
  | timeout => rfl

theorem recvRun_content {frameSize : ℤ} (hframe : frameSize = 0 ∨ 8 < frameSize) {id : UInt16}
    {c : Content rt} {frames : List Frame} (h : sendOpen frameSize id c = .done frames) :
    recvRun rt .recvMethod (frames.map Frame.received) =
      some (.recvMethod, [c.received.dispatched]) := by
  obtain ⟨arrived, harrived, hrun⟩ := recvRun_sendOpen hframe id c.received
  rw [sendOpen_received, h] at harrived
  cases harrived
  rw [← recvRun_unnumbered, List.map_map]
  exact hrun

theorem recvRun_plain (id : UInt16) {m : Message} (hplain : m.hasContent = false) :
    recvRun rt .recvMethod ([Frame.method id 0 0 (some m)].map Frame.received) =
      some (.recvMethod, [.method (some m.asRead)]) := by
  have hasRead : m.asRead.hasContent = false := hplain
  simp [Frame.received, recvRun, recv, recvMethod, hasRead]

theorem recvRun_sendEach {frameSize : ℤ} (hframe : frameSize = 0 ∨ 8 < frameSize)
    {id : UInt16} {msgs : List (Outgoing rt)} {frames : List Frame}
    (h : sendEach frameSize id msgs = .done frames) :
    recvRun rt .recvMethod (frames.map Frame.received) =
      some (.recvMethod, msgs.map Outgoing.received) := by
  induction msgs generalizing frames with
  | nil =>
      cases h
      rfl
  | cons msg msgs ih =>
      obtain ⟨first, rest, hfirst, hrest, rfl⟩ := sendEach_cons_done h
      rw [List.map_append, List.map_cons, ← List.singleton_append]
      refine recvRun_append ?_ (ih hrest)
      cases msg with
      | content c => exact recvRun_content hframe hfirst
      | plain m plain =>
          cases hfirst
          exact recvRun_plain id plain

/-! ## The connection -/

/-- What one end of a connection makes of the frames the other end wrote. -/
def Carried (rt : GoRuntime) (frames : List Frame) (r : Receivers) : Prop :=
  ∃ enc received, Writes (writeFrames frames) enc ∧
    readFrames enc = .ok (received, .eof) [] ∧ Receivers.start.feed rt received = some r

/-- Any interleaving of what is sent on the channels arrives on each of them as the messages
sent there, in their order. -/
theorem carried_messages {frameSize : ℤ} (hframe : ValidFrameSize frameSize)
    {messages : UInt16 → List (Outgoing rt)}
    (hsendable : ∀ id, ∀ msg ∈ messages id, msg.Sendable frameSize) {frames : List Frame}
    (hsent : ∀ id, sendEach frameSize id (messages id) =
      .done (frames.filter fun f => f.channel = id)) :
    ∃ r, Carried rt frames r ∧
      ∀ id, r.dispatched id = (messages id).map Outgoing.received := by
  have hframes : ∀ f ∈ frames, f.Sendable := fun f hf =>
    sendEach_sendable hframe (hsendable f.channel) (hsent f.channel) f
      (List.mem_filter.mpr ⟨hf, by simp⟩)
  obtain ⟨enc, hwrites, hreads⟩ := readFrames_received hframes
  have hown : ∀ id, recvRun rt (Receivers.start.state id)
      ((frames.map Frame.received).filter fun f => f.channel = id) =
      some (.recvMethod, (messages id).map Outgoing.received) := by
    intro id
    have hrun := recvRun_sendEach hframe.1 (hsent id)
    rw [List.filter_map]
    change recvRun rt .recvMethod _ = _
    simpa [Function.comp_def] using hrun
  obtain ⟨r, hfeed, -, hdispatched⟩ := feed_of_recvRun hown
  exact ⟨r, ⟨enc, _, hwrites, hreads, hfeed⟩, fun id => hdispatched id⟩

end Amqp091

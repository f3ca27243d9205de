import Amqp091.Verification.Content.Chunking
import Amqp091.Verification.Content.Equations

/-! # Publishing and reassembly are inverse -/

namespace Amqp091

open ByteCodec

variable {rt : GoRuntime}

/-! ## One channel -/

/-- The frames of one channel passed to its receiver, with what it dispatches. -/
def recvRun (rt : GoRuntime) : RecvState → List Frame → Option (RecvState × List Dispatched)
  | state, [] => some (state, [])
  | state, f :: fs => do
      let (state, out) ← recv rt state f
      let (state, outs) ← recvRun rt state fs
      return (state, out.toList ++ outs)

theorem recvRun_cons {state state' state'' : RecvState} {f : Frame} {fs : List Frame}
    {out : Option Dispatched} {outs : List Dispatched}
    (hf : recv rt state f = some (state', out))
    (hfs : recvRun rt state' fs = some (state'', outs)) :
    recvRun rt state (f :: fs) = some (state'', out.toList ++ outs) := by
  simp [recvRun, hf, hfs]

theorem recvRun_cons_eq_some {state state'' : RecvState} {f : Frame} {fs : List Frame}
    {outs : List Dispatched} (h : recvRun rt state (f :: fs) = some (state'', outs)) :
    ∃ state' out rest, recv rt state f = some (state', out) ∧
      recvRun rt state' fs = some (state'', rest) ∧ outs = out.toList ++ rest := by
  simp only [recvRun, Option.bind_eq_bind, Option.bind_eq_some_iff, Prod.exists] at h
  obtain ⟨state', out, hf, last, rest, hrest, heq⟩ := h
  cases heq
  exact ⟨state', out, rest, hf, hrest, rfl⟩

theorem recvRun_append {state state' state'' : RecvState} {fs gs : List Frame}
    {outs outs' : List Dispatched} (hfs : recvRun rt state fs = some (state', outs))
    (hgs : recvRun rt state' gs = some (state'', outs')) :
    recvRun rt state (fs ++ gs) = some (state'', outs ++ outs') := by
  induction fs generalizing state outs with
  | nil =>
      cases hfs
      exact hgs
  | cons f fs ih =>
      obtain ⟨mid, out, rest, hf, hrest, rfl⟩ := recvRun_cons_eq_some hfs
      rw [List.cons_append, List.append_assoc]
      exact recvRun_cons hf (ih hrest)

theorem recvRun_append_eq_some {state state'' : RecvState} {fs gs : List Frame}
    {outs : List Dispatched} (h : recvRun rt state (fs ++ gs) = some (state'', outs)) :
    ∃ state' front rest, recvRun rt state fs = some (state', front) ∧
      recvRun rt state' gs = some (state'', rest) ∧ outs = front ++ rest := by
  induction fs generalizing state outs with
  | nil => exact ⟨state, [], outs, rfl, h, rfl⟩
  | cons f fs ih =>
      obtain ⟨mid, out, rest, hf, hrest, rfl⟩ := recvRun_cons_eq_some h
      obtain ⟨last, front, rest, hfs, hgs, rfl⟩ := ih hrest
      exact ⟨last, out.toList ++ front, rest, recvRun_cons hf hfs, hgs,
        (List.append_assoc _ _ _).symm⟩

/-- A chunk that fits into the announced size goes into the buffer made for that size. It
completes the message when the size is reached. -/
theorem recv_chunk (id : UInt16) (message : Message) (properties : Properties) {size : UInt64}
    {body chunk : Bytes} {cap : ℕ} (hpos : 0 < chunk.length)
    (hfits : (body ++ chunk).length ≤ size.toNat) (hmax : size.toNat ≤ rt.maxAlloc)
    (hcap : cap = 0 ∧ body = [] ∨ cap = size.toNat) :
    recv rt (.recvContent message size properties body cap) (.body id chunk) =
      if size.toNat ≤ (body ++ chunk).length then
        some (.recvMethod, some (.content message properties (body ++ chunk)))
      else some (.recvContent message size properties (body ++ chunk) size.toNat, none) := by
  have hlen : body.length + chunk.length ≤ size.toNat := by
    rwa [List.length_append] at hfits
  have hreserve : reserveBody rt size body cap = some (body, size.toNat) := by
    rcases hcap with ⟨rfl, rfl⟩ | rfl
    · simp [reserveBody, hmax]
    · rw [reserveBody, if_neg (by omega)]
  have hcapacity : appendCap rt size.toNat (body ++ chunk).length = some size.toNat := by
    rw [appendCap, if_pos hfits]
  have hlt : (body ++ chunk).length < 2 ^ 64 := by
    have hmaxAlloc := rt.maxAlloc_lt
    omega
  have hto : (UInt64.ofNat (body ++ chunk).length).toNat = (body ++ chunk).length :=
    UInt64.toNat_ofNat_of_lt' hlt
  rw [recv_body id hreserve hcapacity]
  simp only [UInt64.le_iff_toNat_le, hto]

/-- Collecting the chunks that are left: the message is dispatched with the last one. -/
theorem recvRun_chunks (id : UInt16) (message : Message) (properties : Properties)
    {size : UInt64} {body : Bytes} {cap : ℕ} {chunks : List Bytes}
    (hne : ∀ chunk ∈ chunks, chunk ≠ []) (hchunks : chunks ≠ [])
    (hsize : size.toNat = (body ++ chunks.flatten).length) (hmax : size.toNat ≤ rt.maxAlloc)
    (hcap : cap = 0 ∧ body = [] ∨ cap = size.toNat) :
    recvRun rt (.recvContent message size properties body cap) (chunks.map (Frame.body id)) =
      some (.recvMethod, [.content message properties (body ++ chunks.flatten)]) := by
  induction chunks generalizing body cap with
  | nil => exact absurd rfl hchunks
  | cons chunk chunks ih =>
      have hpos : 0 < chunk.length :=
        List.length_pos_iff.mpr (hne chunk List.mem_cons_self)
      have hlen : size.toNat = (body ++ chunk).length + chunks.flatten.length := by
        simpa [Nat.add_assoc] using hsize
      have hstep := recv_chunk id message properties hpos (by omega) hmax hcap
      by_cases hlast : chunks = []
      · subst hlast
        rw [if_pos (by simp [hlen])] at hstep
        have hend : recvRun rt .recvMethod [] = some (.recvMethod, []) := rfl
        simpa using recvRun_cons hstep hend
      · have hmore : 0 < chunks.flatten.length := by
          obtain ⟨next, rest, rfl⟩ := List.exists_cons_of_ne_nil hlast
          have hnext := List.length_pos_iff.mpr
            (hne next (List.mem_cons_of_mem _ List.mem_cons_self))
          rw [List.flatten_cons, List.length_append]
          omega
        rw [if_neg (by omega)] at hstep
        have hrest : recvRun rt (.recvContent message size properties (body ++ chunk) size.toNat)
            (chunks.map (Frame.body id)) = some (.recvMethod,
              [.content message properties (body ++ chunk ++ chunks.flatten)]) :=
          ih (fun c hc => hne c (List.mem_cons_of_mem _ hc)) hlast
            (by rw [hlen, ← List.length_append]) (.inr rfl)
        have hrun := recvRun_cons hstep hrest
        simpa [List.append_assoc] using hrun

/-- The frames of one message are reassembled to that message. -/
theorem recvRun_sendOpen {frameSize : ℤ} (hframe : frameSize = 0 ∨ 8 < frameSize)
    (id : UInt16) (c : Content rt) :
    ∃ frames, sendOpen frameSize id c = .done frames ∧
      recvRun rt .recvMethod frames = some (.recvMethod, [c.dispatched]) := by
  obtain ⟨chunks, hsend, hchunks, hflat⟩ := sendOpen_spec hframe id c
  refine ⟨_, hsend, ?_⟩
  have hmethod : recv rt .recvMethod (.method id 0 0 (some c.method)) =
      some (.recvHeader c.method, none) := by
    simp [recv, recvMethod, c.hasContent]
  have hto := c.toNat_length
  by_cases hempty : c.body = []
  · have hnil : chunks = [] := by
      cases chunks with
      | nil => rfl
      | cons chunk chunks =>
          rw [hempty, List.flatten_cons] at hflat
          exact absurd (List.append_eq_nil_iff.mp hflat).1
            (hchunks chunk List.mem_cons_self).1
    subst hnil
    have hheader : recv rt (.recvHeader c.method)
        (.header id c.method.id.1 0 (UInt64.ofNat c.body.length) c.properties) =
        some (.recvMethod, some c.dispatched) := by
      simp [recv, recvHeader, hempty, Content.dispatched]
    exact recvRun_cons hmethod (recvRun_cons hheader rfl)
  · have hpos := List.length_pos_iff.mpr hempty
    have hne : UInt64.ofNat c.body.length ≠ 0 := by
      intro hzero
      rw [hzero] at hto
      exact absurd hto.symm hpos.ne'
    have hheader : recv rt (.recvHeader c.method)
        (.header id c.method.id.1 0 (UInt64.ofNat c.body.length) c.properties) =
        some (.recvContent c.method (UInt64.ofNat c.body.length) c.properties [] 0, none) := by
      simp only [recv, recvHeader]
      rw [if_neg hne]
    have hbody : recvRun rt (.recvContent c.method (UInt64.ofNat c.body.length) c.properties [] 0)
        (chunks.map (Frame.body id)) = some (.recvMethod,
          [.content c.method c.properties ([] ++ chunks.flatten)]) :=
      recvRun_chunks id c.method c.properties (fun chunk h => (hchunks chunk h).1)
        (by rintro rfl; exact hempty hflat.symm)
        (by rw [hto, List.nil_append, hflat]) (by rw [hto]; exact c.body_le) (.inl ⟨rfl, rfl⟩)
    rw [List.nil_append, hflat] at hbody
    exact recvRun_cons hmethod (recvRun_cons hheader hbody)

theorem recvRun_sendAll {frameSize : ℤ} (hframe : frameSize = 0 ∨ 8 < frameSize)
    (id : UInt16) (cs : List (Content rt)) :
    ∃ frames, sendAll frameSize id cs = .done frames ∧
      recvRun rt .recvMethod frames = some (.recvMethod, cs.map Content.dispatched) := by
  induction cs with
  | nil => exact ⟨[], rfl, rfl⟩
  | cons c cs ih =>
      obtain ⟨frames, hsend, hrun⟩ := recvRun_sendOpen hframe id c
      obtain ⟨rest, hrest, hruns⟩ := ih
      exact ⟨frames ++ rest, by simp only [sendAll, hsend, hrest, Loop.map],
        recvRun_append hrun hruns⟩

/-! ## All channels -/

/-- Receivers of different channels do not see each other's frames: after any list of
frames each of them is where its own frames alone would have taken it. -/
theorem feed_of_recvRun {frames : List Frame} {r : Receivers} {state : UInt16 → RecvState}
    {outs : UInt16 → List Dispatched}
    (h : ∀ id, recvRun rt (r.state id) (frames.filter fun f => f.channel = id) =
      some (state id, outs id)) :
    ∃ r', r.feed rt frames = some r' ∧ r'.state = state ∧
      ∀ id, r'.dispatched id = r.dispatched id ++ outs id := by
  induction frames generalizing r outs with
  | nil =>
      have hnil : ∀ id, r.state id = state id ∧ [] = outs id := by
        intro id
        simpa [recvRun] using h id
      exact ⟨r, rfl, funext fun id => (hnil id).1, fun id => by rw [← (hnil id).2, List.append_nil]⟩
  | cons f frames ih =>
      have hself := h f.channel
      rw [List.filter_cons_of_pos (by simp)] at hself
      obtain ⟨mid, out, rest, hf, hrest, houts⟩ := recvRun_cons_eq_some hself
      have hothers : ∀ id, recvRun rt (Function.update r.state f.channel mid id)
          (frames.filter fun f => f.channel = id) =
          some (state id, Function.update outs f.channel rest id) := by
        intro id
        by_cases hid : id = f.channel
        · subst hid
          simp [hrest]
        · have hother := h id
          rw [List.filter_cons_of_neg (by simpa using Ne.symm hid)] at hother
          simpa [Function.update_of_ne hid] using hother
      obtain ⟨r', hfeed, hstate', hdispatched⟩ := ih
        (r := ⟨Function.update r.state f.channel mid,
          Function.update r.dispatched f.channel (r.dispatched f.channel ++ out.toList)⟩) hothers
      refine ⟨r', ?_, hstate', ?_⟩
      · rw [Receivers.feed, List.foldlM_cons, Receivers.step, hf]
        exact hfeed
      · intro id
        rw [hdispatched id]
        by_cases hid : id = f.channel
        · subst hid
          simp [houts]
        · simp [Function.update_of_ne hid]

/-- `sendOpen` cuts a message into a method frame, a header frame and non-empty body
frames within the frame size. From any interleaving of what was sent on the channels the
receivers dispatch, on each channel, the messages sent on it in their order. -/
theorem receivers_invert_sendOpen {frameSize : ℤ} (hframe : frameSize = 0 ∨ 8 < frameSize) :
    (∀ (id : UInt16) (c : Content rt), ∃ chunks : List Bytes,
      sendOpen frameSize id c = .done (.method id 0 0 (some c.method) ::
        .header id c.method.id.1 0 (UInt64.ofNat c.body.length) c.properties ::
        chunks.map (Frame.body id)) ∧
      (∀ chunk ∈ chunks, chunk ≠ [] ∧
        (0 < frameSize → (chunk.length : ℤ) + frameHeaderSize ≤ frameSize)) ∧
      chunks.flatten = c.body) ∧
    ∀ (messages : UInt16 → List (Content rt)) (frames : List Frame),
      (∀ id, sendAll frameSize id (messages id) =
        .done (frames.filter fun f => f.channel = id)) →
      ∃ r, Receivers.start.feed rt frames = some r ∧
        ∀ id, r.dispatched id = (messages id).map Content.dispatched := by
  refine ⟨sendOpen_spec hframe, fun messages frames hsent => ?_⟩
  have hown : ∀ id, recvRun rt (Receivers.start.state id)
      (frames.filter fun f => f.channel = id) =
      some (.recvMethod, (messages id).map Content.dispatched) := by
    intro id
    obtain ⟨sent, hsend, hrun⟩ := recvRun_sendAll hframe id (messages id)
    rw [hsent id] at hsend
    cases hsend
    exact hrun
  obtain ⟨r, hfeed, -, hdispatched⟩ := feed_of_recvRun hown
  refine ⟨r, hfeed, fun id => ?_⟩
  rw [hdispatched id]
  rfl

/-- A body of three bytes in frames of ten, interleaved with an empty message on another
channel. -/
theorem receivers_invert_sendOpen_two_channels :
    let publish : Message := ⟨.basicPublish, ((0 : UInt16), [], [], #v[false, false], ())⟩
    let first : Content .exact := ⟨publish, {}, [1, 2, 3], rfl, by decide⟩
    let second : Content .exact := ⟨publish, {}, [], rfl, by decide⟩
    ∃ r, Receivers.start.feed .exact
        [.method 1 0 0 (some publish), .method 2 0 0 (some publish), .header 1 60 0 3 {},
          .body 1 [1, 2], .header 2 60 0 0 {}, .body 1 [3]] = some r ∧
      r.dispatched 1 = [first.dispatched] ∧ r.dispatched 2 = [second.dispatched] := by
  intro publish first second
  have hframe : (10 : ℤ) = 0 ∨ 8 < (10 : ℤ) := .inr (by decide)
  obtain ⟨r, hfeed, hdispatched⟩ := (receivers_invert_sendOpen hframe).2
    (fun id => if id = 1 then [first] else if id = 2 then [second] else [])
    [.method 1 0 0 (some publish), .method 2 0 0 (some publish), .header 1 60 0 3 {},
      .body 1 [1, 2], .header 2 60 0 0 {}, .body 1 [3]] (by
    intro id
    by_cases h1 : id = 1
    · subst h1
      rfl
    · by_cases h2 : id = 2
      · subst h2
        rfl
      · simp [h1, h2, Ne.symm h1, Ne.symm h2, Frame.channel, sendAll])
  exact ⟨r, hfeed, hdispatched 1, hdispatched 2⟩

end Amqp091

import Amqp091.Verification.Content.Refinement

/-! # Messages in a sequence of frames

Any sequence of frames splits into methods without content, messages and dropped frames.
A message is a content method, a header and the bodies behind them, up to the announced
size. -/

namespace Amqp091

open ByteCodec

variable {rt : GoRuntime}

/-- The chunks reach the size with the last of them. There is none for the size zero. -/
def FirstReaches (size : ℕ) (chunks : List Bytes) : Prop :=
  size ≤ chunks.flatten.length ∧
    ∀ front, front <+: chunks → front ≠ chunks → front.flatten.length < size

theorem toNat_pos_of_ne_zero {size : UInt64} (h : size ≠ 0) : 0 < size.toNat :=
  Nat.pos_of_ne_zero fun hzero => h (UInt64.toNat_inj.mp hzero)

/-- Body frames, each with the id of the channel it came on. -/
def bodyFrames (bodies : List (UInt16 × Bytes)) : List Frame :=
  bodies.map fun body => .body body.1 body.2

/-- Consecutive frames that make up a message, and the message. -/
inductive Formed : List Frame → Dispatched → Prop
  | mk {methodChannel classId methodId headerChannel headerClass weight : UInt16}
      {message : Message} {size : UInt64} {properties : Properties}
      (bodies : List (UInt16 × Bytes)) (hcontent : message.hasContent = true)
      (hreaches : FirstReaches size.toNat (bodies.map Prod.snd)) :
      Formed (.method methodChannel classId methodId (some message) ::
          .header headerChannel headerClass weight size properties :: bodyFrames bodies)
        (.content message properties (bodies.map Prod.snd).flatten)

/-- Frames of messages with content. -/
def Frame.IsContent : Frame → Prop
  | .method _ _ _ (some m) => m.hasContent = true
  | .method _ _ _ none => False
  | .header .. => True
  | .body .. => True
  | .heartbeat _ => False

/-- A split of a sequence of frames, with the frames that are not dropped and what is
dispatched for them. -/
inductive Parse : List Frame → List Frame → List Dispatched → Prop
  | nil : Parse [] [] []
  | method {id classId methodId : UInt16} {m : Option Message} {frames kept : List Frame}
      {outs : List Dispatched} (hmethod : ¬ (Frame.method id classId methodId m).IsContent)
      (h : Parse frames kept outs) :
      Parse (.method id classId methodId m :: frames) (.method id classId methodId m :: kept)
        (.method m :: outs)
  | message {segment frames kept : List Frame} {out : Dispatched} {outs : List Dispatched}
      (hformed : Formed segment out) (h : Parse frames kept outs) :
      Parse (segment ++ frames) (segment ++ kept) (out :: outs)
  | dropped {f : Frame} {frames kept : List Frame} {outs : List Dispatched}
      (hcontent : f.IsContent) (h : Parse frames kept outs) : Parse (f :: frames) kept outs

theorem Parse.dropped_append {pending frames kept : List Frame} {outs : List Dispatched}
    (hpending : ∀ f ∈ pending, f.IsContent) (h : Parse frames kept outs) :
    Parse (pending ++ frames) kept outs := by
  induction pending with
  | nil => exact h
  | cons f pending ih =>
      exact .dropped (hpending f List.mem_cons_self)
        (ih fun g hg => hpending g (List.mem_cons_of_mem _ hg))

/-! ## The buffer of the body -/

/-- The slice of the body: nothing is stored before the first allocation. -/
def CapOk (rt : GoRuntime) (body : Bytes) (cap : ℕ) : Prop :=
  (cap = 0 ∧ body = []) ∨ (0 < cap ∧ body.length ≤ cap ∧ cap ≤ rt.maxAlloc)

theorem appendCap_bounds {cap newLen cap' : ℕ} (h : appendCap rt cap newLen = some cap')
    (hpos : 0 < cap) (hmax : cap ≤ rt.maxAlloc) :
    0 < cap' ∧ newLen ≤ cap' ∧ cap' ≤ rt.maxAlloc := by
  unfold appendCap at h
  split at h
  · next hle =>
      cases h
      exact ⟨hpos, hle, hmax⟩
  · next hlt =>
      split at h
      · next hgrow =>
          cases h
          have hle := rt.le_grow cap newLen
          exact ⟨by omega, hle, hgrow⟩
      · cases h

theorem reserveBody_bounds {size : UInt64} {body body' : Bytes} {cap cap' : ℕ}
    (h : reserveBody rt size body cap = some (body', cap')) (hcap : CapOk rt body cap)
    (hsize : size ≠ 0) : body' = body ∧ 0 < cap' ∧ cap' ≤ rt.maxAlloc := by
  unfold reserveBody at h
  rcases hcap with ⟨rfl, rfl⟩ | ⟨hcap, -, hmax⟩
  · rw [if_pos rfl] at h
    split at h
    · next hle =>
        cases h
        exact ⟨rfl, toNat_pos_of_ne_zero hsize, hle⟩
    · cases h
  · rw [if_neg hcap.ne'] at h
    cases h
    exact ⟨rfl, hcap, hmax⟩

/-- Where the receiver does not panic the chunk goes behind the body. -/
theorem exists_stored {message : Message} {size : UInt64} {properties : Properties}
    {body chunk : Bytes} {cap : ℕ} {id : UInt16}
    (hrecv : recv rt (.recvContent message size properties body cap) (.body id chunk) ≠ none)
    (hcap : CapOk rt body cap) (hsize : size ≠ 0) :
    ∃ cap' cap'', reserveBody rt size body cap = some (body, cap') ∧
      appendCap rt cap' (body ++ chunk).length = some cap'' ∧ CapOk rt (body ++ chunk) cap'' ∧
      (size ≤ UInt64.ofNat (body ++ chunk).length ↔ size.toNat ≤ (body ++ chunk).length) := by
  cases hreserve : reserveBody rt size body cap with
  | none => exact absurd (by simp [recv, recvContent, hreserve]) hrecv
  | some reserved =>
      obtain ⟨body', cap'⟩ := reserved
      obtain ⟨rfl, hpos, hmax⟩ := reserveBody_bounds hreserve hcap hsize
      cases happend : appendCap rt cap' (body' ++ chunk).length with
      | none => exact absurd ((recv_body_eq_none id hreserve).mpr happend) hrecv
      | some cap'' =>
          obtain ⟨hpos', hle, hmax'⟩ := appendCap_bounds happend hpos hmax
          have hlt : (body' ++ chunk).length < 2 ^ 64 := by
            have hmaxAlloc := rt.maxAlloc_lt
            omega
          have hto : (UInt64.ofNat (body' ++ chunk).length).toNat = (body' ++ chunk).length :=
            UInt64.toNat_ofNat_of_lt' hlt
          exact ⟨cap', cap'', rfl, happend, .inr ⟨hpos', hle, hmax'⟩,
            by rw [UInt64.le_iff_toNat_le, hto]⟩

/-- A chunk the receiver gets through: the message is complete, or goes on. -/
theorem recv_body_cases {message : Message} {size : UInt64} {properties : Properties}
    {body chunk : Bytes} {cap : ℕ} {id : UInt16} {state : RecvState} {out : Option Dispatched}
    (hrecv : recv rt (.recvContent message size properties body cap) (.body id chunk) =
      some (state, out)) (hcap : CapOk rt body cap) (hsize : size ≠ 0) :
    (size.toNat ≤ (body ++ chunk).length ∧ state = .recvMethod ∧
      out = some (.content message properties (body ++ chunk))) ∨
    ((body ++ chunk).length < size.toNat ∧ out = none ∧ ∃ cap',
      state = .recvContent message size properties (body ++ chunk) cap' ∧
      CapOk rt (body ++ chunk) cap') := by
  obtain ⟨cap', cap'', hreserve, happend, hcap', hle⟩ :=
    exists_stored (by rw [hrecv]; exact Option.some_ne_none _) hcap hsize
  rw [recv_body id hreserve happend] at hrecv
  simp only [hle] at hrecv
  by_cases hlong : size.toNat ≤ (body ++ chunk).length
  · rw [if_pos hlong] at hrecv
    cases hrecv
    exact .inl ⟨hlong, rfl, rfl⟩
  · rw [if_neg hlong] at hrecv
    cases hrecv
    exact .inr ⟨Nat.lt_of_not_le hlong, rfl, cap'', rfl, hcap'⟩

/-! ## One frame -/

theorem length_front_flatten_le {front chunks : List Bytes} (h : front <+: chunks) :
    front.flatten.length ≤ chunks.flatten.length := by
  obtain ⟨rest, rfl⟩ := h
  simp

theorem FirstReaches.zero : FirstReaches 0 [] :=
  ⟨Nat.zero_le _, fun _ hfront hne => absurd (List.prefix_nil.mp hfront) hne⟩

theorem FirstReaches.concat {size : ℕ} {chunks : List Bytes} {chunk : Bytes}
    (hshort : chunks.flatten.length < size)
    (hreached : size ≤ (chunks.flatten ++ chunk).length) :
    FirstReaches size (chunks ++ [chunk]) := by
  refine ⟨by simpa using hreached, fun front hfront hne => ?_⟩
  rcases List.prefix_concat_iff.mp hfront with heq | hfront
  · exact absurd heq hne
  · exact Nat.lt_of_le_of_lt (length_front_flatten_le hfront) hshort

/-- The frames the receiver holds in a state: an incomplete message. -/
inductive Pending (rt : GoRuntime) : List Frame → RecvState → Prop
  | idle : Pending rt [] .recvMethod
  | header {channelId classId methodId : UInt16} {message : Message}
      (hcontent : message.hasContent = true) :
      Pending rt [.method channelId classId methodId (some message)] (.recvHeader message)
  | content {methodChannel classId methodId headerChannel headerClass weight : UInt16}
      {message : Message} {size : UInt64} {properties : Properties}
      {cap : ℕ} (bodies : List (UInt16 × Bytes)) (hcontent : message.hasContent = true)
      (hsize : size ≠ 0) (hshort : (bodies.map Prod.snd).flatten.length < size.toNat)
      (hcap : CapOk rt (bodies.map Prod.snd).flatten cap) :
      Pending rt (.method methodChannel classId methodId (some message) ::
          .header headerChannel headerClass weight size properties :: bodyFrames bodies)
        (.recvContent message size properties (bodies.map Prod.snd).flatten cap)

theorem Pending.isContent {pending : List Frame} {state : RecvState}
    (h : Pending rt pending state) : ∀ f ∈ pending, f.IsContent := by
  cases h with
  | idle => simp
  | header hcontent => simpa [Frame.IsContent] using hcontent
  | content bodies hcontent hsize hshort hcap =>
      simp only [List.forall_mem_cons]
      refine ⟨hcontent, trivial, fun f hf => ?_⟩
      obtain ⟨body, -, rfl⟩ := List.mem_map.mp hf
      trivial

theorem Pending.isMethod {f : Frame} {frames : List Frame} {state : RecvState}
    (h : Pending rt (f :: frames) state) :
    ∃ id classId methodId m, f = .method id classId methodId m := by
  cases h with
  | header => exact ⟨_, _, _, _, rfl⟩
  | content => exact ⟨_, _, _, _, rfl⟩

/-- What a frame does to the frames that are held. -/
inductive FrameEffect (rt : GoRuntime) (pending : List Frame) (f : Frame) :
    RecvState → Option Dispatched → Prop
  | continued {state : RecvState} (h : Pending rt (pending ++ [f]) state) :
      FrameEffect rt pending f state none
  | completed {out : Dispatched} (h : Formed (pending ++ [f]) out) :
      FrameEffect rt pending f .recvMethod (some out)
  | reset (h : f.IsContent) : FrameEffect rt pending f .recvMethod none
  | method {id classId methodId : UInt16} {m : Option Message}
      (hf : f = .method id classId methodId m) (h : ¬ f.IsContent) :
      FrameEffect rt pending f .recvMethod (some (.method m))
  | restarted {state : RecvState} (h : Pending rt [f] state) : FrameEffect rt pending f state none

/-- What is held behind a frame was held before it, or is the frame itself. -/
theorem FrameEffect.pending {pending : List Frame} {f : Frame} {state : RecvState}
    {out : Option Dispatched} (h : FrameEffect rt pending f state out) :
    ∃ pending', Pending rt pending' state ∧ pending' <:+ pending ++ [f] := by
  cases h with
  | continued hpending => exact ⟨_, hpending, List.suffix_rfl⟩
  | completed => exact ⟨[], .idle, List.nil_suffix⟩
  | reset => exact ⟨[], .idle, List.nil_suffix⟩
  | method => exact ⟨[], .idle, List.nil_suffix⟩
  | restarted hpending => exact ⟨_, hpending, List.suffix_append _ _⟩

/-- A method frame is handled by `recvMethod` in every state. -/
theorem recv_method (state : RecvState) (id classId methodId : UInt16) (m : Option Message) :
    recv rt state (.method id classId methodId m) = recvMethod (.method id classId methodId m) := by
  cases state <;> rfl

theorem recvMethod_effect (pending : List Frame) {f : Frame} {state : RecvState}
    {out : Option Dispatched} (h : recvMethod f = some (state, out)) :
    FrameEffect rt pending f state out := by
  cases f with
  | method channelId classId methodId m =>
      cases m with
      | none =>
          cases h
          exact .method rfl id
      | some m =>
          by_cases hm : m.hasContent = true
          · rw [recvMethod, if_pos hm] at h
            cases h
            exact .restarted (.header hm)
          · rw [recvMethod, if_neg hm] at h
            cases h
            exact .method rfl hm
  | header =>
      cases h
      exact .reset trivial
  | body =>
      cases h
      exact .reset trivial
  | heartbeat => cases h

/-- One frame completes the message that is held, goes on with it, or puts an end to it. -/
theorem Pending.step {pending : List Frame} {state state' : RecvState} {f : Frame}
    {out : Option Dispatched} (h : Pending rt pending state)
    (hrecv : recv rt state f = some (state', out)) : FrameEffect rt pending f state' out := by
  cases h with
  | idle => exact recvMethod_effect [] hrecv
  | header hcontent =>
      cases f with
      | method => exact recvMethod_effect _ hrecv
      | header channelId classId weight size properties =>
          by_cases hsize : size = 0
          · subst hsize
            cases hrecv
            exact .completed (Formed.mk [] hcontent .zero)
          · simp only [recv, recvHeader, if_neg hsize] at hrecv
            cases hrecv
            exact .continued (Pending.content [] hcontent hsize (toNat_pos_of_ne_zero hsize)
              (.inl ⟨rfl, rfl⟩))
      | body =>
          cases hrecv
          exact .reset trivial
      | heartbeat => cases hrecv
  | content bodies hcontent hsize hshort hcap =>
      cases f with
      | method => exact recvMethod_effect _ hrecv
      | header =>
          cases hrecv
          exact .reset trivial
      | body channelId chunk =>
          have hbodies : ((bodies ++ [(channelId, chunk)]).map Prod.snd).flatten =
              (bodies.map Prod.snd).flatten ++ chunk := by simp
          have hframes : bodyFrames (bodies ++ [(channelId, chunk)]) =
              bodyFrames bodies ++ [.body channelId chunk] := by simp [bodyFrames]
          rcases recv_body_cases hrecv hcap hsize with
            ⟨hreached, rfl, rfl⟩ | ⟨hmore, rfl, cap', rfl, hcap'⟩
          · refine .completed ?_
            have hfirst := FirstReaches.concat hshort hreached
            rw [← hbodies, List.cons_append, List.cons_append, ← hframes]
            exact .mk _ hcontent (by simpa using hfirst)
          · refine .continued ?_
            rw [← hbodies, List.cons_append, List.cons_append, ← hframes]
            rw [← hbodies] at hmore hcap'
            exact .content _ hcontent hsize hmore hcap'
      | heartbeat => cases hrecv

/-! ## Whole sequences -/

/-- In every state that is reached an incomplete message is held. -/
theorem Pending.run {pending frames : List Frame} {state state' : RecvState}
    {outs : List Dispatched} (h : Pending rt pending state)
    (hrun : recvRun rt state frames = some (state', outs)) :
    ∃ pending', Pending rt pending' state' := by
  induction frames generalizing pending state outs with
  | nil =>
      cases hrun
      exact ⟨pending, h⟩
  | cons f frames ih =>
      obtain ⟨mid, out, rest, hf, hrest, rfl⟩ := recvRun_cons_eq_some hrun
      obtain ⟨next, hnext, -⟩ := (h.step hf).pending
      exact ih hnext hrest

/-- The frames the receiver gets through are split, and those that are not dropped are
enough for what is dispatched. -/
theorem Pending.parse {pending frames : List Frame} {state state' : RecvState}
    {outs : List Dispatched} (h : Pending rt pending state)
    (hpending : recvRun rt .recvMethod pending = some (state, []))
    (hrun : recvRun rt state frames = some (state', outs)) :
    ∃ kept, Parse (pending ++ frames) kept outs ∧
      recvRun rt .recvMethod kept = some (.recvMethod, outs) := by
  induction frames generalizing pending state outs with
  | nil =>
      cases hrun
      exact ⟨[], .dropped_append h.isContent .nil, rfl⟩
  | cons f frames ih =>
      obtain ⟨mid, out, rest, hf, hrest, rfl⟩ := recvRun_cons_eq_some hrun
      have hone : recvRun rt state [f] = some (mid, out.toList) := by
        simpa using recvRun_cons hf (rfl : recvRun rt mid [] = some (mid, []))
      have hheld := recvRun_append hpending hone
      have hsplit : pending ++ f :: frames = pending ++ [f] ++ frames := by simp
      cases h.step hf with
      | continued hmid =>
          rw [hsplit]
          exact ih hmid hheld hrest
      | completed hformed =>
          obtain ⟨kept, hparse, hkept⟩ := ih .idle rfl hrest
          rw [hsplit]
          exact ⟨_, .message hformed hparse, recvRun_append hheld hkept⟩
      | reset hcontent =>
          obtain ⟨kept, hparse, hkept⟩ := ih .idle rfl hrest
          exact ⟨kept, .dropped_append h.isContent (.dropped hcontent hparse), hkept⟩
      | method hmethod hcontent =>
          subst hmethod
          obtain ⟨kept, hparse, hkept⟩ := ih .idle rfl hrest
          refine ⟨_, .dropped_append h.isContent (.method hcontent hparse), ?_⟩
          rw [recv_method] at hf
          exact recvRun_cons hf hkept
      | restarted hmid =>
          obtain ⟨id, classId, methodId, m, rfl⟩ := hmid.isMethod
          rw [recv_method] at hf
          have hfirst : recv rt .recvMethod (.method id classId methodId m) = some (mid, none) := hf
          obtain ⟨kept, hparse, hkept⟩ := ih hmid (recvRun_cons hfirst rfl) hrest
          exact ⟨kept, .dropped_append h.isContent hparse, hkept⟩

/-- From the header on: the bodies up to the size complete the message. -/
theorem recvRun_bodies {message : Message} {size : UInt64} {properties : Properties}
    {cap : ℕ} {bodies : List (UInt16 × Bytes)} {state : RecvState} {outs : List Dispatched}
    (collected : List Bytes)
    (hrun : recvRun rt (.recvContent message size properties collected.flatten cap)
      (bodyFrames bodies) = some (state, outs))
    (hsize : size ≠ 0) (hcap : CapOk rt collected.flatten cap)
    (hshort : collected.flatten.length < size.toNat)
    (hreaches : FirstReaches size.toNat (collected ++ bodies.map Prod.snd)) :
    state = .recvMethod ∧
      outs = [.content message properties (collected ++ bodies.map Prod.snd).flatten] := by
  induction bodies generalizing collected cap outs with
  | nil =>
      have hreached := hreaches.1
      rw [List.map_nil, List.append_nil] at hreached
      omega
  | cons body bodies ih =>
      obtain ⟨id, chunk⟩ := body
      obtain ⟨mid, out, rest, hf, hrest, rfl⟩ := recvRun_cons_eq_some (f := .body id chunk) hrun
      have hflat : (collected ++ [chunk]).flatten = collected.flatten ++ chunk := by simp
      have hsplit : collected ++ chunk :: bodies.map Prod.snd =
          collected ++ [chunk] ++ bodies.map Prod.snd := by simp
      rw [List.map_cons, hsplit] at hreaches ⊢
      rcases recv_body_cases hf hcap hsize with
        ⟨hreached, rfl, rfl⟩ | ⟨hmore, rfl, cap', rfl, hcap'⟩
      · -- The size is reached, so this is the last chunk.
        have hlast : bodies = [] := by
          by_contra hne
          have hproper : collected ++ [chunk] ≠ collected ++ [chunk] ++ bodies.map Prod.snd := by
            simpa using hne
          have hlt := hreaches.2 _ (List.prefix_append _ _) hproper
          rw [hflat] at hlt
          omega
        subst hlast
        cases hrest
        simp
      · rw [← hflat] at hrest hcap' hmore
        obtain ⟨hstate, houts⟩ := ih _ hrest hcap' hmore hreaches
        exact ⟨hstate, by rw [houts]; rfl⟩

/-- The frames of a message are dispatched as that message, whatever came before. -/
theorem Formed.run {segment : List Frame} {out : Dispatched} {state state' : RecvState}
    {outs : List Dispatched} (h : Formed segment out)
    (hrun : recvRun rt state segment = some (state', outs)) :
    state' = .recvMethod ∧ outs = [out] := by
  obtain ⟨bodies, hcontent, hreaches⟩ := h
  rename_i message size properties
  obtain ⟨first, out₁, outs₁, hmethod, hrest, rfl⟩ := recvRun_cons_eq_some hrun
  rw [recv_method, recvMethod, if_pos hcontent] at hmethod
  cases hmethod
  obtain ⟨second, out₂, outs₂, hheader, hbodies, rfl⟩ := recvRun_cons_eq_some hrest
  by_cases hsize : size = 0
  · subst hsize
    have hnone : bodies = [] := by
      by_contra hne
      have hlt := hreaches.2 [] (List.nil_prefix) (by simpa using Ne.symm hne)
      exact absurd hlt (Nat.not_lt_zero _)
    subst hnone
    cases hheader
    cases hbodies
    exact ⟨rfl, rfl⟩
  · simp only [recv, recvHeader, if_neg hsize] at hheader
    cases hheader
    exact recvRun_bodies [] hbodies hsize (.inl ⟨rfl, rfl⟩) (toNat_pos_of_ne_zero hsize) hreaches

end Amqp091

import Amqp091.Shared.Transition
import Amqp091.Verification.Channel.Machine
import Amqp091.Verification.Channel.Send
import Amqp091.Verification.Content.Chunking
import Amqp091.Verification.Content.Equations

/-! # The frames of a channel on the wire -/

namespace Amqp091

open ByteCodec Transition

variable {rt : GoRuntime} {frameSize : ℤ} {id : UInt16}

/-! ## Well-formed sequences of frames -/

/-- The frames of one message: a method without content, or a method with content, its
header and body frames that are not empty and add up to the announced size. -/
inductive Complete (id : UInt16) : List Frame → Prop
  | plain {m : Message} (hm : m.hasContent = false) : Complete id [.method id 0 0 (some m)]
  | content {m : Message} {size : UInt64} {properties : Properties} {bodies : List Bytes}
      (hm : m.hasContent = true) (hne : ∀ body ∈ bodies, body ≠ [])
      (hsize : bodies.flatten.length = size.toNat) :
      Complete id (.method id 0 0 (some m) :: .header id m.id.1 0 size properties ::
        bodies.map (Frame.body id))

/-- A prefix of complete messages one after the other. -/
def WellFormed (id : UInt16) (frames : List Frame) : Prop :=
  ∃ messages : List (List Frame), (∀ m ∈ messages, Complete id m) ∧ frames <+: messages.flatten

/-- A method with content is followed by its header or by nothing. -/
theorem WellFormed.header_of_content {f : Frame} {rest : List Frame} {m : Message}
    (h : WellFormed id (.method id 0 0 (some m) :: f :: rest)) (hm : m.hasContent = true) :
    ∃ size properties, f = .header id m.id.1 0 size properties := by
  obtain ⟨messages, hall, hpre⟩ := h
  cases messages with
  | nil => simp at hpre
  | cons message messages =>
      rw [List.flatten_cons] at hpre
      cases hall message List.mem_cons_self with
      | plain hplain =>
          obtain ⟨heq, -⟩ := List.cons_prefix_cons.mp hpre
          cases heq
          rw [hm] at hplain
          cases hplain
      | content _ _ _ =>
          obtain ⟨heq, hpre⟩ := List.cons_prefix_cons.mp hpre
          cases heq
          obtain ⟨heq, -⟩ := List.cons_prefix_cons.mp hpre
          exact ⟨_, _, heq⟩

theorem Content.complete (c : Content rt) (bodies : List Bytes)
    (hne : ∀ body ∈ bodies, body ≠ []) (hflat : bodies.flatten = c.body) :
    Complete id (c.frame id .method :: c.frame id .header :: bodies.map (Frame.body id)) :=
  .content c.hasContent hne (by rw [hflat, c.toNat_length])

/-! ## A message that is partly written -/

/-- The frames of a message written before the one at the cursor. -/
inductive Progress (id : UInt16) : Outgoing rt → Cursor → List Frame → Prop
  | method (msg : Outgoing rt) : Progress id msg .method []
  | header (c : Content rt) : Progress id (.content c) .header [c.frame id .method]
  | body {c : Content rt} {bodies : List Bytes} {chunk rest : Bytes}
      (hbody : bodies.flatten ++ (chunk ++ rest) = c.body)
      (hne : ∀ body ∈ bodies, body ≠ []) (hchunk : chunk ≠ []) :
      Progress id (.content c) (.body (bodies.flatten.length + chunk.length : ℕ) chunk)
        (c.frame id .method :: c.frame id .header :: bodies.map (Frame.body id))

/-- What is missing of a body can be sent in at most one more frame. -/
theorem exists_bodies (rest : Bytes) :
    ∃ bodies : List Bytes, (∀ body ∈ bodies, body ≠ []) ∧ bodies.flatten = rest := by
  by_cases hrest : rest = []
  · exact ⟨[], by simp, hrest.symm⟩
  · exact ⟨[rest], by simpa using hrest, by simp⟩

theorem Progress.prefix_complete {msg : Outgoing rt} {cursor : Cursor} {w : List Frame}
    (h : Progress id msg cursor w) : ∃ m, Complete id m ∧ w <+: m := by
  cases h with
  | method msg =>
      cases msg with
      | plain m hm => exact ⟨_, .plain hm, List.nil_prefix⟩
      | content c =>
          obtain ⟨bodies, hne, hflat⟩ := exists_bodies c.body
          exact ⟨_, c.complete bodies hne hflat, List.nil_prefix⟩
  | header c =>
      obtain ⟨bodies, hne, hflat⟩ := exists_bodies c.body
      exact ⟨_, c.complete bodies hne hflat, by simp⟩
  | @body c bodies chunk rest hbody hne hchunk =>
      obtain ⟨bodies', hne', hflat'⟩ := exists_bodies (chunk ++ rest)
      refine ⟨_, c.complete (bodies ++ bodies') ?_ ?_, ?_⟩
      · intro body hmem
        exact (List.mem_append.mp hmem).elim (hne body) (hne' body)
      · rw [List.flatten_append, hflat', hbody]
      · simp

theorem wellFormed_of_progress {msg : Outgoing rt} {cursor : Cursor} {w : List Frame}
    {messages : List (List Frame)} (hall : ∀ m ∈ messages, Complete id m)
    (h : Progress id msg cursor w) : WellFormed id (messages.flatten ++ w) := by
  obtain ⟨m, hm, hpre⟩ := h.prefix_complete
  refine ⟨messages ++ [m], ?_, ?_⟩
  · intro m' hm'
    rcases List.mem_append.mp hm' with hm' | hm'
    · exact hall m' hm'
    · rw [List.mem_singleton.mp hm']
      exact hm
  · rw [List.flatten_append, List.flatten_singleton]
    exact (List.prefix_append_right_inj _).mpr hpre

/-- The frames of its message that a send at this point has written, as long as others
are still to come. -/
def Unfinished (id : UInt16) (msg : Outgoing rt) : Point → List Frame → Prop
  | .test cursor, w => Progress id msg cursor w
  | .write cursor, w => Progress id msg cursor w
  | _, w => w = []

/-- The frame size leaves room for the body in its frames. -/
def Content.Fits (frameSize : ℤ) (c : Content rt) : Prop :=
  c.body = [] ∨ frameSize ≤ 0 ∨ 8 < frameSize

/-- The loop over the body ends with the whole body written, or goes on with a chunk of
what is left. -/
theorem Content.bodyLoop_progress {c : Content rt} (hfits : c.Fits frameSize)
    (id : UInt16) {bodies : List Bytes} {rest : Bytes} (hbody : bodies.flatten ++ rest = c.body)
    (hne : ∀ body ∈ bodies, body ≠ []) :
    (rest = [] ∧ c.bodyLoop bodies.flatten.length
        (bodies.flatten.length + chunkSize frameSize c.body) = .flush (.returned none)) ∨
    ∃ cursor, c.bodyLoop bodies.flatten.length
        (bodies.flatten.length + chunkSize frameSize c.body) = .test cursor ∧
      Progress id (.content c) cursor
        (c.frame id .method :: c.frame id .header :: bodies.map (Frame.body id)) := by
  have hlength : c.body.length = bodies.flatten.length + rest.length := by
    rw [← hbody, List.length_append]
  by_cases hrest : rest = []
  · left
    subst hrest
    refine ⟨rfl, ?_⟩
    rw [bodyLoop, if_neg]
    rw [List.length_nil, Nat.add_zero] at hlength
    omega
  · right
    have hpos := List.length_pos_iff.mpr hrest
    have hne' : c.body ≠ [] := by
      intro hnil
      rw [hnil, List.length_nil] at hlength
      omega
    obtain ⟨size, hsize, hsize_pos, -⟩ := chunkSize_pos (hfits.resolve_left hne') hne'
    have hi : bodies.flatten.length < c.body.length := by omega
    obtain ⟨j, hj, hclamp, hslice⟩ := sliceBody_window size hi
    -- the slice starts where the frames written so far end
    have hdrop : c.body.drop bodies.flatten.length = rest := by
      rw [← hbody, List.drop_left]
    rw [hdrop] at hslice
    obtain ⟨chunk, hchunk⟩ : ∃ chunk, chunk = rest.take (j - bodies.flatten.length) :=
      ⟨_, rfl⟩
    have hsplit : chunk ++ rest.drop (j - bodies.flatten.length) = rest := by
      rw [hchunk, List.take_append_drop]
    have hcursor : j = bodies.flatten.length + chunk.length := by
      rw [hchunk, List.length_take]
      omega
    rw [← hchunk] at hslice
    refine ⟨.body j chunk, ?_, ?_⟩
    · rw [bodyLoop, if_pos (by omega)]
      simp only [hsize, hclamp, hslice]
    · rw [hcursor]
      refine .body (by rw [hsplit, hbody]) hne ?_
      rintro rfl
      rw [List.length_nil] at hcursor
      omega

/-- After a frame of a message with content the message is complete or goes on. -/
theorem Content.afterWrite_progress {c : Content rt} (hfits : c.Fits frameSize)
    {cursor : Cursor} {w : List Frame} (h : Progress id (.content c) cursor w) :
    (Complete id (w ++ [c.frame id cursor]) ∧
      c.afterWrite frameSize cursor = .flush (.returned none)) ∨
    Unfinished id (.content c) (c.afterWrite frameSize cursor) (w ++ [c.frame id cursor]) := by
  cases h with
  | method => exact .inr (.header c)
  | header =>
      have hbody : ([] : List Bytes).flatten ++ c.body = c.body := rfl
      rcases bodyLoop_progress hfits id hbody (by simp) with
        ⟨hrest, hloop⟩ | ⟨cursor, hloop, hprogress⟩ <;>
        simp only [List.flatten_nil, List.length_nil, Nat.cast_zero, zero_add] at hloop
      · exact .inl ⟨c.complete [] (by simp) hrest.symm, hloop⟩
      · right
        rw [afterWrite, hloop]
        exact hprogress
  | @body _ bodies chunk rest hbody hne hchunk =>
      have hbody' : (bodies ++ [chunk]).flatten ++ rest = c.body := by
        rw [← hbody, List.flatten_append, List.flatten_singleton, List.append_assoc]
      have hne' : ∀ body ∈ bodies ++ [chunk], body ≠ [] := by
        intro body hmem
        rcases List.mem_append.mp hmem with hmem | hmem
        · exact hne body hmem
        · rw [List.mem_singleton.mp hmem]
          exact hchunk
      have hlength : (bodies ++ [chunk]).flatten.length =
          bodies.flatten.length + chunk.length := by
        simp
      have hw : c.frame id .method :: c.frame id .header :: bodies.map (Frame.body id) ++
          [c.frame id (.body (bodies.flatten.length + chunk.length : ℕ) chunk)] =
          c.frame id .method :: c.frame id .header ::
            (bodies ++ [chunk]).map (Frame.body id) := by
        simp [Content.frame]
      rw [hw, afterWrite, ← hlength]
      rcases bodyLoop_progress hfits id hbody' hne' with
        ⟨hrest, hloop⟩ | ⟨cursor, hloop, hprogress⟩
      · rw [hrest, List.append_nil] at hbody'
        exact .inl ⟨c.complete _ hne' hbody', hloop⟩
      · right
        rw [hloop]
        exact hprogress

/-! ## One step of a send -/

theorem Progress.eq_nil_of_plain {m : Message} {plain : m.hasContent = false} {cursor : Cursor}
    {w : List Frame} (h : Progress id (.plain m plain : Outgoing rt) cursor w) : w = [] := by
  cases h
  rfl

theorem unfinished_sendClosed (msg : Outgoing rt) : Unfinished id msg msg.sendClosed [] := by
  cases msg with
  | plain m plain =>
      rw [Outgoing.sendClosed]
      split
      · exact .method _
      · rfl
  | content c => rfl

/-- A step of a send goes on with its message, possibly completing it, or the message is
cut short: the writer has failed or the connection was found closed. -/
theorem SendStep.unfinished {msg : Outgoing rt}
    (hmsg : ∀ c, msg = .content c →
      c.Fits frameSize ∧ ∀ cursor, Completes (c.frame id cursor).write)
    {l l' : Link} {p p' : Point} (h : SendStep frameSize id l msg p l' p') {w : List Frame}
    {before : List Frame} (hwritten : l.written = before ++ w) (hw : Unfinished id msg p w) :
    (∃ messages w', (∀ m ∈ messages, Complete id m) ∧
      l'.written = before ++ (List.flatten messages ++ w') ∧ Unfinished id msg p' w') ∨
    (l'.written = l.written ∧
      (l'.broken = true ∨ l'.connectionClosed = true ∧ ∀ cursor, p' ≠ .write cursor)) := by
  have hsame : ∀ {p' : Point}, Unfinished id msg p' w →
      ∃ messages w', (∀ m ∈ messages, Complete id m) ∧
        l.written = before ++ (List.flatten messages ++ w') ∧ Unfinished id msg p' w' :=
    fun hw => ⟨[], w, by simp, hwritten, hw⟩
  have hone : ∀ {p' : Point} {f : Frame}, Complete id (w ++ [f]) → Unfinished id msg p' [] →
      ∃ messages w', (∀ m ∈ messages, Complete id m) ∧
        l.written ++ [f] = before ++ (List.flatten messages ++ w') ∧
        Unfinished id msg p' w' := by
    intro p' f hcomplete hp'
    exact ⟨[w ++ [f]], [], by simpa using hcomplete, by simp [hwritten], hp'⟩
  cases h with
  | send => exact .inl (hsame hw)
  | sendOpen =>
      cases hw
      exact .inl (hsame (.method _))
  | closed hp =>
      have hnil : w = [] := by
        rcases hp with rfl | rfl <;> exact hw
      subst hnil
      exact .inl (hsame (unfinished_sendClosed msg))
  | test => exact .inl (hsame hw)
  | refused hclosed => exact .inr ⟨rfl, .inr ⟨hclosed, msg.fail_ne_write _⟩⟩
  | unencodable he =>
      cases msg with
      | plain m plain =>
          cases Progress.eq_nil_of_plain hw
          exact .inl (hsame rfl)
      | content c =>
          rw [Outgoing.frame, ((hmsg c rfl).2 _).result_eq] at he
          cases he
  | broken => exact .inr ⟨rfl, .inl rfl⟩
  | @wrote cursor c hc =>
      subst hc
      rcases Content.afterWrite_progress (hmsg c rfl).1 hw with ⟨hcomplete, hafter⟩ | hafter
      · rw [hafter]
        exact .inl (hone hcomplete rfl)
      · exact .inl ⟨[], _, by simp, by simp [hwritten], hafter⟩
  | @sent cursor m plain hc | @unflushed cursor m plain hc =>
      subst hc
      cases Progress.eq_nil_of_plain hw
      exact .inl (hone (.plain plain) rfl)
  | flush => exact .inl (hsame hw)

end Amqp091

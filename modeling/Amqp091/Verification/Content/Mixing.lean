import Amqp091.Verification.Content.Crash
import Amqp091.Verification.Content.Sequences
import Mathlib.Algebra.Order.BigOperators.Group.List

/-! # Messages are not mixed on malformed sequences of frames -/

namespace Amqp091

open ByteCodec

variable {rt : GoRuntime}

/-! ## Sequences without a panic -/

/-- Frames of the kinds a channel handles, with a size a slice can have. -/
def Frame.Storable (rt : GoRuntime) : Frame → Prop
  | .header _ _ _ size _ => size.toNat ≤ rt.maxAlloc
  | .heartbeat _ => False
  | _ => True

def Frame.bodyLength : Frame → ℕ
  | .body _ chunk => chunk.length
  | _ => 0

/-- The runtime can make a buffer for all the bytes of the frames. -/
def Growable (rt : GoRuntime) (frames : List Frame) : Prop :=
  ∀ cap n, n ≤ (frames.map Frame.bodyLength).sum → rt.grow cap n ≤ rt.maxAlloc

theorem Growable.of_sublist {fs gs : List Frame} (h : Growable rt gs) (hsublist : fs.Sublist gs) :
    Growable rt fs := by
  intro cap n hn
  have hsum := (hsublist.map Frame.bodyLength).sum_le_sum fun _ _ => Nat.zero_le _
  exact h cap n (hn.trans hsum)

theorem sum_bodyLength_bodyFrames (bodies : List (UInt16 × Bytes)) :
    ((bodyFrames bodies).map Frame.bodyLength).sum =
      (bodies.map Prod.snd).flatten.length := by
  simp [bodyFrames, Function.comp_def, Frame.bodyLength]

/-- A frame does not overflow the buffer when what is held can be stored with it. -/
theorem Pending.not_crashes {pending : List Frame} {state : RecvState} {f : Frame}
    (h : Pending rt pending state) (hstorable : ∀ g ∈ pending ++ [f], g.Storable rt)
    (hgrow : Growable rt (pending ++ [f])) : ¬ RecvCrashes rt state f := by
  intro hcrash
  cases f with
  | heartbeat => exact hstorable _ (List.mem_append_right _ List.mem_cons_self)
  | method => cases state <;> exact hcrash
  | header => cases state <;> exact hcrash
  | body channelId chunk =>
      cases h with
      | idle => exact hcrash
      | header => exact hcrash
      | content bodies hcontent hsize hshort hcap =>
          rename_i size properties cap
          -- the header is among the frames that are held
          have hmax : size.toNat ≤ rt.maxAlloc :=
            hstorable _ (List.mem_append_left _ (List.mem_cons_of_mem _ List.mem_cons_self))
          have hgrown : ∀ cap n, n ≤ ((bodies.map Prod.snd).flatten ++ chunk).length →
              rt.grow cap n ≤ rt.maxAlloc := by
            intro cap n hn
            refine hgrow cap n (hn.trans_eq ?_)
            simp [sum_bodyLength_bodyFrames, Frame.bodyLength]
          rcases hcrash with ⟨-, hlt⟩ | ⟨-, -, hlt⟩ | ⟨-, -, hlt⟩
          · exact absurd hmax (Nat.not_le.mpr hlt)
          · refine absurd (hgrown _ chunk.length ?_) (Nat.not_le.mpr hlt)
            simp
          · exact absurd (hgrown _ _ le_rfl) (Nat.not_le.mpr hlt)

/-- The receiver gets through frames whose bodies can be stored. -/
theorem Pending.survives {pending frames : List Frame} {state : RecvState}
    (h : Pending rt pending state) (hstorable : ∀ f ∈ pending ++ frames, f.Storable rt)
    (hgrow : Growable rt (pending ++ frames)) :
    ∃ state' outs, recvRun rt state frames = some (state', outs) := by
  induction frames generalizing pending state with
  | nil => exact ⟨state, [], rfl⟩
  | cons f frames ih =>
      have hsplit : pending ++ f :: frames = pending ++ [f] ++ frames := by simp
      rw [hsplit] at hstorable hgrow
      cases hrecv : recv rt state f with
      | none =>
          refine absurd ((recv_eq_none state f).mp hrecv) (h.not_crashes ?_ ?_)
          · exact fun g hg => hstorable g (List.mem_append_left _ hg)
          · exact hgrow.of_sublist (List.sublist_append_left _ _)
      | some result =>
          obtain ⟨mid, out⟩ := result
          obtain ⟨next, hnext, hsuffix⟩ := (h.step hrecv).pending
          have hsublist := hsuffix.sublist.append_right frames
          obtain ⟨last, outs, hrun⟩ := ih hnext
            (fun g hg => hstorable g (hsublist.subset hg)) (hgrow.of_sublist hsublist)
          exact ⟨last, out.toList ++ outs, recvRun_cons hrecv hrun⟩

/-! ## The fields of the channel -/

/-- Every sequence of frames, up to a panic, splits into methods without content, the
consecutive frames of messages, and dropped frames, and this is what is dispatched. Without
the dropped frames the same is dispatched. The frames of a message are dispatched whatever
came before, and what comes after them is handled as on a new channel. There is no panic
as long as the bodies can be stored. -/
theorem messages_not_mixed (rt : GoRuntime) (frames : List Frame) :
    (∃ front rest kept, frames = front ++ rest ∧
      ((Reassembly.start.run rt frames).2.isSome → rest = []) ∧
      Parse front kept (Reassembly.start.run rt frames).1 ∧
      (Reassembly.start.run rt kept).1 = (Reassembly.start.run rt frames).1) ∧
    (∀ front segment rest out, frames = front ++ (segment ++ rest) → Formed segment out →
      (Reassembly.start.run rt (front ++ segment)).2.isSome →
      (Reassembly.start.run rt frames).1 =
        (Reassembly.start.run rt front).1 ++ out :: (Reassembly.start.run rt rest).1) ∧
    ((∀ f ∈ frames, f.Storable rt) →
      (∀ cap n, n ≤ (frames.map Frame.bodyLength).sum → rt.grow cap n ≤ rt.maxAlloc) →
      (Reassembly.start.run rt frames).2.isSome) := by
  have hstart := Reassembly.refines_start
  refine ⟨?_, ?_, ?_⟩
  · obtain ⟨front, rest, state, hsplit, hrun, hrest⟩ := hstart.survived rt frames
    obtain ⟨kept, hparse, hkept⟩ := Pending.idle.parse rfl hrun
    obtain ⟨ch, hch, -⟩ := hstart.run hkept
    exact ⟨front, rest, kept, hsplit, hrest, hparse, by rw [hch]⟩
  · rintro front segment rest out rfl hformed hsome
    obtain ⟨survived, lost, state, hsplit, hrun, hlost⟩ :=
      hstart.survived rt (front ++ segment)
    rw [hlost hsome, List.append_nil] at hsplit
    subst hsplit
    obtain ⟨mid, outs, outs', hfront, hsegment, houts⟩ := recvRun_append_eq_some hrun
    obtain ⟨rfl, rfl⟩ := hformed.run hsegment
    obtain ⟨chFront, hchFront, -⟩ := hstart.run hfront
    obtain ⟨ch, hch, hidle⟩ := hstart.run (recvRun_append hfront hsegment)
    rw [← List.append_assoc, Reassembly.run_append hch, hchFront,
      hidle.run_fst_eq hstart rest, List.append_assoc]
    rfl
  · intro hstorable hgrow
    obtain ⟨state, outs, hrun⟩ := Pending.idle.survives hstorable hgrow
    obtain ⟨ch, hch, -⟩ := hstart.run hrun
    rw [hch]
    rfl

/-- A body in the place of the header, a header behind it, and then a message in two bodies. -/
theorem messages_not_mixed_dropped :
    let deliver : Message := ⟨.basicDeliver, ([], (1 : UInt64), #v[false], [], [], ())⟩
    (Reassembly.start.run .exact [.method 1 60 60 (some deliver), .body 1 [9],
        .header 1 60 0 4 {}, .method 1 60 60 (some deliver), .header 1 60 0 2 {}, .body 1 [1],
        .body 1 [2]]).1 = [.content deliver {} [1, 2]] := by
  intro deliver
  have hreaches : FirstReaches (2 : UInt64).toNat ([(1, [1]), (1, [2])].map Prod.snd) :=
    FirstReaches.concat (show [[1]].flatten.length < 2 by decide) (by decide)
  have hformed : Formed [.method 1 60 60 (some deliver), .header 1 60 0 2 {}, .body 1 [1],
      .body 1 [2]] (.content deliver {} [1, 2]) :=
    .mk [(1, [1]), (1, [2])] rfl hreaches
  have hmessage := (messages_not_mixed .exact _).2.1
    [.method 1 60 60 (some deliver), .body 1 [9], .header 1 60 0 4 {}] _ [] _ rfl hformed
  refine hmessage ((messages_not_mixed .exact _).2.2 ?_ ?_)
  · simp only [List.cons_append, List.nil_append, List.forall_mem_cons]
    have hsizes : (4 : UInt64).toNat ≤ 2 ^ 48 ∧ (2 : UInt64).toNat ≤ 2 ^ 48 := by decide
    exact ⟨trivial, trivial, hsizes.1, trivial, hsizes.2, trivial, trivial, by simp⟩
  · exact fun cap n hn => le_trans hn (by decide)

end Amqp091

import Amqp091.Algorithm.Reassembly
import Amqp091.Verification.Content.Reassembly

/-! # The fields that survive a reset are not used

The receive functions read a field of the channel only in states in which it was set for
the message at hand. The channel therefore behaves like the machine whose states hold just
those fields. -/

namespace Amqp091

open ByteCodec

variable {rt : GoRuntime}

namespace Reassembly

/-- The fields of the channel hold what the state holds, and others whatever they like. -/
inductive Refines : Reassembly → RecvState → Prop
  | recvMethod (message : Option Message) (header : Option (UInt64 × Properties)) (body : Bytes)
      (cap : ℕ) : Refines ⟨.recvMethod, message, header, body, cap⟩ .recvMethod
  | recvHeader (message : Message) (header : Option (UInt64 × Properties)) :
      Refines ⟨.recvHeader, some message, header, [], 0⟩ (.recvHeader message)
  | recvContent (message : Message) (size : UInt64) (properties : Properties) (body : Bytes)
      (cap : ℕ) :
      Refines ⟨.recvContent, some message, some (size, properties), body, cap⟩
        (.recvContent message size properties body cap)

theorem refines_start : Refines start .recvMethod := .recvMethod none none [] 0

/-- Two results agree: both are panics, or the outputs are equal and the states related. -/
def Agrees (c : StepResult) (a : RecvResult) : Prop :=
  (c = none ∧ a = none) ∨
    ∃ ch state out, c = some (ch, out) ∧ a = some (state, out) ∧ Refines ch state

theorem agrees_recvMethod (ch : Reassembly) (f : Frame) :
    Agrees (ch.recvMethod f) (Amqp091.recvMethod f) := by
  cases f with
  | method channelId classId methodId m =>
      cases m with
      | none => exact .inr ⟨_, _, _, rfl, rfl, .recvMethod _ _ _ _⟩
      | some m =>
          by_cases hm : m.hasContent = true
          · refine .inr ⟨_, .recvHeader m, none, ?_, ?_, .recvHeader m ch.header⟩
            · rw [recvMethod, if_pos hm]
              rfl
            · rw [Amqp091.recvMethod, if_pos hm]
          · refine .inr ⟨ch.transition .recvMethod, .recvMethod, some (.method (some m)), ?_, ?_,
              .recvMethod _ _ _ _⟩
            · rw [recvMethod, if_neg hm]
            · rw [Amqp091.recvMethod, if_neg hm]
  | header => exact .inr ⟨_, _, _, rfl, rfl, .recvMethod _ _ _ _⟩
  | body => exact .inr ⟨_, _, _, rfl, rfl, .recvMethod _ _ _ _⟩
  | heartbeat => exact .inl ⟨rfl, rfl⟩

/-- A chunk that fits, as for the machine. -/
theorem recvContent_body {message : Message} {size : UInt64} {properties : Properties}
    {body body' chunk : Bytes} {cap cap' cap'' : ℕ} (id : UInt16)
    (hreserve : reserveBody rt size body cap = some (body', cap'))
    (happend : appendCap rt cap' (body' ++ chunk).length = some cap'') :
    recvContent rt ⟨.recvContent, some message, some (size, properties), body, cap⟩
        (.body id chunk) =
      if size ≤ UInt64.ofNat (body' ++ chunk).length then
        some (⟨.recvMethod, some message, some (size, properties), body' ++ chunk, cap''⟩,
          some (.content message properties (body' ++ chunk)))
      else some (⟨.recvContent, some message, some (size, properties), body' ++ chunk, cap''⟩,
        none) := by
  simp only [recvContent, hreserve, happend, Option.bind_eq_bind, Option.bind_some]
  rfl

/-- The channel panics on a chunk where the machine does. -/
theorem recvContent_body_eq_none {message : Message} {size : UInt64} {properties : Properties}
    {body body' chunk : Bytes} {cap cap' : ℕ} (id : UInt16)
    (hreserve : reserveBody rt size body cap = some (body', cap'))
    (happend : appendCap rt cap' (body' ++ chunk).length = none) :
    recvContent rt ⟨.recvContent, some message, some (size, properties), body, cap⟩
        (.body id chunk) = none := by
  simp only [recvContent, hreserve, happend, Option.bind_eq_bind, Option.bind_some,
    Option.bind_none]

/-- A chunk of the body: the channel and the machine agree. -/
theorem agrees_body (message : Message) (size : UInt64) (properties : Properties) (body : Bytes)
    (cap : ℕ) (id : UInt16) (chunk : Bytes) :
    Agrees (recvContent rt ⟨.recvContent, some message, some (size, properties), body, cap⟩
        (.body id chunk))
      (Amqp091.recv rt (.recvContent message size properties body cap) (.body id chunk)) := by
  cases hreserve : reserveBody rt size body cap with
  | none =>
      refine .inl ⟨?_, ?_⟩
      · simp [recvContent, hreserve]
      · simp [Amqp091.recv, Amqp091.recvContent, hreserve]
  | some reserved =>
      obtain ⟨body', cap'⟩ := reserved
      cases happend : appendCap rt cap' (body' ++ chunk).length with
      | none =>
          exact .inl ⟨recvContent_body_eq_none id hreserve happend,
            (recv_body_eq_none id hreserve).mpr happend⟩
      | some cap'' =>
          rw [recvContent_body id hreserve happend, recv_body id hreserve happend]
          by_cases hlong : size ≤ UInt64.ofNat (body' ++ chunk).length
          · rw [if_pos hlong, if_pos hlong]
            exact .inr ⟨_, _, _, rfl, rfl, .recvMethod _ _ _ _⟩
          · rw [if_neg hlong, if_neg hlong]
            exact .inr ⟨_, _, _, rfl, rfl, .recvContent _ _ _ _ _⟩

/-- One frame: the channel and the machine agree. -/
theorem Refines.step {ch : Reassembly} {state : RecvState} (h : Refines ch state)
    (rt : GoRuntime) (f : Frame) :
    Agrees (ch.step rt f) (Amqp091.recv rt state f) := by
  cases h with
  | recvMethod message header body cap => exact agrees_recvMethod _ f
  | recvHeader message header =>
      cases f with
      | method => exact agrees_recvMethod _ _
      | header channelId classId weight size properties =>
          by_cases hsize : size = 0
          · refine .inr ⟨⟨.recvMethod, some message, some (size, properties), [], 0⟩, .recvMethod,
              some (.content message properties []), ?_, ?_, .recvMethod _ _ _ _⟩
            · simp [Reassembly.step, Reassembly.recvHeader, hsize, complete, content, transition]
            · simp [Amqp091.recv, Amqp091.recvHeader, hsize]
          · refine .inr ⟨_, _, none, ?_, ?_, .recvContent message size properties [] 0⟩
            · simp [Reassembly.step, Reassembly.recvHeader, hsize, transition]
            · simp [Amqp091.recv, Amqp091.recvHeader, hsize]
      | body => exact .inr ⟨_, _, _, rfl, rfl, .recvMethod _ _ _ _⟩
      | heartbeat => exact .inl ⟨rfl, rfl⟩
  | recvContent message size properties body cap =>
      cases f with
      | method => exact agrees_recvMethod _ _
      | header => exact .inr ⟨_, _, _, rfl, rfl, .recvMethod _ _ _ _⟩
      | body channelId chunk => exact agrees_body message size properties body cap channelId chunk
      | heartbeat => exact .inl ⟨rfl, rfl⟩

theorem Refines.step_eq_none {ch : Reassembly} {state : RecvState} {f : Frame}
    (h : Refines ch state) (hnone : Amqp091.recv rt state f = none) : ch.step rt f = none := by
  rcases h.step rt f with ⟨hstep, -⟩ | ⟨_, _, _, -, hsome, -⟩
  · exact hstep
  · cases hnone.symm.trans hsome

/-! ## Runs -/

theorem run_cons {ch ch' : Reassembly} {f : Frame} {out : Option Dispatched}
    (hf : ch.step rt f = some (ch', out)) (fs : List Frame) :
    ch.run rt (f :: fs) = (out.toList ++ (ch'.run rt fs).1, (ch'.run rt fs).2) := by
  rw [run, hf]

theorem run_cons_of_none {ch : Reassembly} {f : Frame} (hf : ch.step rt f = none)
    (fs : List Frame) : ch.run rt (f :: fs) = ([], none) := by
  rw [run, hf]

theorem run_append {ch ch' : Reassembly} {fs : List Frame} {outs : List Dispatched}
    (hfs : ch.run rt fs = (outs, some ch')) (gs : List Frame) :
    ch.run rt (fs ++ gs) = (outs ++ (ch'.run rt gs).1, (ch'.run rt gs).2) := by
  induction fs generalizing ch outs with
  | nil =>
      cases hfs
      rfl
  | cons f fs ih =>
      cases hf : ch.step rt f with
      | none =>
          rw [run_cons_of_none hf] at hfs
          cases hfs
      | some result =>
          obtain ⟨mid, out⟩ := result
          rw [run_cons hf] at hfs
          obtain ⟨rfl, hlast⟩ := Prod.mk.inj hfs
          rw [List.cons_append, run_cons hf, ih (Prod.ext rfl hlast), List.append_assoc]

/-- What a channel dispatches depends on the state of the machine only. -/
theorem Refines.run_fst_eq {ch ch' : Reassembly} {state : RecvState} (h : Refines ch state)
    (h' : Refines ch' state) (frames : List Frame) :
    (ch.run rt frames).1 = (ch'.run rt frames).1 := by
  induction frames generalizing ch ch' state with
  | nil => rfl
  | cons f frames ih =>
      rcases h.step rt f with ⟨hnone, hrecv⟩ | ⟨mid, next, out, hstep, hrecv, hmid⟩
      · rcases h'.step rt f with ⟨hnone', -⟩ | ⟨_, _, _, -, hrecv', -⟩
        · rw [run_cons_of_none hnone, run_cons_of_none hnone']
        · cases hrecv.symm.trans hrecv'
      · rcases h'.step rt f with ⟨-, hrecv'⟩ | ⟨mid', next', out', hstep', hrecv', hmid'⟩
        · cases hrecv.symm.trans hrecv'
        · cases hrecv.symm.trans hrecv'
          rw [run_cons hstep, run_cons hstep', ih hmid hmid']

/-- A run the machine gets through is a run of the channel. -/
theorem Refines.run {ch : Reassembly} {state state' : RecvState} {frames : List Frame}
    {outs : List Dispatched} (h : Refines ch state)
    (hrun : recvRun rt state frames = some (state', outs)) :
    ∃ ch', ch.run rt frames = (outs, some ch') ∧ Refines ch' state' := by
  induction frames generalizing ch state outs with
  | nil =>
      cases hrun
      exact ⟨ch, rfl, h⟩
  | cons f frames ih =>
      obtain ⟨mid, out, rest, hf, hrest, rfl⟩ := recvRun_cons_eq_some hrun
      rcases h.step rt f with ⟨-, hnone⟩ | ⟨chMid, mid', out', hstep, hrecv, hmid⟩
      · cases hf.symm.trans hnone
      · cases hf.symm.trans hrecv
        obtain ⟨ch', hch', hlast⟩ := ih hmid hrest
        exact ⟨ch', by rw [run_cons hstep, hch'], hlast⟩

/-- What the channel dispatches up to a panic is what the machine dispatches for the frames
before the one that panics. -/
theorem Refines.survived {ch : Reassembly} {state : RecvState} (h : Refines ch state)
    (rt : GoRuntime) (frames : List Frame) :
    ∃ front rest state', frames = front ++ rest ∧
      recvRun rt state front = some (state', (ch.run rt frames).1) ∧
      ((ch.run rt frames).2.isSome → rest = []) := by
  induction frames generalizing ch state with
  | nil => exact ⟨[], [], state, rfl, rfl, fun _ => rfl⟩
  | cons f frames ih =>
      rcases h.step rt f with ⟨hnone, -⟩ | ⟨mid, state', out, hstep, hrecv, hmid⟩
      · refine ⟨[], f :: frames, state, rfl, ?_, ?_⟩
        · rw [run_cons_of_none hnone]
          rfl
        · rw [run_cons_of_none hnone]
          exact fun hsome => absurd hsome (by simp)
      · obtain ⟨front, rest, last, hsplit, hrun, hrest⟩ := ih hmid
        refine ⟨f :: front, rest, last, by rw [hsplit, List.cons_append], ?_, ?_⟩
        · rw [run_cons hstep]
          exact recvRun_cons hrecv hrun
        · rw [run_cons hstep]
          exact hrest

/-- A run of the channel without a panic is a run of the machine. -/
theorem Refines.recvRun {ch ch' : Reassembly} {state : RecvState} {frames : List Frame}
    {outs : List Dispatched} (h : Refines ch state) (hrun : ch.run rt frames = (outs, some ch')) :
    ∃ state', Amqp091.recvRun rt state frames = some (state', outs) ∧ Refines ch' state' := by
  obtain ⟨front, rest, state', hsplit, hfront, hrest⟩ := h.survived rt frames
  rw [hrun] at hfront hrest
  rw [hrest rfl, List.append_nil] at hsplit
  subst hsplit
  obtain ⟨ch'', hrun', hstate'⟩ := h.run hfront
  cases hrun.symm.trans hrun'
  exact ⟨state', hfront, hstate'⟩

end Reassembly

end Amqp091

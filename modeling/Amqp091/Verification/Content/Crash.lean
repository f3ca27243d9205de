import Amqp091.Algorithm.Demux
import Amqp091.Algorithm.ReadFrame
import Amqp091.Verification.Content.Equations

/-! # Crashes of the connection's reader -/

namespace Amqp091

open ByteCodec

variable {rt : GoRuntime}

/-- The body buffer cannot be made, or cannot be enlarged, for a chunk. -/
def BodyOverflows (rt : GoRuntime) (size : UInt64) (body chunk : Bytes) (cap : ℕ) : Prop :=
  (cap = 0 ∧ rt.maxAlloc < size.toNat) ∨
  (cap = 0 ∧ size.toNat < chunk.length ∧ rt.maxAlloc < rt.grow size.toNat chunk.length) ∨
  (cap ≠ 0 ∧ cap < (body ++ chunk).length ∧ rt.maxAlloc < rt.grow cap (body ++ chunk).length)

/-- A frame the receive function of a channel panics on. -/
def RecvCrashes (rt : GoRuntime) : RecvState → Frame → Prop
  | _, .heartbeat _ => True
  | .recvContent _ size _ body cap, .body _ chunk => BodyOverflows rt size body chunk cap
  | _, _ => False

theorem recvMethod_eq_none {f : Frame} : recvMethod f = none ↔ ∃ id, f = .heartbeat id := by
  cases f with
  | method channelId classId methodId m =>
      cases m with
      | none => simp [recvMethod]
      | some m => by_cases hm : m.hasContent <;> simp [recvMethod, hm]
  | header => simp [recvMethod]
  | body => simp [recvMethod]
  | heartbeat channelId => simp [recvMethod]

/-- Receiving a body chunk panics exactly when the buffer overflows. -/
theorem recv_body_crashes {message : Message} {size : UInt64} {properties : Properties}
    {body chunk : Bytes} {cap : ℕ} {id : UInt16} :
    recv rt (.recvContent message size properties body cap) (.body id chunk) = none ↔
      BodyOverflows rt size body chunk cap := by
  by_cases hnone : cap = 0 ∧ rt.maxAlloc < size.toNat
  · have hreserve := (reserveBody_eq_none body).mpr hnone
    rw [recv, recvContent, hreserve]
    exact iff_of_true rfl (.inl hnone)
  · by_cases hcap : cap = 0
    · have hmax : size.toNat ≤ rt.maxAlloc := by simpa [hcap] using hnone
      have hreserve : reserveBody rt size body cap = some ([], size.toNat) := by
        simp [reserveBody, hcap, hmax]
      rw [recv_body_eq_none id hreserve, appendCap_eq_none]
      simp [BodyOverflows, hcap, Nat.not_lt.mpr hmax]
    · have hreserve : reserveBody rt size body cap = some (body, cap) := by
        simp [reserveBody, hcap]
      rw [recv_body_eq_none id hreserve, appendCap_eq_none]
      simp [BodyOverflows, hcap]

theorem recv_eq_none (state : RecvState) (f : Frame) :
    recv rt state f = none ↔ RecvCrashes rt state f := by
  cases state with
  | recvMethod =>
      rw [recv, recvMethod_eq_none]
      cases f <;> simp [RecvCrashes]
  | recvHeader message =>
      cases f with
      | method channelId classId methodId m =>
          rw [recv, recvHeader, recvMethod_eq_none]
          simp [RecvCrashes]
      | header channelId classId weight size properties =>
          by_cases hsize : size = 0 <;> simp [recv, recvHeader, RecvCrashes, hsize]
      | body => simp [recv, recvHeader, RecvCrashes]
      | heartbeat => simp [recv, recvHeader, RecvCrashes]
  | recvContent message size properties body cap =>
      cases f with
      | method channelId classId methodId m =>
          rw [recv, recvContent, recvMethod_eq_none]
          simp [RecvCrashes]
      | header => simp [recv, recvContent, RecvCrashes]
      | body channelId chunk => exact recv_body_crashes
      | heartbeat => simp [recv, recvContent, RecvCrashes]

/-! ## The reader -/

namespace ReaderState

/-- Notifications that the connection is blocked, or no longer so. -/
def IsBlockNotice : Frame → Prop
  | .method _ _ _ (some m) => m.method = .connectionBlocked ∨ m.method = .connectionUnblocked
  | _ => False

/-- The events the reader panics on: a block notice on channel 0 when the listeners are
closed already, and on a registered channel a frame its receive function panics on. -/
def Crashes (rt : GoRuntime) (c : ReaderState) : Event → Prop
  | .frame f =>
      (f.channel = 0 ∧ IsBlockNotice f ∧ c.destroyed = true ∧ 0 < c.blocks) ∨
      (f.channel ≠ 0 ∧ ∃ state, c.channels f.channel = some state ∧ RecvCrashes rt state f)
  | _ => False

theorem notifyBlocks_eq_none {c : ReaderState} :
    c.notifyBlocks = none ↔ c.destroyed = true ∧ 0 < c.blocks := by
  unfold notifyBlocks
  split <;> simp_all

theorem dispatch0_eq_none {c : ReaderState} {f : Frame} :
    c.dispatch0 f = none ↔ IsBlockNotice f ∧ c.destroyed = true ∧ 0 < c.blocks := by
  cases f with
  | method channelId classId methodId m =>
      cases m with
      | none => simp [dispatch0, IsBlockNotice]
      | some m =>
          obtain ⟨method, args⟩ := m
          by_cases hblock : method = .connectionBlocked ∨ method = .connectionUnblocked
          · have hdispatch : c.dispatch0 (.method channelId classId methodId
                (some ⟨method, args⟩)) = c.notifyBlocks := by
              rcases hblock with rfl | rfl <;> rfl
            rw [hdispatch, notifyBlocks_eq_none]
            exact (and_iff_right hblock).symm
          · refine iff_of_false ?_ fun h => hblock h.1
            simp only [dispatch0]
            split <;> simp_all
  | header => simp [dispatch0, IsBlockNotice]
  | body => simp [dispatch0, IsBlockNotice]
  | heartbeat => simp [dispatch0, IsBlockNotice]

theorem dispatchN_eq_none {c : ReaderState} {f : Frame} :
    c.dispatchN rt f = none ↔
      ∃ state, c.channels f.channel = some state ∧ RecvCrashes rt state f := by
  unfold dispatchN
  cases hchannel : c.channels f.channel with
  | none => simp
  | some state =>
      have hcrash : recv rt state f = none ↔ RecvCrashes rt state f := recv_eq_none state f
      cases hrecv : recv rt state f with
      | none =>
          rw [hrecv] at hcrash
          simp only [hrecv]
          exact iff_of_true trivial ⟨state, rfl, hcrash.mp rfl⟩
      | some result =>
          rw [hrecv] at hcrash
          simp only [hrecv]
          refine iff_of_false (Option.some_ne_none _) ?_
          rintro ⟨state', heq, h⟩
          cases heq
          exact Option.some_ne_none _ (hcrash.mpr h)

/-- One event makes the reader panic exactly when it is one of those. -/
theorem next_eq_none {c : ReaderState} {e : Event} : c.next rt e = none ↔ c.Crashes rt e := by
  cases e with
  | frame f =>
      by_cases hzero : f.channel = 0
      · simp [next, demux, hzero, dispatch0_eq_none, Crashes]
      · simp [next, demux, hzero, dispatchN_eq_none, Crashes]
  | allocateChannel id => simp [next, Crashes]
  | releaseChannel id => simp [next, Crashes]
  | notifyBlocked => simp [next, Crashes]
  | setClosed => simp [next, Crashes]
  | shutdown => simp [next, Crashes]

/-- The reader gets through a sequence of events, from whatever state its channels are
in, exactly when no event along it meets the condition for a panic. -/
theorem run_isSome_iff (rt : GoRuntime) (c : ReaderState) (events : List Event) :
    (c.run rt events).isSome ↔ ∀ front e rest, events = front ++ e :: rest →
      ∀ c', c.run rt front = some c' → ¬ c'.Crashes rt e := by
  induction events generalizing c with
  | nil =>
      refine iff_of_true rfl ?_
      intro front e rest h
      simp at h
  | cons first events ih =>
      have hrun : ∀ es, c.run rt (first :: es) = (c.next rt first).bind fun m => m.run rt es :=
        fun es => List.foldlM_cons
      constructor
      · intro h front e rest hsplit c' hc' hcrash
        rw [hrun] at h
        cases hnext : c.next rt first with
        | none =>
            rw [hnext] at h
            cases h
        | some m =>
            rw [hnext] at h
            cases front with
            | nil =>
                cases hc'
                obtain ⟨rfl, -⟩ := List.cons_eq_cons.mp hsplit
                rw [next_eq_none.mpr hcrash] at hnext
                cases hnext
            | cons e' front =>
                obtain ⟨rfl, hevents⟩ := List.cons_eq_cons.mp hsplit
                rw [hrun, hnext] at hc'
                exact (ih m).mp h front e rest hevents c' hc' hcrash
      · intro h
        rw [hrun]
        cases hnext : c.next rt first with
        | none => exact absurd (next_eq_none.mp hnext) (h [] first events rfl c rfl)
        | some m =>
            refine (ih m).mpr fun front e rest hsplit c' hc' => ?_
            refine h (first :: front) e rest (by rw [hsplit]; rfl) c' ?_
            rw [hrun, hnext]
            exact hc'

/-- A heartbeat on a registered channel, which the frame decoder accepts. -/
theorem heartbeat_on_channel_panics :
    readFrame [8, 0, 1, 0, 0, 0, 0, 206] = .ok ⟨some (.heartbeat 1), none⟩ [] ∧
    ReaderState.run .exact
        ⟨fun id => if id = 1 then some .recvMethod else none, 0, false, false⟩
        [.frame (.heartbeat 1)] = none :=
  ⟨rfl, rfl⟩

end ReaderState

end Amqp091

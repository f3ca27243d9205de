import Amqp091.Algorithm.Locking

/-! # The locks of the library are taken in one order -/

namespace Amqp091

open Concurrency Transition

/-- The order in which the locks are taken inside of each other. -/
def LibraryLock.rank : LibraryLock → ℕ
  | .connectionDestructor => 0
  | .connectionM => 1
  | .channelDestructor _ => 2
  | .channelM _ => 3
  | .notifyM _ => 4
  | .consumers _ => 5
  | .confirms _ => 5
  | .publishedMut _ => 6
  | .deferredConfirmations _ => 7
  | .sendM => 8
  | .confirmM _ => 9

theorem LibraryLock.rank_lt (m : LibraryLock) : m.rank < 10 := by
  cases m <;> simp [rank]

namespace Locking

open LibraryLock

/-! ## Each function -/

theorem ordered_connectionSend {b : ℕ} (hb : b ≤ 8) : connectionSend.Ordered rank b :=
  ⟨trivial, ⟨hb, trivial⟩, trivial⟩

theorem ordered_call {b : ℕ} (hb : b ≤ 8) : call.Ordered rank b :=
  ⟨ordered_connectionSend hb, trivial⟩

theorem ordered_confirmsPublish (ch : ℕ) {b : ℕ} (hb : b ≤ 6) :
    (confirmsPublish ch).Ordered rank b := by
  refine ⟨hb, trivial, ?_, trivial⟩
  simp [rank]

theorem ordered_confirmsOne (ch : ℕ) {b : ℕ} (hb : b ≤ 5) :
    (confirmsOne ch).Ordered rank b := by
  refine ⟨hb, ⟨?_, trivial⟩, trivial, ?_, trivial⟩ <;> simp [rank]

theorem ordered_confirmsClose (ch : ℕ) {b : ℕ} (hb : b ≤ 5) :
    (confirmsClose ch).Ordered rank b := by
  refine ⟨hb, ⟨?_, trivial⟩, trivial⟩
  simp [rank]

theorem ordered_consumers (ch : ℕ) {b : ℕ} (hb : b ≤ 5) : (consumers ch).Ordered rank b :=
  ⟨hb, trivial⟩

theorem ordered_channelShutdown (ch : ℕ) {b : ℕ} (hb : b ≤ 2) :
    (channelShutdown ch).Ordered rank b := by
  refine ⟨trivial, hb, trivial, ?_, ?_, trivial, ?_, trivial, ⟨trivial, ?_⟩, trivial⟩
  · simp [rank]
  · simp [rank]
  · exact ordered_consumers ch (by simp [rank])
  · exact ordered_confirmsClose ch (by simp [rank])

theorem ordered_connectionShutdown (channels : List ℕ) :
    (connectionShutdown channels).Ordered rank 0 := by
  refine ⟨trivial, Nat.le_refl 0, trivial, ?_, trivial, ?_, trivial⟩
  · simp [rank]
  · apply LockProg.ordered_sequence
    intro p hp
    obtain ⟨ch, -, rfl⟩ := List.mem_map.mp hp
    exact ordered_channelShutdown ch (by simp [rank])

theorem ordered_registry {b : ℕ} (hb : b ≤ 1) : registry.Ordered rank b := ⟨hb, trivial⟩

theorem ordered_closeChannel (ch : ℕ) : (closeChannel ch).Ordered rank 0 :=
  ⟨ordered_channelShutdown ch (by simp), ordered_registry (by simp)⟩

theorem ordered_publish (ch : ℕ) : (publish ch).Ordered rank 0 := by
  refine ⟨trivial, Nat.zero_le _, ⟨trivial, ?_⟩, ?_, trivial, ?_⟩
  · exact ordered_confirmsPublish ch (by simp [rank])
  · exact ordered_connectionSend (by simp [rank])
  · exact ordered_confirmsPublish ch (by simp [rank])

theorem ordered_dispatch (ch : ℕ) (d : Dispatch) : (dispatch ch d).Ordered rank 0 := by
  cases d with
  | close =>
      exact ⟨⟨Nat.zero_le _, ordered_connectionSend (by simp [rank])⟩, ordered_closeChannel ch⟩
  | flow => exact ⟨⟨Nat.zero_le _, trivial⟩, ordered_connectionSend (by simp)⟩
  | cancel => exact ⟨⟨Nat.zero_le _, trivial⟩, ordered_consumers ch (by simp)⟩
  | basicReturn => exact ⟨Nat.zero_le _, trivial⟩
  | confirm => exact ⟨trivial, ordered_confirmsOne ch (by simp)⟩
  | deliver => exact ordered_consumers ch (by simp)
  | rpc => trivial

theorem ordered_demux (f : Incoming) : (demux f).Ordered rank 0 := by
  cases f with
  | connectionClose channels =>
      exact ⟨ordered_connectionSend (by simp), ordered_connectionShutdown channels⟩
  | connection => trivial
  | channel ch d => exact ⟨⟨Nat.zero_le _, trivial⟩, ordered_dispatch ch d⟩
  | unknownChannel =>
      exact ⟨⟨Nat.zero_le _, trivial⟩, trivial, ordered_connectionSend (by simp)⟩

theorem ordered_reader (frames : List Incoming) (channels : List ℕ) :
    (reader frames channels).Ordered rank 0 := by
  refine ⟨?_, ordered_connectionShutdown channels⟩
  apply LockProg.ordered_sequence
  intro p hp
  obtain ⟨f, -, rfl⟩ := List.mem_map.mp hp
  exact ⟨trivial, ordered_demux f, trivial⟩

/-- Every goroutine takes the locks in ascending order. -/
theorem Operation.ordered (op : Operation) : op.code.Ordered rank 0 := by
  have hcall : Locking.call.Ordered rank 0 := ordered_call (by simp)
  have hsend : connectionSend.Ordered rank 0 := ordered_connectionSend (by simp)
  have hregistry : registry.Ordered rank 0 := ordered_registry (by simp)
  have hconsumers : ∀ ch, (consumers ch).Ordered rank 0 := fun ch =>
    ordered_consumers ch (by simp)
  cases op with
  | openConnection =>
      exact ⟨hsend, trivial, hcall, trivial, hcall, trivial, hregistry, hregistry, hsend, trivial,
        hcall⟩
  | reader frames channels => exact ordered_reader frames channels
  | heartbeater => exact ⟨trivial, hsend⟩
  | connectionShutdown channels => exact ordered_connectionShutdown channels
  | connectionClose channels =>
      exact ⟨trivial, ⟨trivial, hcall⟩, ordered_connectionShutdown channels⟩
  | connectionCall => exact hcall
  | connectionNotify => exact hregistry
  | openChannel => exact ⟨hregistry, trivial, hcall, trivial, hregistry⟩
  | channelClose ch => exact ⟨trivial, hcall, ordered_closeChannel ch⟩
  | call ch => exact hcall
  | publish ch => exact ordered_publish ch
  | acknowledge ch => exact ⟨Nat.zero_le _, ordered_connectionSend (by simp [rank])⟩
  | notify ch => exact ⟨Nat.zero_le _, trivial⟩
  | notifyPublish ch => exact ⟨Nat.zero_le _, trivial, by simp [rank], trivial⟩
  | consume ch => exact ⟨trivial, hconsumers ch, hcall, trivial, hconsumers ch⟩
  | cancel ch => exact ⟨hcall, trivial, hconsumers ch⟩
  | confirm ch => exact ⟨hcall, trivial, Nat.zero_le _, trivial⟩
  | getNextPublishSeqNo ch => exact ⟨Nat.zero_le _, trivial⟩

/-! ## Any number of goroutines -/

theorem valid_next {s s' : LockSystem LibraryLock} {a : Action} (h : s.Valid rank)
    (hnext : next s a = some s') : s'.Valid rank := by
  cases a with
  | start op =>
      apply h.next (a := .spawn op.code) _ hnext
      rintro p ⟨⟩
      exact op.ordered
  | step t choice =>
      apply h.next (a := .step t choice) _ hnext
      simp

/-- In every interleaving of any number of goroutines that use a connection and its channels
nobody waits for locks in a circle: whoever waits for a lock waits in the end for a goroutine
that does not. As long as a goroutine has something to do, the locks let one of them go on. -/
theorem locks_not_circular {actions : List Action} {s : LockSystem LibraryLock}
    (h : Run next (fun _ _ => True) LockSystem.empty actions s) :
    (∀ t, s.WaitEnds t) ∧
    ∀ (t : ℕ) (task : LockTask LibraryLock) (tasks : List (LockTask LibraryLock)),
      s.threads[t]? = some (task :: tasks) → ∃ u, ∀ choice, (next s (.step u choice)).isSome := by
  have hvalid : s.Valid rank := by
    apply h.invariant LockSystem.valid_empty
    intro s a s' hs _ hnext
    exact valid_next hs hnext
  constructor
  · exact hvalid.waitEnds rank_lt
  · intro t task tasks ht
    exact hvalid.progress rank_lt ht

/-- The connection is shut down while a message is being published: the shutdown has the
connection's mutex and waits for the channel's. -/
theorem locks_not_circular_shutdown :
    ∃ s, Run next (fun _ _ => True) LockSystem.empty
        ([.start (.publish 1), .step 0 false, .step 0 false,
          .start (.connectionShutdown [1])] ++ List.replicate 11 (.step 1 false)) s ∧
      s.holder .connectionM = some 1 ∧ s.waits 1 = some (.channelM 1) ∧
      s.WaitEnds 1 ∧ ∃ u, ∀ choice, (next s (.step u choice)).isSome :=
  have h : Run next (fun _ _ => True) LockSystem.empty
      ([.start (.publish 1), .step 0 false, .step 0 false,
        .start (.connectionShutdown [1])] ++ List.replicate 11 (.step 1 false)) _ := .of_exec rfl
  ⟨_, h, rfl, rfl, (locks_not_circular h).1 1, (locks_not_circular h).2 1 _ _ rfl⟩

end Locking

end Amqp091

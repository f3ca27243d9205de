import Amqp091.Verification.Rpc.Link

/-! # Shutdowns that have started

A shutdown has started when its body is entered, when a failed write has left one behind or
when the reader is about to call it. From there on it comes to its end by itself. -/

namespace Amqp091

open Transition

/-- The steps of `shutdown` and of those who are about to call it. -/
def RpcAction.isShutdownStep : RpcAction → Bool
  | .readerShutdown | .spawnedShutdown _ | .sendError | .closeErrors | .closeTransport
  | .finish => true
  | _ => false

namespace RpcLink

variable {s s' : RpcLink}

/-- The connection is marked closed and its transport is closed. -/
def Ended (s : RpcLink) : Prop := s.closed = true ∧ s.stage.hasClosedTransport = true

/-- What has started so far leads to the end, without anything new. -/
def Ending (s : RpcLink) : Prop :=
  ∃ as s', Run next (fun _ a => a.isShutdownStep = true) s as s' ∧ s'.Ended

def started (s : RpcLink) : Bool :=
  s.stage ≠ .idle || !s.spawned.isEmpty || s.reader.isFailing

/-- The flag is set by `shutdown` alone, and the reader stops after one. -/
structure Settled (s : RpcLink) : Prop where
  coherent : s.Coherent
  closed : s.closed = true → s.stage ≠ .idle
  stopped : s.reader = .stopped → s.stage ≠ .idle

/-! ## A started shutdown ends -/

theorem Ending.cons {a : RpcAction} (ha : a.isShutdownStep = true) (hnext : s.next a = some s')
    (h : s'.Ending) : s.Ending := by
  obtain ⟨as, last, hrun, hended⟩ := h
  exact ⟨a :: as, last, .cons ha hnext hrun, hended⟩

theorem Ended.ending (h : s.Ended) : s.Ending := ⟨[], s, .nil s, h⟩

theorem ending_of_errorsClosed (hclosed : s.closed = true) (hstage : s.stage = .errorsClosed) :
    s.Ending := by
  have hnext : s.next .closeTransport = some { s with stage := .transportClosed } := by
    simp only [next, hstage]
  exact Ending.cons rfl hnext (Ended.ending ⟨hclosed, rfl⟩)

theorem ending_of_sent (hclosed : s.closed = true) (hstage : s.stage = .sent) : s.Ending := by
  have hnext : s.next .closeErrors = some { s with stage := .errorsClosed } := by
    simp only [next, hstage]
  exact Ending.cons rfl hnext (ending_of_errorsClosed hclosed rfl)

theorem ending_of_entered (hclosed : s.closed = true) (hstage : s.stage = .entered) :
    s.Ending := by
  cases herr : s.err with
  | none =>
      have hnext : s.next .closeErrors = some { s with stage := .errorsClosed } := by
        simp only [next, hstage, herr]
      exact Ending.cons rfl hnext (ending_of_errorsClosed hclosed rfl)
  | some e =>
      have hnext : s.next .sendError = some { s with stage := .sent, errors := some e } := by
        simp only [next, hstage, herr]
      exact Ending.cons rfl hnext (ending_of_sent hclosed rfl)

/-- From every stage but the first one. -/
theorem ending_of_stage (hclosed : s.closed = true) (hstage : s.stage ≠ .idle) : s.Ending := by
  cases hs : s.stage with
  | idle => exact absurd hs hstage
  | entered => exact ending_of_entered hclosed hs
  | sent => exact ending_of_sent hclosed hs
  | errorsClosed => exact ending_of_errorsClosed hclosed hs
  | transportClosed => exact Ended.ending ⟨hclosed, by rw [hs]; rfl⟩
  | finished => exact Ended.ending ⟨hclosed, by rw [hs]; rfl⟩

theorem stage_shutdown (s : RpcLink) (err : Option Error) : (s.shutdown err).stage ≠ .idle := by
  rw [shutdown]
  split
  · simp
  · assumption

theorem ending_of_started (h : s.Settled) (hstarted : s.started = true) : s.Ending := by
  by_cases hstage : s.stage = .idle
  · rw [started, hstage, Bool.or_eq_true, Bool.or_eq_true] at hstarted
    rcases hstarted with (hidle | hspawned) | hfailing
    · exact absurd hidle (by decide)
    · -- a write has failed
      have hne : s.spawned ≠ [] := by simpa using hspawned
      obtain ⟨e, rest, hrest⟩ := List.exists_cons_of_ne_nil hne
      have hmem : e ∈ s.spawned := by rw [hrest]; exact List.mem_cons_self
      have hnext : s.next (.spawnedShutdown e) =
          some { s.shutdown (some e) with spawned := s.spawned.erase e } := if_pos hmem
      exact Ending.cons rfl hnext (ending_of_stage (closed_shutdown s _) (stage_shutdown s _))
    · -- the reader has failed or has been told to close
      cases hreader : s.reader with
      | failing e stops =>
          have hnext : s.next .readerShutdown =
              some { s.shutdown (some e) with reader := .closing stops } := by
            simp only [next, hreader]
          exact Ending.cons rfl hnext (ending_of_stage (closed_shutdown s _) (stage_shutdown s _))
      | _ => rw [hreader] at hfailing; cases hfailing
  · exact ending_of_stage (h.coherent.closed hstage) hstage

/-! ## Nothing ends that has not started -/

theorem started_of_stage (h : s.stage ≠ .idle) : s.started = true := by
  rw [started, Bool.or_eq_true, Bool.or_eq_true]
  exact .inl (.inl (decide_eq_true h))

theorem started_of_isShutdownStep {a : RpcAction} (ha : a.isShutdownStep = true)
    (hnext : s.next a = some s') : s.started = true := by
  cases step_of_next hnext with
  | readerShutdown hreader =>
      rw [started, hreader]
      exact Bool.or_true _
  | spawnedShutdown hmem =>
      rw [started, Bool.or_eq_true, Bool.or_eq_true]
      exact .inl (.inr (by simpa using List.ne_nil_of_mem hmem))
  | sendError hstage => exact started_of_stage (by simp [hstage])
  | closeErrors hstage =>
      refine started_of_stage ?_
      rcases hstage with hstage | hstage
      · simp [hstage.1]
      · simp [hstage]
  | closeTransport hstage => exact started_of_stage (by simp [hstage])
  | finish hstage => exact started_of_stage (by simp [hstage])
  | _ => cases ha

theorem started_of_ending (h : s.Settled) (hending : s.Ending) : s.started = true := by
  obtain ⟨as, last, hrun, hended⟩ := hending
  cases hrun with
  | nil => exact started_of_stage (h.closed hended.1)
  | cons ha hnext _ => exact started_of_isShutdownStep ha hnext

theorem ending_iff (h : s.Settled) : s.Ending ↔ s.started = true :=
  ⟨started_of_ending h, ending_of_started h⟩

/-! ## Runs -/

theorem settled_start : Settled start where
  coherent := coherent_start
  closed := fun h => by cases h
  stopped := fun h => by cases h

theorem stage_send (s : RpcLink) (failure : Option String) :
    (s.send failure).1.stage = s.stage ∧ (s.send failure).1.closed = s.closed := by
  rw [send]
  split
  · exact ⟨rfl, rfl⟩
  · cases failure <;> exact ⟨rfl, rfl⟩

theorem Settled.send (h : s.Settled) (failure : Option String) : (s.send failure).1.Settled := by
  obtain ⟨hstage, hclosed⟩ := stage_send s failure
  refine ⟨h.coherent.send failure, ?_, ?_⟩
  · rw [hstage, hclosed]
    exact h.closed
  · rw [hstage, (received_send s failure).2]
    exact h.stopped

/-- After a step that leaves a shutdown behind. -/
theorem settled_of_stage (hcoherent : s.Coherent) (hstage : s.stage ≠ .idle) : s.Settled :=
  ⟨hcoherent, fun _ => hstage, fun _ => hstage⟩

theorem Settled.next {a : RpcAction} (h : s.Settled) (hnext : s.next a = some s') :
    s'.Settled := by
  have hcoherent := h.coherent.next hnext
  by_cases hidle : s.stage = .idle
  · cases step_of_next hnext with
    | reply => exact ⟨hcoherent, h.closed, fun hs => by cases hs⟩
    | @connectionClose failure =>
        exact ⟨hcoherent, (h.send failure).closed, fun hs => by cases hs⟩
    | readError => exact ⟨hcoherent, h.closed, fun hs => by cases hs⟩
    | readerShutdown => exact settled_of_stage hcoherent (stage_shutdown s _)
    | write failure => exact h.send failure
    | spawnedShutdown => exact settled_of_stage hcoherent (stage_shutdown s _)
    | shutdown err => exact settled_of_stage hcoherent (stage_shutdown s _)
    | _ => simp_all
  · exact settled_of_stage hcoherent ((Grows.next h.coherent hnext).err hidle).1

theorem Settled.select {c : Case} {r : Received} (h : s.Settled) (hselect : s.Select c s' r) :
    s'.Settled := by
  obtain ⟨hcoherent, -⟩ := h.coherent.select hselect
  cases hselect with
  | error => exact ⟨hcoherent, h.closed, h.stopped⟩
  | errorsClosed => exact h
  | reply => exact ⟨hcoherent, h.closed, fun hs => by cases hs⟩
  | rpcClosed => exact h

/-- A failed send means that a shutdown has started. -/
theorem Settled.started_of_send (h : s.Settled) {failure : Option String} {e : GoError}
    (hsend : (s.send failure).2 = some e) : (s.send failure).1.started = true := by
  by_cases hclosed : s.closed = true
  · refine started_of_stage ?_
    rw [(stage_send s failure).1]
    exact h.closed hclosed
  · rw [RpcLink.send, if_neg hclosed] at hsend ⊢
    cases failure with
    | none => cases hsend
    | some reason => simp [started, RpcLink.write]

/-- So does whatever a `select` gives but a method. -/
theorem Settled.started_of_select (h : s.Settled) {c : Case} {r : Received}
    (hselect : s.Select c s' r) (hr : ∀ k, r ≠ .reply k) : s'.started = true := by
  apply started_of_stage
  cases hselect with
  | error he => exact (h.coherent.errors _ he).1
  | errorsClosed hclosed =>
      intro hidle
      rw [hidle] at hclosed
      cases hclosed
  | reply => exact absurd rfl (hr _)
  | rpcClosed hstopped => exact h.stopped hstopped

end RpcLink

end Amqp091

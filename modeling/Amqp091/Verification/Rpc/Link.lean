import Amqp091.Algorithm.Rpc
import Amqp091.Shared.Transition
import Mathlib.Tactic.Common

/-! # What the reader and shutdown can do -/

namespace Amqp091

namespace RpcLink

/-- What each action does, with the conditions under which it is enabled. -/
inductive Step (s : RpcLink) : RpcAction → RpcLink → Prop
  | reply {m : Message} (hreader : s.reader = .reading) (hhandled : handled m.method = false) :
      Step s (.reply m)
        { s with received := s.received ++ [m], reader := .handing s.received.length }
  | connectionClose {failure : Option String} {e : Error} (hreader : s.reader = .reading) :
      Step s (.connectionClose failure e) { (s.send failure).1 with reader := .failing e false }
  | readError {reason : String} (hreader : s.reader = .reading) :
      Step s (.readError reason) { s with reader := .failing (frameError reason) true }
  | giveUp {k : ℕ} (hreader : s.reader = .handing k) (hstage : s.stage = .finished) :
      Step s .giveUp { s with reader := .reading }
  | readerShutdown {e : Error} {stops : Bool} (hreader : s.reader = .failing e stops) :
      Step s .readerShutdown { s.shutdown (some e) with reader := .closing stops }
  | shutdownReturn {stops : Bool} (hreader : s.reader = .closing stops)
      (hstage : s.stage = .finished) :
      Step s .shutdownReturn { s with reader := if stops then .stopped else .reading }
  | write (failure : Option String) : Step s (.write failure) (s.send failure).1
  | spawnedShutdown {e : Error} (hmem : e ∈ s.spawned) :
      Step s (.spawnedShutdown e)
        { s.shutdown (some e) with spawned := s.spawned.erase e }
  | shutdown (err : Option Error) : Step s (.shutdown err) (s.shutdown err)
  | sendError {e : Error} (hstage : s.stage = .entered) (herr : s.err = some e) :
      Step s .sendError { s with stage := .sent, errors := some e }
  | closeErrors (hstage : s.stage = .entered ∧ s.err = none ∨ s.stage = .sent) :
      Step s .closeErrors { s with stage := .errorsClosed }
  | closeTransport (hstage : s.stage = .errorsClosed) :
      Step s .closeTransport { s with stage := .transportClosed }
  | finish (hstage : s.stage = .transportClosed) : Step s .finish { s with stage := .finished }

theorem step_of_next {s s' : RpcLink} {a : RpcAction} (h : s.next a = some s') :
    s.Step a s' := by
  cases a with
  | reply m =>
      simp only [next] at h
      split at h
      · split at h <;> cases h
        exact .reply ‹_› (Bool.eq_false_iff.mpr ‹_›)
      · cases h
  | connectionClose failure e =>
      simp only [next] at h
      split at h <;> cases h
      exact .connectionClose ‹_›
  | readError reason =>
      simp only [next] at h
      split at h <;> cases h
      exact .readError ‹_›
  | giveUp =>
      simp only [next] at h
      split at h <;> cases h
      exact .giveUp ‹_› ‹_›
  | readerShutdown =>
      simp only [next] at h
      split at h <;> cases h
      exact .readerShutdown ‹_›
  | shutdownReturn =>
      simp only [next] at h
      split at h <;> cases h
      exact .shutdownReturn ‹_› ‹_›
  | write failure =>
      cases h
      exact .write failure
  | spawnedShutdown e =>
      simp only [next] at h
      split at h <;> cases h
      exact .spawnedShutdown ‹_›
  | shutdown err =>
      cases h
      exact .shutdown err
  | sendError =>
      simp only [next] at h
      split at h <;> cases h
      exact .sendError ‹_› ‹_›
  | closeErrors =>
      simp only [next] at h
      split at h <;> cases h
      · exact .closeErrors (.inl ⟨‹_›, ‹_›⟩)
      · exact .closeErrors (.inr ‹_›)
  | closeTransport =>
      simp only [next] at h
      split at h <;> cases h
      exact .closeTransport ‹_›
  | finish =>
      simp only [next] at h
      split at h <;> cases h
      exact .finish ‹_›

/-! ## What every step does -/

/-- The number of methods that are not on offer any more. -/
def offered (s : RpcLink) : ℕ :=
  match s.reader with
  | .handing k => k
  | _ => s.received.length

structure Coherent (s : RpcLink) : Prop where
  handing : ∀ k, s.reader = .handing k → s.received.length = k + 1
  errors : ∀ e, s.errors = some e → s.stage ≠ .idle ∧ s.err = some e
  closed : s.stage ≠ .idle → s.closed = true

/-- Nothing is forgotten, and `shutdown` does not go back. -/
structure Grows (s s' : RpcLink) : Prop where
  received : s.received <+: s'.received
  offered : s.offered ≤ s'.offered
  closed : s.closed = true → s'.closed = true
  err : s.stage ≠ .idle → s'.stage ≠ .idle ∧ s'.err = s.err
  errorsClosed : s.stage.hasClosedErrors = true → s'.stage.hasClosedErrors = true
  spawned : ∀ e ∈ s.spawned, e ∈ s'.spawned ∨ s'.closed = true

variable {s s' : RpcLink}

theorem coherent_start : Coherent start where
  handing := by simp [start]
  errors := by simp [start]
  closed := fun h => absurd rfl h

theorem Grows.refl (s : RpcLink) : Grows s s :=
  ⟨List.prefix_rfl, Nat.le_refl _, id, fun h => ⟨h, rfl⟩, id, fun _ he => .inl he⟩

theorem Grows.getElem? (h : Grows s s') {k : ℕ} {m : Message} (hm : s.received[k]? = some m) :
    s'.received[k]? = some m := by
  obtain ⟨rest, hrest⟩ := h.received
  rw [← hrest, List.getElem?_append_left (List.getElem?_eq_some_iff.mp hm).1, hm]

/-- A method that is on offer is the last one. -/
theorem Coherent.offered_le (h : s.Coherent) : s.offered ≤ s.received.length := by
  rw [offered]
  split
  · rename_i k hk
    rw [h.handing k hk]
    exact Nat.le_succ k
  · exact Nat.le_refl _

theorem closed_shutdown (s : RpcLink) (err : Option Error) :
    (s.shutdown err).closed = true := by
  rw [shutdown]
  split <;> rfl

theorem Grows.shutdown (s : RpcLink) (err : Option Error) : Grows s (s.shutdown err) := by
  rw [RpcLink.shutdown]
  split
  · rename_i hidle
    refine ⟨List.prefix_rfl, Nat.le_refl _, fun _ => rfl, fun h => absurd hidle h, fun h => ?_,
      fun _ he => .inl he⟩
    rw [hidle] at h
    cases h
  · exact ⟨List.prefix_rfl, Nat.le_refl _, fun _ => rfl, fun h => ⟨h, rfl⟩, id,
      fun _ he => .inl he⟩

theorem Coherent.shutdown (h : s.Coherent) (err : Option Error) : (s.shutdown err).Coherent := by
  rw [RpcLink.shutdown]
  split
  · rename_i hidle
    refine ⟨h.handing, fun e he => ?_, fun _ => rfl⟩
    exact absurd hidle (h.errors e he).1
  · exact ⟨h.handing, h.errors, fun _ => rfl⟩

/-- Where the reader may go without taking a method out of the hands of a call. -/
theorem Grows.reader {r : RpcReader} (h : Grows s s') (hr : r.isHanding = false)
    (hlength : s.offered ≤ s'.received.length) : Grows s { s' with reader := r } := by
  have hoffered : RpcLink.offered { s' with reader := r } = s'.received.length := by
    cases r with
    | handing k => cases hr
    | _ => rfl
  exact ⟨h.received, hoffered ▸ hlength, h.closed, h.err, h.errorsClosed, h.spawned⟩

theorem Coherent.reader {r : RpcReader} (h : s.Coherent) (hr : r.isHanding = false) :
    Coherent { s with reader := r } := by
  refine ⟨fun k hk => ?_, h.errors, h.closed⟩
  change r = _ at hk
  rw [hk] at hr
  cases hr

/-- `shutdown` goes on. -/
theorem Coherent.advance {stage : ShutdownStage} (h : s.Coherent) (hidle : s.stage ≠ .idle)
    (hstage : stage ≠ .idle) : Coherent { s with stage := stage } :=
  ⟨h.handing, fun e he => ⟨hstage, (h.errors e he).2⟩, fun _ => h.closed hidle⟩

theorem Grows.advance {stage : ShutdownStage} (hstage : stage ≠ .idle)
    (hclosed : s.stage.hasClosedErrors = true → stage.hasClosedErrors = true) :
    Grows s { s with stage := stage } :=
  ⟨List.prefix_rfl, Nat.le_refl _, id, fun _ => ⟨hstage, rfl⟩, hclosed, fun _ he => .inl he⟩

theorem grows_send (s : RpcLink) (failure : Option String) : Grows s (s.send failure).1 := by
  rw [send]
  split
  · exact .refl s
  · cases failure with
    | none => exact .refl s
    | some reason =>
        exact ⟨List.prefix_rfl, Nat.le_refl _, id, fun h => ⟨h, rfl⟩, id,
          fun e he => .inl (List.mem_append_left _ he)⟩

theorem Coherent.send (h : s.Coherent) (failure : Option String) :
    (s.send failure).1.Coherent := by
  rw [RpcLink.send]
  split
  · exact h
  · cases failure with
    | none => exact h
    | some reason => exact ⟨h.handing, h.errors, h.closed⟩

theorem received_send (s : RpcLink) (failure : Option String) :
    (s.send failure).1.received = s.received ∧ (s.send failure).1.reader = s.reader := by
  rw [send]
  split
  · exact ⟨rfl, rfl⟩
  · cases failure <;> exact ⟨rfl, rfl⟩

theorem Coherent.next {a : RpcAction} (h : s.Coherent) (hnext : s.next a = some s') :
    s'.Coherent := by
  cases step_of_next hnext with
  | reply =>
      refine ⟨fun k hk => ?_, h.errors, h.closed⟩
      cases hk
      exact List.length_append
  | @connectionClose failure => exact (h.send failure).reader rfl
  | readError => exact h.reader rfl
  | giveUp => exact h.reader rfl
  | readerShutdown => exact (h.shutdown _).reader rfl
  | @shutdownReturn stops => exact h.reader (by cases stops <;> rfl)
  | write failure => exact h.send failure
  | @spawnedShutdown e =>
      have hshutdown := h.shutdown (some e)
      exact ⟨hshutdown.handing, hshutdown.errors, hshutdown.closed⟩
  | shutdown err => exact h.shutdown err
  | sendError hstage herr =>
      refine ⟨h.handing, fun e' he => ?_, fun _ => h.closed (by simp [hstage])⟩
      cases he
      exact ⟨by simp, herr⟩
  | closeErrors hstage =>
      refine h.advance ?_ (by decide)
      rcases hstage with hstage | hstage
      · simp [hstage.1]
      · simp [hstage]
  | closeTransport hstage => exact h.advance (by simp [hstage]) (by decide)
  | finish hstage => exact h.advance (by simp [hstage]) (by decide)

theorem Grows.next {a : RpcAction} (h : s.Coherent) (hnext : s.next a = some s') :
    Grows s s' := by
  cases step_of_next hnext with
  | reply =>
      exact ⟨List.prefix_append _ _, h.offered_le, id, fun h => ⟨h, rfl⟩, id,
        fun _ he => .inl he⟩
  | @connectionClose failure =>
      exact (grows_send s failure).reader rfl ((received_send s failure).1 ▸ h.offered_le)
  | readError => exact (Grows.refl s).reader rfl h.offered_le
  | giveUp => exact (Grows.refl s).reader rfl h.offered_le
  | readerShutdown =>
      exact (Grows.shutdown s _).reader rfl
        (le_trans h.offered_le (Grows.shutdown s _).received.length_le)
  | @shutdownReturn stops =>
      exact (Grows.refl s).reader (by cases stops <;> rfl) h.offered_le
  | write failure => exact grows_send s failure
  | @spawnedShutdown e =>
      have hshutdown := Grows.shutdown s (some e)
      exact ⟨hshutdown.received, hshutdown.offered, hshutdown.closed, hshutdown.err,
        hshutdown.errorsClosed, fun _ _ => .inr (closed_shutdown s (some e))⟩
  | shutdown err => exact .shutdown s err
  | sendError hstage =>
      refine ⟨List.prefix_rfl, Nat.le_refl _, id, fun _ => ⟨by simp, rfl⟩, fun hclosed => ?_,
        fun _ he => .inl he⟩
      rw [hstage] at hclosed
      cases hclosed
  | closeErrors => exact .advance (by decide) (fun _ => rfl)
  | closeTransport => exact .advance (by decide) (fun _ => rfl)
  | finish => exact .advance (by decide) (fun _ => rfl)

/-- What a call may get out of its `select`. -/
inductive Select (s : RpcLink) : Case → RpcLink → Received → Prop
  | error {e : Error} (he : s.errors = some e) :
      Select s .errors { s with errors := none } (.error e)
  | errorsClosed (hclosed : s.stage.hasClosedErrors = true) : Select s .errors s .errorsClosed
  | reply {k : ℕ} (hk : s.reader = .handing k) :
      Select s .rpc { s with reader := .reading } (.reply k)
  | rpcClosed (hstopped : s.reader = .stopped) : Select s .rpc s .rpcClosed

theorem select_of_eq {c : Case} {r : Received} (h : s.select c = some (s', r)) :
    s.Select c s' r := by
  cases c with
  | errors =>
      simp only [select, takeError] at h
      split at h
      · cases h
        exact .error ‹_›
      · split at h <;> cases h
        exact .errorsClosed ‹_›
  | rpc =>
      simp only [select, takeReply] at h
      split at h <;> cases h
      · exact .reply ‹_›
      · exact .rpcClosed ‹_›

theorem Coherent.select {c : Case} {r : Received} (h : s.Coherent) (hselect : s.Select c s' r) :
    s'.Coherent ∧ Grows s s' := by
  cases hselect with
  | error he =>
      refine ⟨⟨h.handing, fun e he => ?_, h.closed⟩, ?_⟩
      · cases he
      · exact ⟨List.prefix_rfl, Nat.le_refl _, id, fun h => ⟨h, rfl⟩, id, fun _ he => .inl he⟩
  | errorsClosed => exact ⟨h, .refl s⟩
  | reply => exact ⟨h.reader rfl, (Grows.refl s).reader rfl h.offered_le⟩
  | rpcClosed => exact ⟨h, .refl s⟩

end RpcLink

end Amqp091

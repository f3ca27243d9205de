import Amqp091.Algorithm.CallChannel
import Amqp091.Shared.Transition

/-! # Steps of the calls on a channel -/

namespace Amqp091

namespace CallChannel

/-- What `shutdown` does not touch. -/
@[simp] theorem shutdown_frame (s : CallChannel) (err : Option Error) :
    (s.shutdown err).closed = true ∧ (s.shutdown err).errors = s.errors ∧
      (s.shutdown err).received = s.received ∧ (s.shutdown err).offering = s.offering ∧
      (s.shutdown err).calls = s.calls := by
  unfold shutdown
  split <;> simp

/-- What each action does, with the conditions under which it is enabled. -/
inductive Step (s : CallChannel) : Action → CallChannel → Prop
  | call (req : Message) (res : List Method) :
      Step s (.call req res) { s with calls := s.calls ++ [⟨req, res, .start⟩] }
  | test {i : ℕ} (hphase : s.phaseOf i = some .start) :
      Step s (.test i) (s.setPhase i (if s.closed then .returned .refused else .tested))
  | write {i : ℕ} {req : Message} {res : List Method} (err : Option GoError)
      (hcall : s.calls[i]? = some ⟨req, res, .tested⟩) :
      Step s (.write i err) (s.setPhase i (afterSend req err))
  | takeError {i : ℕ} {e : Error} (hphase : s.phaseOf i = some .waiting)
      (herrors : s.errors = some e) :
      Step s (.takeError i) ({ s with errors := none }.setPhase i (.returned (.shutdownError e)))
  | takeClosed {i : ℕ} (hphase : s.phaseOf i = some .waiting) (herrors : s.errors = none)
      (hclosed : s.stage.hasClosedErrors = true) :
      Step s (.takeError i) (s.setPhase i (.returned .errorsClosed))
  | takeReply {i : ℕ} {req : Message} {res : List Method}
      (hcall : s.calls[i]? = some ⟨req, res, .waiting⟩) (hoffering : s.offering = true) :
      Step s (.takeReply i) ({ s with offering := false }.setPhase i (.returned (s.replied res)))
  | offer {m : Message} (hoffering : s.offering = false) (hm : m.method.toRpc = true) :
      Step s (.offer m) { s with received := s.received ++ [m], offering := true }
  | giveUp (hoffering : s.offering = true) (hstage : s.stage = .finished) :
      Step s .giveUp { s with offering := false }
  | setClosed : Step s .setClosed { s with closed := true }
  | shutdown (err : Option Error) : Step s (.shutdown err) (s.shutdown err)
  | sendError {e : Error} (hstage : s.stage = .entered) (herr : s.err = some e) :
      Step s .sendError { s with stage := .sent, errors := some e }
  | closeErrors (hstage : s.stage = .entered ∧ s.err = none ∨ s.stage = .sent) :
      Step s .closeErrors { s with stage := .errorsClosed }
  | finish (hstage : s.stage = .errorsClosed) : Step s .finish { s with stage := .finished }

theorem step_of_next {s s' : CallChannel} {a : Action} (h : s.next a = some s') :
    s.Step a s' := by
  cases a with
  | call req res =>
      cases h
      exact .call req res
  | test i =>
      simp only [next] at h
      split at h <;> cases h
      exact .test ‹_›
  | write i err =>
      simp only [next] at h
      split at h <;> cases h
      exact .write err ‹_›
  | takeError i =>
      simp only [next] at h
      split at h
      · cases h
        exact .takeError ‹_› ‹_›
      · split at h <;> cases h
        exact .takeClosed ‹_› ‹_› ‹_›
      · cases h
  | takeReply i =>
      simp only [next] at h
      split at h <;> cases h
      exact .takeReply ‹_› ‹_›
  | offer m =>
      simp only [next] at h
      split at h <;> cases h
      next hcond => exact .offer hcond.1 hcond.2
  | giveUp =>
      simp only [next] at h
      split at h <;> cases h
      next hcond => exact .giveUp hcond.1 hcond.2
  | setClosed =>
      cases h
      exact .setClosed
  | shutdown err =>
      cases h
      exact .shutdown err
  | sendError =>
      simp only [next] at h
      split at h <;> cases h
      exact .sendError ‹_› ‹_›
  | closeErrors =>
      simp only [next] at h
      split at h <;> cases h
      · exact .closeErrors (.inl ⟨‹_›, ‹_›⟩)
      · exact .closeErrors (.inr ‹_›)
  | finish =>
      simp only [next] at h
      split at h <;> cases h
      exact .finish ‹_›

end CallChannel

end Amqp091

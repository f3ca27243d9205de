import Amqp091.Verification.Calls.Channel

/-! # Calls on a channel tell what happened

Every reply goes to one call, one call learns the error of the shutdown, and no reply is
dropped before the channel is shut down. -/

namespace Amqp091

open Transition

namespace CallChannel

/-- The call an action belongs to. -/
def Action.index : Action → Option ℕ
  | .test i | .write i _ | .takeError i | .takeReply i => some i
  | _ => none

variable {past : List Action} {s s' : CallChannel} {a : Action} {i j k : ℕ} {c : ChannelCall}
  {r : ChannelResult}

/-- What the result of call `i` says, behind the actions `past`. -/
def Truthful (past : List Action) (s : CallChannel) (i : ℕ) (c : ChannelCall) :
    ChannelResult → Prop
  | .refused => s.closed = true
  | .sendError e => .write i (some e) ∈ past
  | .unanswered => c.req.wait = false
  | .ok k => ∃ m, s.received[k]? = some m ∧ m.method ∈ c.res
  | .commandInvalid k => ∃ m, s.received[k]? = some m ∧ m.method ∉ c.res
  | .shutdownError e => s.stage.hasSent = true ∧ s.err = some e
  | .errorsClosed => s.stage.hasClosedErrors = true

/-- A call that has returned. -/
def Returned (s : CallChannel) (i : ℕ) (c : ChannelCall) (r : ChannelResult) : Prop :=
  s.calls[i]? = some c ∧ c.phase = .returned r

/-- The number of methods that are not on offer any more. -/
def offered (s : CallChannel) : ℕ := s.received.length - s.offering.toNat

/-! ## One step -/

/-- Nothing is forgotten, and the shutdown does not go back. -/
structure Grows (s s' : CallChannel) : Prop where
  closed : s.closed = true → s'.closed = true
  received : s.received <+: s'.received
  sent : s.stage.hasSent = true → s'.stage.hasSent = true ∧ s'.err = s.err
  errorsClosed : s.stage.hasClosedErrors = true → s'.stage.hasClosedErrors = true
  finished : s.stage = .finished → s'.stage = .finished

theorem Step.grows (h : s.Step a s') : Grows s s' := by
  cases h with
  | shutdown err =>
      unfold CallChannel.shutdown
      split
      · next hidle =>
          constructor <;> simp [hidle, ChannelStage.hasSent, ChannelStage.hasClosedErrors]
      · constructor <;> simp
  | sendError hstage =>
      constructor <;> simp [hstage, ChannelStage.hasSent, ChannelStage.hasClosedErrors]
  | closeErrors hstage =>
      rcases hstage with ⟨hstage, -⟩ | hstage <;> constructor <;>
        simp [hstage, ChannelStage.hasSent, ChannelStage.hasClosedErrors]
  | finish hstage =>
      constructor <;> simp [hstage, ChannelStage.hasSent, ChannelStage.hasClosedErrors]
  | _ => constructor <;> simp [setPhase]

theorem Grows.getElem? (h : Grows s s') {m : Message} (hm : s.received[k]? = some m) :
    s'.received[k]? = some m := by
  obtain ⟨rest, hrest⟩ := h.received
  rw [← hrest, List.getElem?_append_left (List.getElem?_eq_some_iff.mp hm).1, hm]

theorem Truthful.mono (h : Truthful past s i c r) (hgrows : Grows s s') (a : Action) :
    Truthful (past ++ [a]) s' i c r := by
  cases r with
  | refused => exact hgrows.closed h
  | sendError => exact List.mem_append_left _ h
  | unanswered => exact h
  | ok k =>
      obtain ⟨m, hm, hmem⟩ := h
      exact ⟨m, hgrows.getElem? hm, hmem⟩
  | commandInvalid k =>
      obtain ⟨m, hm, hmem⟩ := h
      exact ⟨m, hgrows.getElem? hm, hmem⟩
  | shutdownError e =>
      obtain ⟨hsent, herr⟩ := hgrows.sent h.1
      exact ⟨hsent, herr.trans h.2⟩
  | errorsClosed => exact hgrows.errorsClosed h

/-- How call `i` returns in one step. -/
inductive Returns (s : CallChannel) (a : Action) (s' : CallChannel) (i : ℕ) (c : ChannelCall) :
    ChannelResult → Prop
  | refused (h : s.closed = true) : Returns s a s' i c .refused
  | sendError {e : GoError} (h : a = .write i (some e)) : Returns s a s' i c (.sendError e)
  | unanswered (h : c.req.wait = false) : Returns s a s' i c .unanswered
  | replied (h : s.offering = true) (h' : s'.offering = false)
      (hreceived : s'.received = s.received) : Returns s a s' i c (s.replied c.res)
  | shutdownError {e : Error} (h : s.errors = some e) (h' : s'.errors = none) :
      Returns s a s' i c (.shutdownError e)
  | errorsClosed (h : s.stage.hasClosedErrors = true) : Returns s a s' i c .errorsClosed

theorem getElem?_setPhase (s : CallChannel) (i : ℕ) (phase : ChannelCallPhase) (j : ℕ) :
    (s.setPhase i phase).calls[j]? =
      if i = j then s.calls[j]?.map fun c => { c with phase } else s.calls[j]? := by
  simp only [setPhase, List.getElem?_modify]
  split <;> cases s.calls[j]? <;> rfl

/-- A call that returns in a step is the one that the step belongs to. -/
theorem Returned.setPhase {phase : ChannelCallPhase} (h : (s.setPhase i phase).Returned j c r) :
    s.Returned j c r ∨ j = i ∧ phase = .returned r ∧
      ∃ c', s.calls[i]? = some c' ∧ c = { c' with phase } := by
  obtain ⟨hcall, hphase⟩ := h
  rw [getElem?_setPhase] at hcall
  split at hcall
  · next hij =>
      subst hij
      obtain ⟨c', hc', rfl⟩ := Option.map_eq_some_iff.mp hcall
      exact .inr ⟨rfl, hphase, c', hc', rfl⟩
  · exact .inl ⟨hcall, hphase⟩

theorem Step.returned_cases (h : s.Step a s') (hr : s'.Returned j c r) :
    s.Returned j c r ∨ a.index = some j ∧ s.Returns a s' j c r := by
  cases h with
  | call req res =>
      obtain ⟨hcall, hphase⟩ := hr
      rw [List.getElem?_append] at hcall
      split at hcall
      · exact .inl ⟨hcall, hphase⟩
      · have hc := List.mem_of_getElem? hcall
        rw [List.mem_singleton] at hc
        subst hc
        cases hphase
  | test hstart =>
      refine hr.setPhase.imp_right fun ⟨hj, hphase, _⟩ => ⟨congrArg some hj.symm, ?_⟩
      split at hphase
      · cases hphase
        exact .refused ‹_›
      · cases hphase
  | write err hcall =>
      refine hr.setPhase.imp_right fun ⟨hj, hphase, c', hc', heq⟩ =>
        ⟨congrArg some hj.symm, ?_⟩
      rw [hcall] at hc'
      cases hc'
      cases err with
      | some e =>
          cases hphase
          exact .sendError (by rw [hj])
      | none =>
          simp only [afterSend] at hphase
          split at hphase
          · cases hphase
          · next hwait =>
              cases hphase
              exact .unanswered (by rw [heq]; simpa using hwait)
  | takeError hwaiting herrors =>
      refine (Returned.setPhase hr).imp_right fun ⟨hj, hphase, _⟩ => ⟨congrArg some hj.symm, ?_⟩
      cases hphase
      exact .shutdownError herrors rfl
  | takeClosed hwaiting herrors hclosed =>
      refine hr.setPhase.imp_right fun ⟨hj, hphase, _⟩ => ⟨congrArg some hj.symm, ?_⟩
      cases hphase
      exact .errorsClosed hclosed
  | takeReply hcall hoffering =>
      refine (Returned.setPhase hr).imp_right fun ⟨hj, hphase, c', hc', heq⟩ =>
        ⟨congrArg some hj.symm, ?_⟩
      replace hc' : s.calls[_]? = some c' := hc'
      rw [hcall] at hc'
      cases hc'
      cases hphase
      subst heq
      exact .replied hoffering rfl rfl
  | shutdown err => exact .inl (by simpa [Returned] using hr)
  | _ => exact .inl hr

/-- A call that has returned stays as it is. -/
theorem Returned.setPhase_of_ne {phase : ChannelCallPhase} (h : s.Returned j c r)
    (hphase : s.phaseOf i ≠ some (.returned r)) : (s.setPhase i phase).Returned j c r := by
  refine ⟨?_, h.2⟩
  rw [getElem?_setPhase, if_neg, h.1]
  rintro rfl
  rw [phaseOf, h.1, Option.map_some, h.2] at hphase
  exact hphase rfl

theorem Step.returned (h : s.Step a s') (hr : s.Returned j c r) : s'.Returned j c r := by
  cases h with
  | call req res =>
      obtain ⟨hcall, hphase⟩ := hr
      refine ⟨?_, hphase⟩
      rw [List.getElem?_append_left (List.getElem?_eq_some_iff.mp hcall).1, hcall]
  | test hstart => exact hr.setPhase_of_ne (by rw [hstart]; simp)
  | write err hcall => exact hr.setPhase_of_ne (by simp [phaseOf, hcall])
  | takeError hwaiting herrors =>
      exact Returned.setPhase_of_ne (s := { s with errors := none }) hr
        (by change s.phaseOf _ ≠ _; rw [hwaiting]; simp)
  | takeClosed hwaiting => exact hr.setPhase_of_ne (by rw [hwaiting]; simp)
  | takeReply hcall hoffering =>
      exact Returned.setPhase_of_ne (s := { s with offering := false }) hr
        (by simp [phaseOf, hcall])
  | shutdown err => simpa [Returned] using hr
  | _ => exact hr

/-! ## All steps -/

theorem taken_replied (s : CallChannel) (res : List Method) :
    (s.replied res).taken = some (s.received.length - 1) := by
  unfold replied
  dsimp only
  split <;> rfl

/-- What holds behind the actions `past`. A method is on offer only after it was received. -/
structure Valid (past : List Action) (s : CallChannel) : Prop where
  offering : s.offering = true → s.received ≠ []
  truthful : ∀ i c r, s.Returned i c r → Truthful past s i c r
  taken : ∀ i c r k, s.Returned i c r → r.taken = some k → k < s.offered
  takenOnce : ∀ i j c d r q k, s.Returned i c r → s.Returned j d q → r.taken = some k →
    q.taken = some k → i = j
  answered : ∀ k < s.offered, s.stage = .finished ∨
    ∃ i c r, s.Returned i c r ∧ r.taken = some k
  errors : ∀ e, s.errors = some e → s.stage.hasSent = true ∧ s.err = some e
  untaken : s.errors ≠ none → ∀ i c e, ¬ s.Returned i c (.shutdownError e)
  shutdownOnce : ∀ i j c d e e', s.Returned i c (.shutdownError e) →
    s.Returned j d (.shutdownError e') → i = j

theorem valid_empty : Valid [] {} := by
  have hnone : ∀ i c r, ¬ ({} : CallChannel).Returned i c r := by
    rintro i c r ⟨hcall, -⟩
    simp at hcall
  refine ⟨by simp, fun i c r h => absurd h (hnone i c r),
    fun i c r k h => absurd h (hnone i c r),
    fun i j c d r q k h => absurd h (hnone i c r), fun k hk => ?_, by simp, by simp,
    fun i j c d e e' h => absurd h (hnone i c _)⟩
  simp [offered] at hk

/-- The number of the method on offer. -/
theorem Valid.offered_of_offering (h : Valid past s) (hoffering : s.offering = true) :
    s.offered = s.received.length - 1 ∧ s.offered < s.received.length := by
  have hne := List.length_pos_iff.mpr (h.offering hoffering)
  simp only [offered, hoffering, Bool.toNat_true]
  exact ⟨trivial, by omega⟩

theorem Returns.truthful (h : Valid past s) (hreturns : s.Returns a s' i c r)
    (hgrows : Grows s s') : Truthful (past ++ [a]) s' i c r := by
  cases hreturns with
  | refused hclosed => exact hgrows.closed hclosed
  | sendError hwrite => exact List.mem_append_right _ (List.mem_singleton.mpr hwrite.symm)
  | unanswered hwait => exact hwait
  | replied hoffering =>
      refine Truthful.mono ?_ hgrows a
      obtain ⟨hlast, hlt⟩ := h.offered_of_offering hoffering
      have hget : s.received[s.received.length - 1]? = some s.received[s.offered] := by
        rw [← hlast]
        exact List.getElem?_eq_getElem hlt
      unfold CallChannel.replied
      dsimp only
      split
      · next hany =>
          refine ⟨_, hget, ?_⟩
          rw [hget] at hany
          simpa using hany
      · next hany =>
          refine ⟨_, hget, ?_⟩
          rw [hget] at hany
          simpa using hany
  | shutdownError herrors =>
      obtain ⟨hsent, herr⟩ := h.errors _ herrors
      obtain ⟨hsent', herr'⟩ := hgrows.sent hsent
      exact ⟨hsent', herr'.trans herr⟩
  | errorsClosed hclosed => exact hgrows.errorsClosed hclosed

/-- A method that is not on offer any more went to a call, or the channel is shut down. -/
theorem Step.offered_cases (h : s.Step a s') (hvalid : Valid past s) :
    s'.offered = s.offered ∨ s'.offered = s.offered + 1 ∧
      (s'.stage = .finished ∨ ∃ i c r, s'.Returned i c r ∧ r.taken = some s.offered) := by
  cases h with
  | @takeReply i req res hcall hoffering =>
      obtain ⟨hlast, hlt⟩ := hvalid.offered_of_offering hoffering
      refine .inr ⟨?_, .inr ⟨i, ⟨req, res, .returned (s.replied res)⟩, s.replied res,
        ⟨?_, rfl⟩, ?_⟩⟩
      · simp only [offered, setPhase, Bool.toNat_false] at hlast hlt ⊢
        omega
      · rw [getElem?_setPhase, if_pos rfl]
        exact congrArg (Option.map _) hcall
      · rw [taken_replied, hlast]
  | giveUp hoffering hstage =>
      obtain ⟨hlast, hlt⟩ := hvalid.offered_of_offering hoffering
      refine .inr ⟨?_, .inl hstage⟩
      simp only [offered, Bool.toNat_false] at hlast hlt ⊢
      omega
  | offer hoffering hm =>
      refine .inl ?_
      simp [offered, hoffering]
  | shutdown err => exact .inl (by simp [offered])
  | _ => exact .inl rfl

theorem Step.offered_le (h : s.Step a s') (hvalid : Valid past s) : s.offered ≤ s'.offered := by
  rcases h.offered_cases hvalid with heq | ⟨heq, -⟩ <;> omega

/-- Only the body of the shutdown fills `errors`. -/
theorem Step.errors_cases (h : s.Step a s') {e : Error} (herrors : s'.errors = some e) :
    s.errors = some e ∨
      s.stage.hasSent = false ∧ s'.stage.hasSent = true ∧ s'.err = some e := by
  cases h with
  | takeError => cases herrors
  | sendError hstage herr =>
      cases herrors
      refine .inr ⟨?_, rfl, herr⟩
      rw [hstage]
      rfl
  | shutdown err => exact .inl (by simpa using herrors)
  | _ => exact .inl herrors

/-- The method a call gets is the one that was on offer. -/
theorem Returns.taken (h : s.Returns a s' i c r) (hvalid : Valid past s) (hk : r.taken = some k) :
    k = s.offered ∧ s'.offered = s.offered + 1 := by
  cases h with
  | replied hoffering hoffering' hreceived =>
      obtain ⟨hlast, hlt⟩ := hvalid.offered_of_offering hoffering
      rw [taken_replied] at hk
      cases hk
      refine ⟨hlast.symm, ?_⟩
      simp only [offered, hoffering', hreceived, Bool.toNat_false] at hlast hlt ⊢
      omega
  | _ => cases hk

theorem Returns.errors {e : Error} (h : s.Returns a s' i c (.shutdownError e)) :
    s.errors = some e ∧ s'.errors = none := by
  generalize hr : ChannelResult.shutdownError e = r at h
  cases h with
  | shutdownError herrors herrors' =>
      cases hr
      exact ⟨herrors, herrors'⟩
  | replied =>
      unfold CallChannel.replied at hr
      dsimp only at hr
      split at hr <;> cases hr
  | _ => cases hr

theorem Step.offering (h : s.Step a s') (hvalid : Valid past s) (hoffering : s'.offering = true) :
    s'.received ≠ [] := by
  cases h with
  | offer => simp
  | takeReply => cases hoffering
  | giveUp => cases hoffering
  | shutdown err => simpa using hvalid.offering (by simpa using hoffering)
  | _ => exact hvalid.offering hoffering

theorem Valid.step (h : Valid past s) (hstep : s.Step a s') : Valid (past ++ [a]) s' where
  offering := hstep.offering h
  truthful := by
    intro i c r hr
    rcases hstep.returned_cases hr with hold | ⟨-, hnew⟩
    · exact (h.truthful i c r hold).mono hstep.grows a
    · exact hnew.truthful h hstep.grows
  taken := by
    intro i c r k hr hk
    rcases hstep.returned_cases hr with hold | ⟨-, hnew⟩
    · exact Nat.lt_of_lt_of_le (h.taken i c r k hold hk) (hstep.offered_le h)
    · obtain ⟨rfl, hoffered⟩ := hnew.taken h hk
      omega
  takenOnce := by
    intro i j c d r q k hi hj hr hq
    rcases hstep.returned_cases hi with hold | ⟨hi, hnew⟩ <;>
      rcases hstep.returned_cases hj with hold' | ⟨hj, hnew'⟩
    · exact h.takenOnce i j c d r q k hold hold' hr hq
    · have hlt := h.taken i c r k hold hr
      obtain ⟨rfl, -⟩ := hnew'.taken h hq
      omega
    · have hlt := h.taken j d q k hold' hq
      obtain ⟨rfl, -⟩ := hnew.taken h hr
      omega
    · exact Option.some.inj (hi.symm.trans hj)
  answered := by
    intro k hk
    by_cases hold : k < s.offered
    · rcases h.answered k hold with hfinished | ⟨i, c, r, hr, htaken⟩
      · exact .inl (hstep.grows.finished hfinished)
      · exact .inr ⟨i, c, r, hstep.returned hr, htaken⟩
    · rcases hstep.offered_cases h with heq | ⟨heq, hcase⟩
      · omega
      · obtain rfl : k = s.offered := by omega
        exact hcase
  errors := by
    intro e herrors
    rcases hstep.errors_cases herrors with hold | ⟨-, hsent, herr⟩
    · obtain ⟨hsent, herr⟩ := h.errors e hold
      obtain ⟨hsent', herr'⟩ := hstep.grows.sent hsent
      exact ⟨hsent', herr'.trans herr⟩
    · exact ⟨hsent, herr⟩
  untaken := by
    intro herrors i c e hr
    obtain ⟨e', he'⟩ := Option.ne_none_iff_exists'.mp herrors
    rcases hstep.returned_cases hr with hold | ⟨-, hnew⟩
    · rcases hstep.errors_cases he' with hsame | ⟨hsent, -⟩
      · exact h.untaken (by simp [hsame]) i c e hold
      · have hsent' := (h.truthful i c _ hold).1
        rw [hsent] at hsent'
        cases hsent'
    · exact herrors hnew.errors.2
  shutdownOnce := by
    intro i j c d e e' hi hj
    rcases hstep.returned_cases hi with hold | ⟨hi, hnew⟩ <;>
      rcases hstep.returned_cases hj with hold' | ⟨hj, hnew'⟩
    · exact h.shutdownOnce i j c d e e' hold hold'
    · exact absurd hold (h.untaken (by simp [hnew'.errors.1]) i c e)
    · exact absurd hold' (h.untaken (by simp [hnew.errors.1]) j d e')
    · exact Option.some.inj (hi.symm.trans hj)

/-- In every interleaving of calls, the reader and `shutdown`, the results of calls are
truthful: a reply of an expected type, a reply of another type, the error of the call's own
write, the error of the shutdown, or the end of the channel. No reply goes to two calls and the
error of the shutdown to at most one. A method of the server that is not on offer any more was
taken by a call, unless the channel has been shut down. -/
theorem calls_truthful (actions : List Action) (s : CallChannel)
    (h : Run next (fun _ _ => True) {} actions s) :
    (∀ i c r, s.Returned i c r → Truthful actions s i c r) ∧
    (∀ i j c d r q k, s.Returned i c r → s.Returned j d q → r.taken = some k →
      q.taken = some k → i = j) ∧
    (∀ i j c d e e', s.Returned i c (.shutdownError e) →
      s.Returned j d (.shutdownError e') → i = j) ∧
    ∀ k < s.received.length, (s.offering = true ∧ k + 1 = s.received.length) ∨
      s.stage = .finished ∨ ∃ i c r, s.Returned i c r ∧ r.taken = some k := by
  have hvalid : Valid actions s := by
    apply h.history valid_empty
    intro past s a s' hs _ hnext
    exact hs.step (step_of_next hnext)
  refine ⟨hvalid.truthful, hvalid.takenOnce, hvalid.shutdownOnce, fun k hk => ?_⟩
  by_cases hoffered : k < s.offered
  · exact .inr (hvalid.answered k hoffered)
  · refine .inl ?_
    cases hoffering : s.offering with
    | true =>
        obtain ⟨hlast, -⟩ := hvalid.offered_of_offering hoffering
        exact ⟨rfl, by omega⟩
    | false =>
        simp only [offered, hoffering, Bool.toNat_false] at hoffered
        omega

/-- A reply of another type, the error with which the server closes the channel, the error of a
write, and a call that finds the channel closed. -/
theorem calls_truthful_four :
    let declare : Message := ⟨.queueDeclare,
      ((0 : UInt16), [113], #[false, false, false, false, false].toVector, [], ())⟩
    let qosOk : Message := ⟨.basicQosOk, ()⟩
    let e : Error := { code := 404, reason := "NOT_FOUND", server := true }
    let actions : List Action := [.call declare [.queueDeclareOk],
      .call declare [.queueDeclareOk], .call declare [.queueDeclareOk], .test 0, .test 1, .test 2,
      .write 0 none, .write 1 none, .write 2 (some (.text "broken pipe")), .offer qosOk,
      .takeReply 1, .setClosed, .shutdown (some e), .sendError, .closeErrors, .finish,
      .takeError 0, .call declare [.queueDeclareOk], .test 3]
    ∃ s, Run next (fun _ _ => True) {} actions s ∧
      (s.calls.map ChannelCall.phase = [.returned (.shutdownError e),
        .returned (.commandInvalid 0), .returned (.sendError (.text "broken pipe")),
        .returned .refused]) ∧
      ∀ i c r, s.Returned i c r → Truthful actions s i c r := by
  intro declare qosOk e actions
  have hrun : ∃ s, Run next (fun _ _ => True) {} actions s ∧
      s.calls.map ChannelCall.phase = [.returned (.shutdownError e),
        .returned (.commandInvalid 0), .returned (.sendError (.text "broken pipe")),
        .returned .refused] :=
    ⟨_, .of_exec rfl, rfl⟩
  obtain ⟨s, hrun, hphases⟩ := hrun
  exact ⟨s, hrun, hphases, (calls_truthful _ s hrun).1⟩

end CallChannel

end Amqp091

import Amqp091.Verification.Rpc.Link

/-! # Truthful results of calls

Any number of `Connection.call`s next to the reader and `shutdown`. A call that takes the
end of `rpc` for a method answers `ErrCommandInvalid` to a server that sent nothing; in all
other cases its result says what happened. -/

namespace Amqp091

open Transition

namespace RpcState

/-- What each action does, with the conditions under which it is enabled. -/
inductive Step (s : RpcState) : CallAction → RpcState → Prop
  | link {a : RpcAction} {l : RpcLink} (hlink : s.link.next a = some l) :
      Step s (.link a) { s with link := l }
  | call (req : Option Method) (res : List Method) :
      Step s (.call req res)
        { s with calls := s.calls ++ [⟨req, res, if req.isSome then .start else .waiting⟩] }
  | send {i : ℕ} {req : Option Method} {res : List Method} (failure : Option String)
      (hcall : s.calls[i]? = some ⟨req, res, .start⟩) :
      Step s (.send i failure)
        { s with
          link := (s.link.send failure).1
          calls := s.calls.set i ⟨req, res, afterSend (s.link.send failure).2⟩ }
  | select {i : ℕ} {req : Option Method} {res : List Method} {c : RpcLink.Case} {l : RpcLink}
      {r : RpcLink.Received} (hcall : s.calls[i]? = some ⟨req, res, .waiting⟩)
      (hselect : s.link.Select c l r) :
      Step s (.select i c)
        { s with link := l, calls := s.calls.set i ⟨req, res, .returned (l.result res r)⟩ }

theorem step_of_next {s s' : RpcState} {a : CallAction} (h : s.next a = some s') :
    s.Step a s' := by
  cases a with
  | link a =>
      obtain ⟨l, hl, rfl⟩ := Option.map_eq_some_iff.mp h
      exact .link hl
  | call req res =>
      cases h
      exact .call req res
  | send i failure =>
      simp only [next] at h
      split at h <;> cases h
      exact .send failure ‹_›
  | select i c =>
      simp only [next] at h
      split at h
      · obtain ⟨⟨l, r⟩, hl, rfl⟩ := Option.map_eq_some_iff.mp h
        exact .select ‹_› (RpcLink.select_of_eq hl)
      · cases h

/-! ## Truthful results -/

/-- A result says what the server sent or how the connection ended. A write that failed has
left a `shutdown` behind, and after it the connection is closed. -/
def Justified (l : RpcLink) (res : List Method) : CallResult → Prop
  | .ok k => ∃ m, l.received[k]? = some m ∧ m.method ∈ res
  | .commandInvalid k => ∃ n m, k = some n ∧ l.received[n]? = some m ∧ m.method ∉ res
  | .sendError e =>
      (e = errClosed ∧ l.closed = true) ∨
        ∃ reason, e = .text reason ∧ (RpcLink.frameError reason ∈ l.spawned ∨ l.closed = true)
  | .shutdownError e => l.stage ≠ .idle ∧ l.err = some e
  | .errClosed => l.stage.hasClosedErrors = true

/-- Every result is justified, and no method is taken by two calls. -/
structure Truthful (s : RpcState) : Prop where
  justified : ∀ c ∈ s.calls, ∀ r, c.phase = .returned r → Justified s.link c.res r
  once : ∀ (i j : ℕ) (ci cj : RpcCall) (k : ℕ), s.calls[i]? = some ci →
    s.calls[j]? = some cj → ci.taken = some k → cj.taken = some k → i = j

/-- No call receives from `rpc` after the reader has closed it. -/
def Open (s : RpcState) (a : CallAction) : Prop :=
  ∀ i, a = .select i .rpc → s.link.reader ≠ .stopped

/-! ## What holds in every run -/

theorem Justified.grows {l l' : RpcLink} {res : List Method} {r : CallResult}
    (h : Justified l res r) (hgrows : l.Grows l') : Justified l' res r := by
  cases r with
  | ok k =>
      obtain ⟨m, hm, hres⟩ := h
      exact ⟨m, hgrows.getElem? hm, hres⟩
  | commandInvalid k =>
      obtain ⟨n, m, hk, hm, hres⟩ := h
      exact ⟨n, m, hk, hgrows.getElem? hm, hres⟩
  | sendError e =>
      rcases h with ⟨he, hclosed⟩ | ⟨reason, he, hspawned | hclosed⟩
      · exact .inl ⟨he, hgrows.closed hclosed⟩
      · exact .inr ⟨reason, he, hgrows.spawned _ hspawned⟩
      · exact .inr ⟨reason, he, .inr (hgrows.closed hclosed)⟩
  | shutdownError e =>
      obtain ⟨hstage, herr⟩ := hgrows.err h.1
      exact ⟨hstage, herr.trans h.2⟩
  | errClosed => exact hgrows.errorsClosed h

/-- Methods that were taken are not on offer any more. -/
structure Valid (s : RpcState) : Prop where
  coherent : s.link.Coherent
  truthful : s.Truthful
  taken : ∀ c ∈ s.calls, ∀ k, c.taken = some k → k < s.link.offered

theorem valid_start : Valid start where
  coherent := RpcLink.coherent_start
  truthful := by
    refine ⟨fun c hc => ?_, fun i j ci cj k hi => ?_⟩
    · cases hc
    · cases hi
  taken := fun _ hc => by cases hc

variable {s s' : RpcState}

theorem Valid.link {l : RpcLink} (h : s.Valid) (hcoherent : l.Coherent)
    (hgrows : s.link.Grows l) : Valid { s with link := l } where
  coherent := hcoherent
  truthful :=
    ⟨fun c hc r hr => (h.truthful.justified c hc r hr).grows hgrows, h.truthful.once⟩
  taken := fun c hc k hk => lt_of_lt_of_le (h.taken c hc k hk) hgrows.offered

/-- A call gets a new phase; a method that it takes was on offer. -/
theorem Valid.set {l : RpcLink} {i : ℕ} {c : RpcCall} (h : s.Valid) (hcoherent : l.Coherent)
    (hgrows : s.link.Grows l) (hjustified : ∀ r, c.phase = .returned r → Justified l c.res r)
    (htaken : ∀ k, c.taken = some k → s.link.offered ≤ k ∧ k < l.offered) :
    Valid { link := l, calls := s.calls.set i c } := by
  have hlink := h.link hcoherent hgrows
  refine ⟨hcoherent, ⟨fun c' hc' => ?_, fun i' j' ci cj k hi hj hki hkj => ?_⟩, fun c' hc' => ?_⟩
  · rcases List.mem_or_eq_of_mem_set hc' with hc' | rfl
    · exact hlink.truthful.justified c' hc'
    · exact hjustified
  · have hold : ∀ (n : ℕ) cn, s.calls[n]? = some cn → cn.taken = some k → c.taken ≠ some k := by
      intro n cn hn hk hc
      have hlt := h.taken cn (List.mem_of_getElem? hn) k hk
      have hle := (htaken k hc).1
      omega
    rw [List.getElem?_set] at hi hj
    split at hi <;> split at hj
    · omega
    · obtain ⟨-, hc⟩ := Option.ite_none_right_eq_some.mp hi
      cases hc
      exact absurd hki (hold j' cj hj hkj)
    · obtain ⟨-, hc⟩ := Option.ite_none_right_eq_some.mp hj
      cases hc
      exact absurd hkj (hold i' ci hi hki)
    · exact h.truthful.once i' j' ci cj k hi hj hki hkj
  · rcases List.mem_or_eq_of_mem_set hc' with hc' | rfl
    · exact hlink.taken c' hc'
    · exact fun k hk => (htaken k hk).2

/-- A call begins. -/
theorem Valid.call (h : s.Valid) {c : RpcCall} (hphase : ∀ r, c.phase ≠ .returned r) :
    Valid { s with calls := s.calls ++ [c] } := by
  have hnone : c.taken = none := by
    rw [RpcCall.taken]
    split
    · exact absurd ‹_› (hphase _)
    · rfl
  refine ⟨h.coherent, ⟨fun c' hc' => ?_, fun i j ci cj k hi hj hki hkj => ?_⟩, fun c' hc' => ?_⟩
  · rcases List.mem_append.mp hc' with hc' | hc'
    · exact h.truthful.justified c' hc'
    · rw [List.mem_singleton.mp hc']
      exact fun r hr => absurd hr (hphase r)
  · have hold : ∀ (n : ℕ) cn, (s.calls ++ [c])[n]? = some cn → cn.taken = some k →
        s.calls[n]? = some cn := by
      intro n cn hn hk
      rcases lt_or_ge n s.calls.length with hlt | hge
      · rwa [List.getElem?_append_left hlt] at hn
      · rw [List.getElem?_append_right hge] at hn
        rw [List.mem_singleton.mp (List.mem_of_getElem? hn), hnone] at hk
        cases hk
    exact h.truthful.once i j ci cj k (hold i ci hi hki) (hold j cj hj hkj) hki hkj
  · rcases List.mem_append.mp hc' with hc' | hc'
    · exact h.taken c' hc'
    · rw [List.mem_singleton.mp hc', hnone]
      exact fun k hk => by cases hk

/-- The error of a send is that of a closed connection or of a write. -/
theorem justified_sendError {l : RpcLink} {failure : Option String} {e : GoError}
    (h : (l.send failure).2 = some e) (res : List Method) :
    Justified (l.send failure).1 res (.sendError e) := by
  rw [RpcLink.send] at h ⊢
  split at h
  · rename_i hclosed
    cases h
    rw [if_pos hclosed]
    exact .inl ⟨rfl, hclosed⟩
  · rename_i hopen
    rw [if_neg hopen]
    cases failure with
    | none => cases h
    | some reason =>
        cases h
        exact .inr ⟨reason, rfl, .inl (List.mem_append_right _ (List.mem_singleton_self _))⟩

theorem Valid.send (h : s.Valid) {i : ℕ} {req : Option Method} {res : List Method}
    (failure : Option String) :
    Valid {
      link := (s.link.send failure).1
      calls := s.calls.set i ⟨req, res, afterSend (s.link.send failure).2⟩ } := by
  refine h.set (h.coherent.send failure) (RpcLink.grows_send s.link failure) ?_ ?_
  · intro r hr
    cases he : (s.link.send failure).2 with
    | none =>
        rw [he] at hr
        cases hr
    | some e =>
        rw [he] at hr
        cases hr
        exact justified_sendError he res
  · intro k hk
    cases he : (s.link.send failure).2 <;> rw [he] at hk <;> cases hk

/-- A call returns with what its `select` has given. -/
theorem Valid.select (h : s.Valid) {i : ℕ} {req : Option Method} {res : List Method}
    {c : RpcLink.Case} {l : RpcLink} {r : RpcLink.Received} (hselect : s.link.Select c l r)
    (hopen : c = .rpc → s.link.reader ≠ .stopped) :
    Valid { link := l, calls := s.calls.set i ⟨req, res, .returned (l.result res r)⟩ } := by
  obtain ⟨hcoherent, hgrows⟩ := h.coherent.select hselect
  cases hselect with
  | error he =>
      refine h.set hcoherent hgrows ?_ (fun k hk => by cases hk)
      rintro r hr
      cases hr
      exact h.coherent.errors _ he
  | errorsClosed hclosed =>
      refine h.set hcoherent hgrows ?_ (fun k hk => by cases hk)
      rintro r hr
      cases hr
      exact hclosed
  | @reply k hk =>
      have hlength := h.coherent.handing k hk
      have hlt : k < s.link.received.length := by omega
      have hmessage : s.link.received[k]? = some s.link.received[k] :=
        List.getElem?_eq_getElem hlt
      have hoffered : s.link.offered = k := by rw [RpcLink.offered, hk]
      have hresult : RpcLink.result { s.link with reader := .reading } res (.reply k) =
          if s.link.received[k].method ∈ res then .ok k else .commandInvalid (some k) := by
        rw [RpcLink.result]
        change (if (s.link.received[k]?).any _ then _ else _) = _
        rw [hmessage]
        simp
      refine h.set hcoherent hgrows ?_ ?_
      · intro r hr
        rw [hresult] at hr
        split at hr <;> cases hr
        · exact ⟨_, hmessage, ‹_›⟩
        · exact ⟨k, _, rfl, hmessage, ‹_›⟩
      · intro k' hk'
        rw [hresult] at hk'
        have hsame : k' = k := by split at hk' <;> cases hk' <;> rfl
        refine ⟨by omega, ?_⟩
        change k' < s.link.received.length
        omega
  | rpcClosed hstopped => exact absurd hstopped (hopen rfl)

theorem Valid.step {a : CallAction} (h : s.Valid) (hopen : Open s a) (hstep : s.Step a s') :
    s'.Valid := by
  cases hstep with
  | link hlink => exact h.link (h.coherent.next hlink) (.next h.coherent hlink)
  | call req res =>
      refine h.call fun r => ?_
      dsimp only
      split <;> intro hr <;> cases hr
  | send failure hcall => exact h.send failure
  | select hcall hselect => exact h.select hselect fun hc => hopen _ (congrArg _ hc)

/-! ## The end of `rpc` -/

/-- A call has taken the end of `rpc` for a method. -/
def Deceived (s : RpcState) : Prop :=
  ∃ c ∈ s.calls, c.phase = .returned (.commandInvalid none)

theorem Deceived.not_truthful (h : s.Deceived) : ¬ s.Truthful := by
  rintro ⟨hjustified, -⟩
  obtain ⟨c, hc, hphase⟩ := h
  obtain ⟨n, m, hnone, -⟩ := hjustified c hc _ hphase
  cases hnone

theorem Deceived.step {a : CallAction} (h : s.Deceived) (hstep : s.Step a s') : s'.Deceived := by
  obtain ⟨c, hc, hphase⟩ := h
  have hset : ∀ {i : ℕ} {c' d : RpcCall}, s.calls[i]? = some d → d.phase ≠ c.phase →
      c ∈ s.calls.set i c' := by
    intro i c' d hd hne
    obtain ⟨j, hj⟩ := List.mem_iff_getElem?.mp hc
    refine List.mem_iff_getElem?.mpr ⟨j, ?_⟩
    rw [List.getElem?_set_ne, hj]
    rintro rfl
    rw [hd] at hj
    cases hj
    exact hne rfl
  cases hstep with
  | link => exact ⟨c, hc, hphase⟩
  | call => exact ⟨c, List.mem_append_left _ hc, hphase⟩
  | send failure hcall => exact ⟨c, hset hcall (by rw [hphase]; simp), hphase⟩
  | select hcall => exact ⟨c, hset hcall (by rw [hphase]; simp), hphase⟩

theorem deceived_of_not_open {a : CallAction} (hopen : ¬ Open s a) (hstep : s.Step a s') :
    s'.Deceived := by
  simp only [Open, not_forall, not_not] at hopen
  obtain ⟨i, rfl, hstopped⟩ := hopen
  cases hstep with
  | select hcall hselect =>
      cases hselect with
      | reply hk => rw [hk] at hstopped; cases hstopped
      | rpcClosed =>
          have hlt := (List.getElem?_eq_some_iff.mp hcall).1
          exact ⟨_, List.mem_set hlt _, rfl⟩

/-- In every run the results of all calls are truthful exactly when no call receives from
`rpc` after the reader has closed it. -/
theorem truthful_iff_open (as : List CallAction) (s : RpcState)
    (h : Run next (fun _ _ => True) start as s) : s.Truthful ↔ Run next Open start as s := by
  constructor
  · intro htruthful
    refine h.guarded trivial (fun _ _ _ _ _ => trivial)
      (fun s a s' _ hnext hopen => deceived_of_not_open hopen (step_of_next hnext))
      (fun s a s' hnext hdeceived => hdeceived.step (step_of_next hnext)) ?_
    exact fun hdeceived => hdeceived.not_truthful htruthful
  · intro hrun
    have hvalid : s.Valid := hrun.invariant valid_start
      fun s a s' hvalid hopen hnext => hvalid.step hopen (step_of_next hnext)
    exact hvalid.truthful

/-- `connection.close` is answered, and a secret is to be updated while the transport
fails. -/
def answered : List CallAction :=
  [.call (some .connectionClose) [.connectionCloseOk], .send 0 none,
    .link (.reply ⟨.connectionCloseOk, ()⟩), .select 0 .rpc,
    .call (some .connectionUpdateSecret) [.connectionUpdateSecretOk], .send 1 none,
    .link (.readError "EOF"), .link .readerShutdown, .link .sendError, .select 1 .errors]

def answeredState : RpcState where
  link :=
    { RpcLink.start with
      closed := true
      stage := .sent
      err := some (RpcLink.frameError "EOF")
      reader := .closing true
      received := [⟨.connectionCloseOk, ()⟩] }
  calls :=
    [⟨some .connectionClose, [.connectionCloseOk], .returned (.ok 0)⟩,
      ⟨some .connectionUpdateSecret, [.connectionUpdateSecretOk],
        .returned (.shutdownError (RpcLink.frameError "EOF"))⟩]

theorem run_answered {guard : RpcState → CallAction → Prop}
    (h : ∀ s a, Open s a → guard s a) : Run next guard start answered answeredState := by
  have hother : ∀ {s a}, (∀ i, a ≠ .select i .rpc) → guard s a :=
    fun ha => h _ _ fun i hi => absurd hi (ha i)
  refine .cons (hother (by simp)) rfl (.cons (hother (by simp)) rfl (.cons (hother (by simp)) rfl
    (.cons (h _ _ fun i _ => by simp) rfl (.cons (hother (by simp)) rfl
    (.cons (hother (by simp)) rfl (.cons (hother (by simp)) rfl (.cons (hother (by simp)) rfl
    (.cons (hother (by simp)) rfl (.cons (hother (by simp)) rfl (.nil _))))))))))

theorem truthful_of_answered :
    Run next Open start answered answeredState ∧ answeredState.Truthful :=
  have hrun : Run next Open start answered answeredState := run_answered fun _ _ h => h
  ⟨hrun, (truthful_iff_open _ _ (run_answered fun _ _ _ => trivial)).mpr hrun⟩

/-- The transport fails while `Close` waits. Both `errors` and `rpc` are ready, and `rpc` is
taken: `ErrCommandInvalid`, although the server has sent nothing. -/
def deceiving : List CallAction :=
  [.call (some .connectionClose) [.connectionCloseOk], .send 0 none,
    .link (.readError "EOF"), .link .readerShutdown, .link .sendError, .link .closeErrors,
    .link .closeTransport, .link .finish, .link .shutdownReturn, .select 0 .rpc]

theorem commandInvalid_without_reply :
    ∃ s, Run next (fun _ _ => True) start deceiving s ∧ s.link.received = [] ∧
      s.link.errors = some (RpcLink.frameError "EOF") ∧
      s.calls = [⟨some .connectionClose, [.connectionCloseOk],
        .returned (.commandInvalid none)⟩] ∧ ¬ s.Truthful := by
  refine ⟨_, .cons trivial rfl (.cons trivial rfl (.cons trivial rfl (.cons trivial rfl
    (.cons trivial rfl (.cons trivial rfl (.cons trivial rfl (.cons trivial rfl
    (.cons trivial rfl (.cons trivial rfl (.nil _)))))))))), rfl, rfl, rfl, ?_⟩
  exact Deceived.not_truthful ⟨_, List.mem_singleton_self _, rfl⟩

end RpcState

end Amqp091

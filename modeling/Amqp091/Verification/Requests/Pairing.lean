import Amqp091.Shared.Transition
import Amqp091.Verification.Requests.Wire

/-! # Requests and replies stay paired

Calls are made one after the other. The server reads the frames in order and answers the
requests that ask for a reply; the reader hands the replies to whichever call waits. -/

namespace Amqp091

open ByteCodec Transition

/-- Between calls, or in the `select` of a call. -/
inductive Caller where
  | idle
  | waiting (call : ℕ) (results : List Method)
  deriving DecidableEq, Repr

/-- The message that a call took from `rpc`: which request it replies to, and whether it is
of a type that the call expects. -/
structure Exchange where
  call : ℕ
  reply : ℕ
  matched : Bool
  deriving DecidableEq, Repr

/-- Frames on their way to the server and replies on their way back, with the number of the
call they belong to, and what has happened so far. -/
structure Session where
  calls : List Request
  made : ℕ
  caller : Caller
  requests : List (ℕ × Bytes)
  replies : List (ℕ × Message)
  waited : List ℕ
  answered : List ℕ
  exchanges : List Exchange

/-- The server answers a synchronous request whose no-wait bit is clear. -/
def isAnswered (frame : Bytes) : Bool :=
  match requestOnWire frame with
  | .ok (m, noWait) _ => !noWait && m.responses ≠ []
  | _ => false

namespace Session

def start (calls : List Request) : Session where
  calls := calls
  made := 0
  caller := .idle
  requests := []
  replies := []
  waited := []
  answered := []
  exchanges := []

/-- `send`, and the `if req.wait()` of `call`. -/
def send (channelId : UInt16) (s : Session) (m : Message) (results : List Method) :
    Option Session :=
  let frame := (requestFrame channelId m).write
  match frame.result with
  | .error _ => none
  | .ok _ =>
      some { s with
        made := s.made + 1
        requests := s.requests ++ [(s.made, frame.out)]
        caller := if m.wait then .waiting s.made results else .idle
        waited := if m.wait then s.waited ++ [s.made] else s.waited }

/-- The next call. One with invalid arguments returns before it sends anything. -/
def call (channelId : UInt16) (s : Session) : Option Session :=
  match s.caller, s.calls with
  | .idle, r :: calls =>
      match r.message with
      | .error _ => some { s with calls := calls, made := s.made + 1 }
      | .ok m => send channelId { s with calls := calls } m r.results
  | _, _ => none

/-- The server reads a frame, and sends `reply` if it answers. -/
def serve (s : Session) (reply : Message) : Option Session :=
  match s.requests with
  | (k, frame) :: requests =>
      match requestOnWire frame with
      | .ok (m, noWait) _ =>
          if !noWait && m.responses ≠ [] then
            if reply.method ∈ m.responses then
              some { s with
                requests := requests
                replies := s.replies ++ [(k, reply)]
                answered := s.answered ++ [k] }
            else none
          else some { s with requests := requests }
      | _ => none
  | [] => none

/-- The waiting call receives from `rpc`. -/
def take (s : Session) : Option Session :=
  match s.caller, s.replies with
  | .waiting k results, (j, m) :: replies =>
      if m.method.toRpc then
        some { s with
          caller := .idle
          replies := replies
          exchanges := s.exchanges ++ [⟨k, j, results.contains m.method⟩] }
      else none
  | _, _ => none

inductive Action where
  | call
  | serve (reply : Message)
  | take

def next (channelId : UInt16) (s : Session) : Action → Option Session
  | .call => s.call channelId
  | .serve reply => s.serve reply
  | .take => s.take

/-- Calls wait if and only if the server has answered them or is going to, each took its own
reply, and none waits for nothing. -/
structure Paired (s : Session) : Prop where
  waits_iff : ∀ k, k ∈ s.waited ↔
    k ∈ s.answered ∨ ∃ frame, (k, frame) ∈ s.requests ∧ isAnswered frame = true
  own : ∀ e ∈ s.exchanges, e.reply = e.call ∧ e.matched = true
  consumed : s.caller = .idle →
    s.waited = s.exchanges.map (·.call) ∧ s.answered = s.exchanges.map (·.reply)
  progress : ∀ k results, s.caller = .waiting k results →
    s.replies ≠ [] ∨ ∃ x ∈ s.requests, isAnswered x.2 = true

/-! ## The three situations of a session -/

/-- Requests that the server does not answer. -/
def Quiet (requests : List (ℕ × Bytes)) : Prop :=
  ∀ x ∈ requests, ∃ m rest, requestOnWire x.2 = .ok (m, true) rest

/-- A request that the server answers with one of the given methods. -/
def Asks (frame : Bytes) (results : List Method) : Prop :=
  ∃ m rest, requestOnWire frame = .ok (m, false) rest ∧ m.responses = results ∧ results ≠ []

/-- Nobody waits; or a call waits, its request is the last one on the way and the only one
that is answered; or its reply is on the way and nothing else. -/
inductive Consistent (s : Session) : Prop
  | idle (hcaller : s.caller = .idle) (hrequests : Quiet s.requests) (hreplies : s.replies = [])
      (hwaited : s.waited = s.exchanges.map (·.call))
      (hanswered : s.answered = s.exchanges.map (·.call))
  | asked (k : ℕ) (results : List Method) (front : List (ℕ × Bytes)) (frame : Bytes)
      (hcaller : s.caller = .waiting k results) (hrequests : s.requests = front ++ [(k, frame)])
      (hfront : Quiet front) (hframe : Asks frame results) (hreplies : s.replies = [])
      (hwaited : s.waited = s.exchanges.map (·.call) ++ [k])
      (hanswered : s.answered = s.exchanges.map (·.call))
  | answered (k : ℕ) (results : List Method) (m : Message)
      (hcaller : s.caller = .waiting k results) (hrequests : s.requests = [])
      (hreplies : s.replies = [(k, m)]) (hm : m.method ∈ results)
      (hresults : ∀ m ∈ results, m.toRpc = true)
      (hwaited : s.waited = s.exchanges.map (·.call) ++ [k])
      (hanswered : s.answered = s.exchanges.map (·.call) ++ [k])

structure Valid (s : Session) : Prop where
  consistent : s.Consistent
  own : ∀ e ∈ s.exchanges, e.reply = e.call ∧ e.matched = true

variable {s s' : Session} {channelId : UInt16}

theorem toRpc_of_mem_responses {m r : Method} (h : r ∈ m.responses) : r.toRpc = true := by
  cases m <;> simp [Method.responses] at h <;>
    first | (subst h; rfl) | (rcases h with rfl | rfl <;> rfl)

theorem isAnswered_of_asks {frame : Bytes} {results : List Method} (h : Asks frame results) :
    isAnswered frame = true := by
  obtain ⟨m, rest, hread, rfl, hne⟩ := h
  simp [isAnswered, hread, hne]

theorem Quiet.isAnswered_eq {requests : List (ℕ × Bytes)} (h : Quiet requests)
    {x : ℕ × Bytes} (hx : x ∈ requests) : isAnswered x.2 = false := by
  obtain ⟨m, rest, hread⟩ := h x hx
  simp [isAnswered, hread]

theorem Quiet.append_singleton {requests : List (ℕ × Bytes)} (h : Quiet requests) {k : ℕ}
    {frame : Bytes} {m : Method} {rest : Bytes}
    (hread : requestOnWire frame = .ok (m, true) rest) : Quiet (requests ++ [(k, frame)]) := by
  intro x hx
  rcases List.mem_append.mp hx with hx | hx
  · exact h x hx
  · rw [List.mem_singleton.mp hx]
    exact ⟨m, rest, hread⟩

theorem Valid.paired (h : s.Valid) : s.Paired := by
  obtain ⟨hconsistent, hown⟩ := h
  have hreply : s.exchanges.map (·.reply) = s.exchanges.map (·.call) :=
    List.map_congr_left fun e he => (hown e he).1
  cases hconsistent with
  | idle hcaller hrequests hreplies hwaited hanswered =>
      refine ⟨fun k => ?_, hown, fun _ => ⟨hwaited, hanswered.trans hreply.symm⟩, ?_⟩
      · rw [hwaited, hanswered]
        refine ⟨.inl, fun hk => hk.elim (fun hk => hk) ?_⟩
        rintro ⟨frame, hmem, hframe⟩
        simp [hrequests.isAnswered_eq hmem] at hframe
      · intro k results hwaiting
        simp [hcaller] at hwaiting
  | asked k results front frame hcaller hrequests hfront hframe hreplies hwaited hanswered =>
      have hasks := isAnswered_of_asks hframe
      refine ⟨fun j => ?_, hown, fun hidle => by simp [hcaller] at hidle, ?_⟩
      · rw [hwaited, hanswered, hrequests, List.mem_append, List.mem_singleton]
        constructor
        · exact fun hj => hj.imp_right fun hj => ⟨frame, by simp [hj], hasks⟩
        · refine fun hj => hj.imp_right ?_
          rintro ⟨frame', hmem, hframe'⟩
          rcases List.mem_append.mp hmem with hmem | hmem
          · simp [hfront.isAnswered_eq hmem] at hframe'
          · exact congrArg Prod.fst (List.mem_singleton.mp hmem)
      · exact fun _ _ _ => .inr ⟨(k, frame), by simp [hrequests], hasks⟩
  | answered k results m hcaller hrequests hreplies hm hresults hwaited hanswered =>
      refine ⟨fun j => ?_, hown, fun hidle => by simp [hcaller] at hidle, ?_⟩
      · rw [hwaited, hanswered, hrequests]
        simp
      · exact fun _ _ _ => .inl (by simp [hreplies])

/-! ## Steps -/

/-- A request that passed validation is sent, and the server will read it as it is. -/
theorem send_eq (channelId : UInt16) {r : Request} {m : Message} (h : r.message = .ok m)
    (s : Session) :
    ∃ frame rest, requestOnWire frame = .ok (m.method, m.noWait) rest ∧
      s.send channelId m r.results = some { s with
        made := s.made + 1
        requests := s.requests ++ [(s.made, frame)]
        caller := if m.wait then .waiting s.made r.results else .idle
        waited := if m.wait then s.waited ++ [s.made] else s.waited } := by
  obtain ⟨rest, hread⟩ := requestOnWire_write channelId (Request.completes_message h)
  have hresult : (requestFrame channelId m).write.result = .ok () :=
    (completes_methodFrame channelId 0 0 (Request.completes_message h)).result_eq
  refine ⟨_, rest, hread, ?_⟩
  simp only [send, hresult]

theorem Consistent.of_calls (h : s.Consistent) (calls : List Request) (made : ℕ) :
    Consistent { s with calls := calls, made := made } := by
  cases h with
  | idle h1 h2 h3 h4 h5 => exact .idle h1 h2 h3 h4 h5
  | asked k results front frame h1 h2 h3 h4 h5 h6 h7 =>
      exact .asked k results front frame h1 h2 h3 h4 h5 h6 h7
  | answered k results m h1 h2 h3 h4 h5 h6 h7 => exact .answered k results m h1 h2 h3 h4 h5 h6 h7

theorem Valid.send (h : s.Valid) (hcaller : s.caller = .idle) {r : Request} {m : Message}
    (hm : r.message = .ok m) (hr : r ≠ .confirm true)
    (hnext : s.send channelId m r.results = some s') : s'.Valid := by
  obtain ⟨frame, rest, hread, hsend⟩ := send_eq channelId hm s
  rw [hsend] at hnext
  cases hnext
  refine ⟨?_, h.own⟩
  have hwait := Request.wait_eq hm hr
  cases h.consistent with
  | idle _ hrequests hreplies hwaited hanswered =>
      cases hbit : m.noWait with
      | true =>
          rw [hbit] at hread hwait
          simp only [hwait]
          exact .idle rfl (hrequests.append_singleton hread) hreplies hwaited hanswered
      | false =>
          rw [hbit] at hread hwait
          have hasks : Asks frame r.results := by
            rw [Request.results_eq hm]
            exact ⟨_, rest, hread, rfl, Request.responses_ne_nil hm⟩
          simp only [hwait]
          exact .asked s.made r.results s.requests frame rfl rfl hrequests hasks hreplies
            (congrArg (· ++ [s.made]) hwaited) hanswered
  | asked _ _ _ _ hwaiting | answered _ _ _ hwaiting => simp [hcaller] at hwaiting

theorem Valid.call (h : s.Valid) (hcalls : s.calls.head? ≠ some (.confirm true))
    (hnext : s.call channelId = some s') : s'.Valid := by
  unfold Session.call at hnext
  split at hnext
  · rename_i r calls hcaller hs
    split at hnext
    · cases hnext
      exact ⟨h.consistent.of_calls calls _, h.own⟩
    · rename_i m hm
      have hr : r ≠ .confirm true := by
        intro heq
        simp [hs, heq] at hcalls
      have hvalid : Valid { s with calls := calls } := ⟨h.consistent.of_calls calls _, h.own⟩
      exact hvalid.send hcaller hm hr hnext
  · cases hnext

theorem Valid.serve (h : s.Valid) {reply : Message} (hnext : s.serve reply = some s') :
    s'.Valid := by
  unfold Session.serve at hnext
  split at hnext
  · rename_i k frame requests hs
    split at hnext
    · rename_i m noWait rest hread
      cases h.consistent with
      | idle hcaller hrequests hreplies hwaited hanswered =>
          obtain ⟨m', rest', hquiet⟩ := hrequests (k, frame) (hs ▸ List.mem_cons_self)
          cases hread.symm.trans hquiet
          cases hnext
          exact ⟨.idle hcaller (fun x hx => hrequests x (hs ▸ List.mem_cons_of_mem _ hx)) hreplies
            hwaited hanswered, h.own⟩
      | asked k' results front frame' hcaller hrequests hfront hframe hreplies hwaited
          hanswered =>
          rw [hs] at hrequests
          cases front with
          | nil =>
              cases hrequests
              obtain ⟨m', rest', hasks, rfl, hne⟩ := hframe
              cases hread.symm.trans hasks
              simp only [hne, ne_eq, not_false_eq_true, decide_true, Bool.not_false,
                Bool.and_self, if_true] at hnext
              obtain ⟨hreply, ⟨⟩⟩ := Option.ite_none_right_eq_some.mp hnext
              refine ⟨.answered k m.responses reply hcaller rfl ?_ hreply
                (fun _ => toRpc_of_mem_responses) hwaited ?_, h.own⟩
              · simp [hreplies]
              · simp [hanswered]
          | cons x front =>
              cases hrequests
              obtain ⟨m', rest', hquiet⟩ := hfront (k, frame) List.mem_cons_self
              cases hread.symm.trans hquiet
              cases hnext
              exact ⟨.asked k' results front frame' hcaller rfl
                (fun x hx => hfront x (List.mem_cons_of_mem _ hx)) hframe hreplies hwaited
                hanswered, h.own⟩
      | answered _ _ _ _ hrequests => simp [hs] at hrequests
    · cases hnext
  · cases hnext

theorem Valid.take (h : s.Valid) (hnext : s.take = some s') : s'.Valid := by
  unfold Session.take at hnext
  split at hnext
  · rename_i k results j m replies hwaiting hs
    obtain ⟨-, ⟨⟩⟩ := Option.ite_none_right_eq_some.mp hnext
    cases h.consistent with
    | idle hcaller => simp [hcaller] at hwaiting
    | asked _ _ _ _ _ _ _ _ hreplies => simp [hs] at hreplies
    | answered k' results' m' hcaller hrequests hreplies hm hresults hwaited hanswered =>
        cases hwaiting.symm.trans hcaller
        cases hs.symm.trans hreplies
        refine ⟨.idle rfl ?_ rfl (by simp [hwaited]) (by simp [hanswered]), ?_⟩
        · rw [hrequests]
          exact fun x hx => absurd hx List.not_mem_nil
        · intro e he
          rcases List.mem_append.mp he with he | he
          · exact h.own e he
          · rw [List.mem_singleton.mp he]
            exact ⟨rfl, List.contains_iff_mem.mpr hm⟩
  · cases hnext

/-! ## Runs -/

theorem calls_of_next {a : Action} (hnext : s.next channelId a = some s') :
    ∀ r ∈ s'.calls, r ∈ s.calls := by
  cases a with
  | call =>
      have hnext : s.call channelId = some s' := hnext
      unfold Session.call at hnext
      split at hnext
      · rename_i r calls hcaller hs
        rw [hs]
        split at hnext
        · cases hnext
          exact fun r' => List.mem_cons_of_mem r
        · rename_i m hm
          obtain ⟨frame, rest, -, hsend⟩ := send_eq channelId hm { s with calls := calls }
          rw [hsend] at hnext
          cases hnext
          exact fun r' => List.mem_cons_of_mem r
      · cases hnext
  | serve reply => grind [next, serve]
  | take => grind [next, take]

theorem Valid.step (h : s.Valid) (hcalls : .confirm true ∉ s.calls) {a : Action}
    (hnext : s.next channelId a = some s') : s'.Valid := by
  cases a with
  | call => exact h.call (fun hhead => hcalls (List.mem_of_head? hhead)) hnext
  | serve reply => exact h.serve hnext
  | take => exact h.take hnext

theorem valid_start (calls : List Request) : (start calls).Valid :=
  ⟨.idle rfl (fun _ hx => absurd hx List.not_mem_nil) rfl rfl rfl, fun _ he =>
    absurd he List.not_mem_nil⟩

theorem paired_of_run {calls : List Request} (hcalls : .confirm true ∉ calls) {as : List Action}
    (hrun : Run (next channelId) (fun _ _ => True) (start calls) as s) : s.Paired := by
  have hinv := hrun.invariant (P := fun s => s.Valid ∧ .confirm true ∉ s.calls)
    ⟨valid_start calls, hcalls⟩ fun _ _ _ h _ hnext =>
      ⟨h.1.step h.2 hnext, fun hmem => h.2 (calls_of_next hnext _ hmem)⟩
  exact hinv.1.paired

/-! ## The call that waits in vain -/

/-- A message with zero values. -/
def zeroArgs : (kinds : List ArgKind) → Args kinds
  | [] => ()
  | kind :: kinds =>
      ((match kind with
        | .octet => (0 : UInt8)
        | .short => (0 : UInt16)
        | .long => (0 : UInt32)
        | .longlong => (0 : UInt64)
        | .shortstr | .longstr => ([] : Bytes)
        | .table => ([] : Table)
        | .bits n => Vector.replicate n false), zeroArgs kinds)

/-- The server can always read the next request, until the reply is on the way. -/
theorem exists_serve {k : ℕ} {results : List Method} {front : List (ℕ × Bytes)} {frame : Bytes}
    (hrequests : s.requests = front ++ [(k, frame)]) (hfront : Quiet front)
    (hframe : Asks frame results) :
    ∃ reply s', s.serve reply = some s' ∧ s'.calls = s.calls ∧
      s'.requests.length < s.requests.length := by
  cases front with
  | nil =>
      obtain ⟨m, rest, hread, rfl, hne⟩ := hframe
      obtain ⟨reply, hreply⟩ := List.exists_mem_of_ne_nil _ hne
      refine ⟨⟨reply, zeroArgs _⟩, ?_⟩
      rw [List.nil_append] at hrequests
      simp [serve, hrequests, hread, hreply, hne]
  | cons x front =>
      obtain ⟨m, rest, hread⟩ := hfront x List.mem_cons_self
      refine ⟨⟨.basicQosOk, zeroArgs _⟩, ?_⟩
      rw [List.cons_append] at hrequests
      simp [serve, hrequests, hread]

theorem exists_run_idle (channelId : UInt16) (h : s.Valid) :
    ∃ as s', Run (next channelId) (fun _ _ => True) s as s' ∧ s'.Valid ∧ s'.caller = .idle ∧
      s'.calls = s.calls := by
  induction hn : s.requests.length using Nat.strong_induction_on generalizing s with
  | _ n ih =>
      cases h.consistent with
      | idle hcaller => exact ⟨[], s, .nil s, h, hcaller, rfl⟩
      | asked k results front frame hcaller hrequests hfront hframe =>
          obtain ⟨reply, m, hserve, hcalls, hlt⟩ := exists_serve hrequests hfront hframe
          obtain ⟨as, s', hrun, hvalid, hidle, hcalls'⟩ := ih _ (hn ▸ hlt) (h.serve hserve) rfl
          exact ⟨.serve reply :: as, s', .cons trivial hserve hrun, hvalid, hidle,
            hcalls'.trans hcalls⟩
      | answered k results m hcaller hrequests hreplies hm hresults =>
          have htake : ∃ s', s.take = some s' ∧ s'.caller = .idle ∧ s'.calls = s.calls := by
            simp [take, hcaller, hreplies, hresults _ hm]
          obtain ⟨s', htake, hidle, hcalls⟩ := htake
          exact ⟨[.take], s', .cons trivial htake (.nil s'), h.take htake, hidle, hcalls⟩

theorem call_of_message (hcaller : s.caller = .idle) {r : Request} {calls : List Request}
    (hs : s.calls = r :: calls) {m : Message} (hm : r.message = .ok m) :
    s.call channelId = send channelId { s with calls := calls } m r.results := by
  obtain ⟨_, made, caller, requests, replies, waited, answered, exchanges⟩ := s
  cases hcaller
  cases hs
  simp only [call, hm]

theorem exists_call (channelId : UInt16) (hcaller : s.caller = .idle) {r : Request}
    {calls : List Request} (hs : s.calls = r :: calls) :
    ∃ s', s.call channelId = some s' ∧ s'.calls = calls := by
  cases hm : r.message with
  | error e => simp [call, hcaller, hs, hm]
  | ok m =>
      obtain ⟨frame, rest, -, hsend⟩ := send_eq channelId hm { s with calls := calls }
      exact ⟨_, (call_of_message hcaller hs hm).trans hsend, rfl⟩

/-- Calls that wait when they should are all over at some point. -/
theorem exists_run_calls (channelId : UInt16) {front calls : List Request}
    (hfront : .confirm true ∉ front) (h : s.Valid) (hcaller : s.caller = .idle)
    (hs : s.calls = front ++ calls) :
    ∃ as s', Run (next channelId) (fun _ _ => True) s as s' ∧ s'.Valid ∧ s'.caller = .idle ∧
      s'.calls = calls := by
  induction front generalizing s with
  | nil => exact ⟨[], s, .nil s, h, hcaller, hs⟩
  | cons r front ih =>
      obtain ⟨m, hcall, hcalls⟩ := exists_call channelId hcaller hs
      have hhead : s.calls.head? ≠ some (.confirm true) := by
        intro hhead
        rw [hs] at hhead
        cases hhead
        exact hfront List.mem_cons_self
      obtain ⟨as, m', hrun, hvalid, hidle, hcalls'⟩ :=
        exists_run_idle channelId (h.call hhead hcall)
      obtain ⟨bs, s', hrun', hend⟩ := ih (fun hmem => hfront (List.mem_cons_of_mem r hmem)) hvalid
        hidle (hcalls'.trans hcalls)
      exact ⟨.call :: (as ++ bs), s', .cons trivial hcall (hrun.append hrun'), hend⟩

theorem not_paired_of_confirm (channelId : UInt16) (h : s.Valid) (hcaller : s.caller = .idle)
    {calls : List Request} (hs : s.calls = .confirm true :: calls) :
    ∃ s', s.call channelId = some s' ∧ ¬s'.Paired := by
  have hm : (Request.confirm true).message = .ok ⟨.confirmSelect, (#v[true], ())⟩ := rfl
  obtain ⟨frame, rest, hread, hsend⟩ := send_eq channelId hm { s with calls := calls }
  refine ⟨_, (call_of_message hcaller hs hm).trans hsend, fun hpaired => ?_⟩
  cases h.consistent with
  | idle _ hrequests hreplies =>
      rcases hpaired.progress _ _ rfl with hne | ⟨x, hx, hanswered⟩
      · exact hne hreplies
      · have hquiet := (hrequests.append_singleton hread).isAnswered_eq hx
        simp [hquiet] at hanswered
  | asked _ _ _ _ hwaiting | answered _ _ _ hwaiting => simp [hcaller] at hwaiting

/-- Requests and replies stay paired in every run of a sequence of calls if and only if
`Confirm` is never called without waiting. -/
theorem paired_iff (channelId : UInt16) (calls : List Request) :
    (∀ as s, Run (next channelId) (fun _ _ => True) (start calls) as s → s.Paired) ↔
      .confirm true ∉ calls := by
  constructor
  · intro hpaired hmem
    obtain ⟨front, rest, hcalls, hfront⟩ := List.eq_append_cons_of_mem hmem
    obtain ⟨as, s, hrun, hvalid, hidle, hs⟩ :=
      exists_run_calls channelId hfront (valid_start calls) rfl hcalls
    obtain ⟨s', hcall, hnot⟩ := not_paired_of_confirm channelId hvalid hidle hs
    have hlast : Run (next channelId) (fun _ _ => True) s [.call] s' :=
      .cons trivial hcall (.nil s')
    exact hnot (hpaired _ s' (hrun.append hlast))
  · exact fun hcalls as s hrun => paired_of_run hcalls hrun

/-- `Confirm(true)` waits, and the server has nothing to send. -/
theorem confirm_noWait_hangs :
    ∃ s, Run (next 1) (fun _ _ => True) (start [.confirm true])
        [.call, .serve ⟨.confirmSelectOk, ()⟩] s ∧
      s.caller = .waiting 0 [.confirmSelectOk] ∧ s.requests = [] ∧ s.replies = [] :=
  ⟨_, .cons trivial rfl (.cons trivial rfl (.nil _)), rfl, rfl, rfl⟩

end Session

end Amqp091

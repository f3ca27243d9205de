import Amqp091.Algorithm.Confirms

/-! # Interleavings of publishing and confirming

`One` and `Multiple` hold `c.m` from their first effect to the end of `resequence`, but
`publish` takes only `publishedMut`, so it may fall between the two. Everything else
these operations touch is guarded by `c.m`. -/

namespace Amqp091

/-- A confirmation by the server, of one tag or of all tags up to one. -/
inductive ServerConfirm where
  | one (confirmed : Confirmation ℕ)
  | multiple (confirmed : Confirmation ℕ)

namespace ServerConfirm

def confirmed : ServerConfirm → Confirmation ℕ
  | one confirmed => confirmed
  | multiple confirmed => confirmed

/-- `One` and `Multiple` up to their call of `resequence`. -/
def head (c : Confirms ℕ) : ServerConfirm → Option (Confirms ℕ)
  | one confirmed => some (c.oneHead confirmed)
  | multiple confirmed =>
      c.multipleHead (confirmed.deliveryTag + 1 - c.expecting + 1) confirmed

end ServerConfirm

/-- `busy` means that `c.m` is held between the two parts of `One` or `Multiple`.
`history` lists the confirmations that were processed, oldest first. -/
structure ConfirmState where
  confirms : Confirms ℕ
  busy : Bool
  history : List ServerConfirm

inductive ConfirmAction where
  | listen
  | publish
  | confirm (e : ServerConfirm)
  | resequence

namespace ConfirmState

def next (s : ConfirmState) : ConfirmAction → Option ConfirmState
  | .listen => if s.busy then none else some { s with confirms := s.confirms.listen }
  | .publish => some { s with confirms := s.confirms.publish.1 }
  | .confirm e =>
      if s.busy then none
      else (e.head s.confirms).map fun c => ⟨c, true, s.history ++ [e]⟩
  | .resequence =>
      if s.busy then some { s with confirms := s.confirms.resequence, busy := false } else none

/-- A new resequencer with `n` listeners. -/
def start (n : ℕ) : ConfirmState :=
  ⟨{ Confirms.newConfirms with listeners := List.replicate n [] }, false, []⟩

end ConfirmState

/-! ## Tags of 64 bits -/

/-- A confirmation by the server, of one tag or of all tags up to one. -/
inductive TagConfirm where
  | one (confirmed : Confirmation UInt64)
  | multiple (confirmed : Confirmation UInt64)
  deriving DecidableEq, Repr

def TagConfirm.deliveryTag : TagConfirm → UInt64
  | one confirmed => confirmed.deliveryTag
  | multiple confirmed => confirmed.deliveryTag

/-- `One` and `Multiple` up to their call of `resequence`. -/
def TagConfirm.head (c : Confirms UInt64) : TagConfirm → Option (Confirms UInt64)
  | one confirmed => some (c.oneHead confirmed)
  | multiple confirmed =>
      c.multipleHead (confirmed.deliveryTag.toNat + 1 - c.expecting.toNat + 1) confirmed

/-- `busy` means that `c.m` is held between the two parts of `One` or `Multiple`; publishes
do not take it. -/
structure TagState where
  confirms : Confirms UInt64
  busy : Bool

inductive TagAction where
  | listen
  | publish
  | unpublish
  | confirm (e : TagConfirm)
  | resequence
  | close
  deriving DecidableEq, Repr

namespace TagState

def start : TagState := ⟨.newConfirms, false⟩

def next (s : TagState) : TagAction → Option TagState
  | .listen => if s.busy then none else some { s with confirms := s.confirms.listen }
  | .publish => some { s with confirms := s.confirms.publish.1 }
  | .unpublish => some { s with confirms := s.confirms.unpublish }
  | .confirm e => if s.busy then none else (e.head s.confirms).map fun c => ⟨c, true⟩
  | .resequence => if s.busy then some ⟨s.confirms.resequence, false⟩ else none
  | .close => if s.busy then none else some { s with confirms := s.confirms.close }

end TagState

/-! ## Switching to confirm mode

A publish holds `ch.m` and reads `ch.confirming` twice: before the send, to count itself,
and after a failed send, to take the count back. `Confirm` sets the flag under another
mutex, so it may fall between the two. -/

/-- The calls of `confirms.publish` and `confirms.unpublish`, each with the number of the
publish that makes it. -/
inductive CounterEvent where
  | publish (call : ℕ)
  | unpublish (call : ℕ)
  deriving DecidableEq, Repr

/-- Where a publish is that holds `ch.m`. `counted` says whether it has a deferred
confirmation. -/
inductive PublishPhase where
  | locked
  | sending (counted : Bool)
  | failed (counted : Bool)
  deriving DecidableEq, Repr

/-- `Confirm` sends `confirm.select`, waits for the answer and sets the flag. -/
inductive ConfirmPhase where
  | start
  | waiting
  | answered
  | returned
  deriving DecidableEq, Repr

/-- `publisher` is the publish that holds `ch.m`, with its number; `calls` have got it so
far. -/
structure SwitchState where
  confirming : Bool
  confirms : Confirms UInt64
  confirmer : ConfirmPhase
  publisher : Option (ℕ × PublishPhase)
  calls : ℕ
  log : List CounterEvent

inductive SwitchAction where
  | select
  | answer
  | switch
  | lock
  | count
  | sendOk
  | sendFail
  | rollback
  deriving DecidableEq, Repr

namespace SwitchState

def start : SwitchState where
  confirming := false
  confirms := .newConfirms
  confirmer := .start
  publisher := none
  calls := 0
  log := []

/-- The first `if ch.confirming`. -/
def count (s : SwitchState) (call : ℕ) : SwitchState :=
  if s.confirming then
    { s with
      confirms := s.confirms.publish.1
      log := s.log ++ [.publish call]
      publisher := some (call, .sending true) }
  else { s with publisher := some (call, .sending false) }

/-- The second `if ch.confirming`, and the deferred `ch.m.Unlock`. -/
def rollback (s : SwitchState) (call : ℕ) : SwitchState :=
  if s.confirming then
    { s with
      confirms := s.confirms.unpublish
      log := s.log ++ [.unpublish call]
      publisher := none }
  else { s with publisher := none }

def next (s : SwitchState) : SwitchAction → Option SwitchState
  | .select =>
      match s.confirmer with
      | .start => some { s with confirmer := .waiting }
      | _ => none
  | .answer =>
      match s.confirmer with
      | .waiting => some { s with confirmer := .answered }
      | _ => none
  | .switch =>
      match s.confirmer with
      | .answered => some { s with confirmer := .returned, confirming := true }
      | _ => none
  | .lock =>
      match s.publisher with
      | none => some { s with publisher := some (s.calls, .locked), calls := s.calls + 1 }
      | _ => none
  | .count =>
      match s.publisher with
      | some (call, .locked) => some (s.count call)
      | _ => none
  | .sendOk =>
      match s.publisher with
      | some (_, .sending _) => some { s with publisher := none }
      | _ => none
  | .sendFail =>
      match s.publisher with
      | some (call, .sending counted) => some { s with publisher := some (call, .failed counted) }
      | _ => none
  | .rollback =>
      match s.publisher with
      | some (call, .failed _) => some (s.rollback call)
      | _ => none

end SwitchState

end Amqp091

import Amqp091.Algorithm.ChannelState

/-! # Asking for a deferred confirmation -/

namespace Amqp091

/-- The two cases of the `select` in `WaitContext`. -/
inductive WaitCase where
  | context
  | done
  deriving DecidableEq, Repr

namespace DeferredConfirmation

variable {τ : Type}

/-- A receive from the channel that `Done` returns does not block. -/
def isDone (dc : DeferredConfirmation τ) : Bool := dc.closes != 0

def acked (dc : DeferredConfirmation τ) : Bool := if dc.isDone then dc.ack else false

/-- `none` means that the call blocks. -/
def wait (dc : DeferredConfirmation τ) : Option Bool := if dc.isDone then some dc.ack else none

/-- `ctxErr` is `ctx.Err()`, which is nil until the context is done. -/
def waitContext (dc : DeferredConfirmation τ) (ctxErr : Option GoError) :
    WaitCase → Option (Bool × Option GoError)
  | .context => ctxErr.map fun e => (false, some e)
  | .done => dc.wait.map fun ack => (ack, none)

end DeferredConfirmation

/-! ## The waiting goroutines -/

variable {rt : GoRuntime}

/-- A call of `Wait` or, with a context, of `WaitContext`. `ctxErr` is the error of the
context once it is done. -/
structure Waiter where
  target : ℕ
  hasContext : Bool
  ctxErr : Option GoError := none
  result : Option (Bool × Option GoError) := none

/-- What the call returns if it takes this case. `Wait` has only one. -/
def Waiter.take (w : Waiter) (dc : DeferredConfirmation ℕ) (c : WaitCase) :
    Option (Bool × Option GoError) :=
  if w.hasContext then dc.waitContext w.ctxErr c else dc.wait.map fun ack => (ack, none)

/-- `history` lists the confirmations of the server, `polls` what calls of `Acked` have
returned. -/
structure DeferredWaits (rt : GoRuntime) where
  channel : ChannelState rt
  history : List ServerConfirm := []
  waiters : List Waiter := []
  polls : List (ℕ × Bool) := []

/-- The confirmation that an action of the channel processes. -/
def ChannelAction.confirmed : ChannelAction rt → List ServerConfirm
  | .serverConfirm e => [e]
  | _ => []

namespace DeferredWaits

inductive Action (rt : GoRuntime) where
  | channel (a : ChannelAction rt)
  | wait (p : ℕ) (hasContext : Bool)
  | expire (i : ℕ) (e : GoError)
  | select (i : ℕ) (c : WaitCase)
  | acked (p : ℕ)

/-- Only what a publish has returned can be asked for. -/
def next (frameSize : ℤ) (id : UInt16) (s : DeferredWaits rt) :
    Action rt → Option (DeferredWaits rt)
  | .channel a =>
      (s.channel.next frameSize id a).map fun channel =>
        { s with channel := channel, history := s.history ++ a.confirmed }
  | .wait p hasContext =>
      if p ∈ s.channel.returned then
        some { s with waiters := s.waiters ++ [{ target := p, hasContext }] }
      else none
  | .expire i e =>
      match s.waiters[i]? with
      | some w =>
          if w.hasContext ∧ w.ctxErr = none then
            some { s with waiters := s.waiters.set i { w with ctxErr := some e } }
          else none
      | none => none
  | .select i c =>
      match s.waiters[i]? with
      | some w =>
          if w.result = none then
            (s.channel.deferred.heap[w.target]?).bind fun dc =>
              (w.take dc c).map fun r =>
                { s with waiters := s.waiters.set i { w with result := some r } }
          else none
      | none => none
  | .acked p =>
      if p ∈ s.channel.returned then
        (s.channel.deferred.heap[p]?).map fun dc =>
          { s with polls := s.polls ++ [(p, dc.acked)] }
      else none

def start (link : Link) (senders : List Sender) : DeferredWaits rt where
  channel := .start link senders true

end DeferredWaits

end Amqp091

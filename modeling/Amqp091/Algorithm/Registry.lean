import Amqp091.Algorithm.Allocator
import Amqp091.Model.Error
import Mathlib.Data.List.AList

/-! # The channel registry of a connection -/

namespace Amqp091

/-- A `*Channel`: its identity as an object and its id. -/
structure ChannelRef where
  object : ℕ
  id : UInt16
  deriving DecidableEq, Repr

/-- The fields of a `Connection` that `allocateChannel`, `releaseChannel` and `shutdown`
share. `none` is the nil allocator and the nil map. `created` lists every `Channel`
object made so far. -/
structure Registry where
  closed : Bool
  allocator : Option Allocator
  channels : Option (AList fun _ : UInt16 => ChannelRef)
  created : List ChannelRef

namespace Registry

def newRegistry (channelMax : ℕ) : Registry :=
  ⟨false, some (Allocator.newAllocator 1 channelMax), some ∅, []⟩

/-- `none` is a panic: a nil allocator was dereferenced or a nil map written to. -/
def allocateChannel (c : Registry) : Option (Registry × Except GoError ChannelRef) :=
  if c.closed then some (c, .error errClosed)
  else
    match c.allocator with
    | none => none
    | some allocator =>
        match allocator.next with
        | (allocator, none) =>
            some ({ c with allocator := some allocator }, .error errChannelMax)
        | (allocator, some id) =>
            match c.channels with
            | none => none
            | some channels =>
                let ch : ChannelRef := ⟨c.created.length, UInt16.ofNat id⟩
                some ({ c with
                  allocator := some allocator
                  channels := some (channels.insert (UInt16.ofNat id) ch)
                  created := c.created ++ [ch] }, .ok ch)

/-- `c.channels[id]`; reading the nil map finds nothing. -/
def lookupChannel (c : Registry) (id : UInt16) : Option ChannelRef :=
  c.channels.bind fun channels => channels.lookup id

/-- `none` is a panic: the nil allocator was dereferenced. -/
def releaseChannel (c : Registry) (ch : ChannelRef) : Option Registry :=
  if c.closed then some c
  else if c.lookupChannel ch.id = some ch then
    match c.allocator with
    | none => none
    | some allocator =>
        some { c with
          channels := c.channels.map fun channels => channels.erase ch.id
          allocator := some (allocator.release ch.id.toNat) }
  else some c

/-- The atomic store at the start of `shutdown`. -/
def setClosed (c : Registry) : Registry := { c with closed := true }

/-- The body of `shutdown`, under `c.m`. -/
def shutdownBody (c : Registry) : Registry := { c with channels := none, allocator := none }

inductive Action where
  | allocateChannel
  | releaseChannel (ch : ChannelRef)
  | setClosed
  | shutdownBody

/-- The sections guarded by `c.m`, and the store outside of it. `none` is a panic. -/
def next (c : Registry) : Action → Option Registry
  | .allocateChannel => c.allocateChannel.map Prod.fst
  | .releaseChannel ch => c.releaseChannel ch
  | .setClosed => some c.setClosed
  | .shutdownBody => some c.shutdownBody

/-- Channels are released that were created before, and `shutdown` sets the flag before
it comes to its body. -/
def Allowed (c : Registry) : Action → Prop
  | .releaseChannel ch => ch ∈ c.created
  | .shutdownBody => c.closed = true
  | _ => True

end Registry

end Amqp091

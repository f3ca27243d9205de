import Mathlib.Data.List.AList

/-! # Publisher confirmations

The resequencer `confirms` and the map of deferred confirmations. Delivery tags are
generic: the counters are natural numbers where they cannot wrap around, and 64-bit
numbers where they do. -/

namespace Amqp091

structure Confirmation (τ : Type) where
  deliveryTag : τ
  ack : Bool
  deriving DecidableEq, Repr

/-- `closes` counts the calls of `close(done)`; the second one would panic. -/
structure DeferredConfirmation (τ : Type) where
  deliveryTag : τ
  ack : Bool := false
  closes : ℕ := 0
  deriving DecidableEq, Repr

variable {τ : Type}

def DeferredConfirmation.closeDone (dc : DeferredConfirmation τ) : DeferredConfirmation τ :=
  { dc with closes := dc.closes + 1 }

def DeferredConfirmation.setAck (ack : Bool) (dc : DeferredConfirmation τ) :
    DeferredConfirmation τ :=
  { dc with ack := ack }.closeDone

/-- `heap` holds every deferred confirmation ever allocated. A pointer is an index. -/
structure DeferredConfirmations (τ : Type) where
  heap : List (DeferredConfirmation τ)
  confirmations : AList fun _ : τ => ℕ

/-- `listeners` holds what was sent to each registered listener, `closed` the same for
the listeners that were closed. -/
structure Confirms (τ : Type) where
  listeners : List (List (Confirmation τ))
  closed : List (List (Confirmation τ))
  sequencer : AList fun _ : τ => Confirmation τ
  deferredConfirmations : DeferredConfirmations τ
  published : τ
  expecting : τ

variable [DecidableEq τ]

/-! ## Deferred confirmations -/

namespace DeferredConfirmations

def add (d : DeferredConfirmations τ) (tag : τ) : DeferredConfirmations τ × ℕ :=
  ({ heap := d.heap ++ [{ deliveryTag := tag }],
     confirmations := d.confirmations.insert tag d.heap.length }, d.heap.length)

/-- Updates the confirmation `p` points to and drops its tag. -/
def settle (d : DeferredConfirmations τ) (tag : τ) (p : ℕ)
    (f : DeferredConfirmation τ → DeferredConfirmation τ) : DeferredConfirmations τ :=
  { heap := d.heap.modify p f, confirmations := d.confirmations.erase tag }

def remove (d : DeferredConfirmations τ) (tag : τ) : DeferredConfirmations τ :=
  match d.confirmations.lookup tag with
  | none => d
  | some p => d.settle tag p DeferredConfirmation.closeDone

def confirm (d : DeferredConfirmations τ) (confirmation : Confirmation τ) :
    DeferredConfirmations τ :=
  match d.confirmations.lookup confirmation.deliveryTag with
  | none => d
  | some p => d.settle confirmation.deliveryTag p (DeferredConfirmation.setAck confirmation.ack)

/-- One `range` over the map that settles the entries whose tag is selected. -/
def settleAll (d : DeferredConfirmations τ) (selected : τ → Bool) (ack : Bool) :
    DeferredConfirmations τ :=
  d.confirmations.entries.foldl
    (fun d e => if selected e.1 then d.settle e.1 e.2 (DeferredConfirmation.setAck ack) else d) d

def confirmMultiple [LE τ] [DecidableLE τ] (d : DeferredConfirmations τ)
    (confirmation : Confirmation τ) : DeferredConfirmations τ :=
  d.settleAll (fun k => k ≤ confirmation.deliveryTag) confirmation.ack

def close (d : DeferredConfirmations τ) : DeferredConfirmations τ :=
  d.settleAll (fun _ => true) false

end DeferredConfirmations

/-! ## The resequencer -/

namespace Confirms

variable [LE τ] [DecidableLE τ] [Add τ] [Sub τ] [OfNat τ 0] [OfNat τ 1]

def newConfirms : Confirms τ where
  listeners := []
  closed := []
  sequencer := ∅
  deferredConfirmations := ⟨[], ∅⟩
  published := 0
  expecting := 1

def listen (c : Confirms τ) : Confirms τ :=
  { c with listeners := c.listeners ++ [[]] }

def publish (c : Confirms τ) : Confirms τ × ℕ :=
  let published := c.published + 1
  let (deferred, dc) := c.deferredConfirmations.add published
  ({ c with published := published, deferredConfirmations := deferred }, dc)

def unpublish (c : Confirms τ) : Confirms τ :=
  { c with
    deferredConfirmations := c.deferredConfirmations.remove c.published
    published := c.published - 1 }

def getNextPublishSeqNo (c : Confirms τ) : τ := c.published + 1

def confirm (c : Confirms τ) (confirmation : Confirmation τ) : Confirms τ :=
  { c with
    sequencer := c.sequencer.erase c.expecting
    expecting := c.expecting + 1
    listeners := c.listeners.map (· ++ [confirmation]) }

/-- The loop of `resequence`. A round removes a key of the sequencer. -/
def resequenceLoop : ℕ → Confirms τ → Confirms τ
  | 0, c => c
  | rounds + 1, c =>
      if c.expecting ≤ c.published then
        match c.sequencer.lookup c.expecting with
        | none => c
        | some sequenced => resequenceLoop rounds (c.confirm sequenced)
      else c

def resequence (c : Confirms τ) : Confirms τ :=
  resequenceLoop c.sequencer.keys.length c

/-- The loop of `resequence`, over a bound on its rounds. -/
def resequenceRounds : ℕ → Confirms τ → Option (Confirms τ)
  | 0, _ => none
  | rounds + 1, c =>
      if c.expecting ≤ c.published then
        match c.sequencer.lookup c.expecting with
        | none => some c
        | some sequenced => resequenceRounds rounds (c.confirm sequenced)
      else some c

/-- `One` up to its call of `resequence`. -/
def oneHead (c : Confirms τ) (confirmed : Confirmation τ) : Confirms τ :=
  let c := { c with deferredConfirmations := c.deferredConfirmations.confirm confirmed }
  if c.expecting = confirmed.deliveryTag then c.confirm confirmed
  else { c with sequencer := c.sequencer.insert confirmed.deliveryTag confirmed }

/-- The loop of `Multiple`, over a bound on its rounds. -/
def multipleLoop : ℕ → Confirms τ → Confirmation τ → Option (Confirms τ)
  | 0, _, _ => none
  | rounds + 1, c, confirmed =>
      if c.expecting ≤ confirmed.deliveryTag then
        multipleLoop rounds (c.confirm ⟨c.expecting, confirmed.ack⟩) confirmed
      else some c

/-- `Multiple` up to its call of `resequence`. -/
def multipleHead (rounds : ℕ) (c : Confirms τ) (confirmed : Confirmation τ) :
    Option (Confirms τ) :=
  multipleLoop rounds
    { c with deferredConfirmations := c.deferredConfirmations.confirmMultiple confirmed }
    confirmed

def one (rounds : ℕ) (c : Confirms τ) (confirmed : Confirmation τ) : Option (Confirms τ) :=
  resequenceRounds rounds (c.oneHead confirmed)

/-- A bound for each of the two loops. -/
def multiple (rounds rounds' : ℕ) (c : Confirms τ) (confirmed : Confirmation τ) :
    Option (Confirms τ) :=
  (c.multipleHead rounds confirmed).bind (resequenceRounds rounds')

def close (c : Confirms τ) : Confirms τ :=
  { c with
    deferredConfirmations := c.deferredConfirmations.close
    closed := c.closed ++ c.listeners
    listeners := [] }

end Confirms

end Amqp091

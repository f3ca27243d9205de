import Amqp091.Verification.Calls.Connection
import Amqp091.Verification.Calls.Truthful
import Amqp091.Verification.Registry.Lookup

/-! # Which channels the shutdown of a connection reaches

Every `Channel` is in the registry until it is shut down, except for those that could not be
opened, which the application never gets. -/

namespace Amqp091

open Transition

namespace CallChannel

variable {s s' : CallChannel} {a : Action}

/-- No call is under way. -/
def AllReturned (s : CallChannel) : Prop :=
  ∀ (i : ℕ) (c : ChannelCall), s.calls[i]? = some c → ∃ r, c.phase = .returned r

theorem Step.length_calls (h : s.Step a s') (ha : a.isCall = false) :
    s'.calls.length = s.calls.length := by
  cases h with
  | call => cases ha
  | shutdown err => simp
  | _ => simp [setPhase]

theorem Step.offering_of_offering (h : s.Step a s') (ha : a.endsOffer = false)
    (hoffering : s.offering = true) : s'.offering = true := by
  cases h with
  | takeReply => cases ha
  | giveUp => cases ha
  | offer => rfl
  | shutdown err => simpa using hoffering
  | _ => exact hoffering

/-- The body of `shutdown` is entered behind the store of the flag. -/
theorem Step.closed_of_stage (h : s.Step a s') (hs : s.stage ≠ .idle → s.closed = true)
    (hstage : s'.stage ≠ .idle) : s'.closed = true := by
  cases h with
  | setClosed => rfl
  | shutdown err => simp
  | sendError hentered => exact hs (by simp [hentered])
  | closeErrors hentered => exact hs (by rcases hentered with ⟨h, -⟩ | h <;> simp [h])
  | finish hclosed => exact hs (by simp [hclosed])
  | _ => exact hs hstage

theorem Step.allReturned (h : s.Step a s') (ha : a.isCall = false) (hall : s.AllReturned) :
    s'.AllReturned := by
  intro i c hc
  have hlt : i < s.calls.length := by
    rw [← h.length_calls ha]
    exact (List.getElem?_eq_some_iff.mp hc).1
  obtain ⟨r, hr⟩ := hall i _ (List.getElem?_eq_getElem hlt)
  have hreturned : s'.Returned i _ r := h.returned ⟨List.getElem?_eq_getElem hlt, hr⟩
  rw [hreturned.1] at hc
  cases hc
  exact ⟨r, hr⟩

end CallChannel

namespace CallConnection

variable {channelMax : ℕ} {s s' : CallConnection} {ch : ChannelRef} {o : CallChannel}

/-- Why a call on a `Channel` does not wait for ever: the shutdown of the connection will find
it, it is shut down, or there is no call. -/
inductive Sheltered (s : CallConnection) (ch : ChannelRef) : Prop
  | registered (h : s.registry.lookupChannel ch.id = some ch)
  | finished (h : (s.channels ch).stage = .finished)
  | unused (h : s.opening ch = .absent ∨ s.opening ch = .failed)
      (hcalls : (s.channels ch).AllReturned)

theorem Sheltered.of_eq (h : s.Sheltered ch)
    (hlookup : s'.registry.lookupChannel ch.id = s.registry.lookupChannel ch.id)
    (hchannels : s'.channels ch = s.channels ch) (hopening : s'.opening ch = s.opening ch) :
    s'.Sheltered ch := by
  cases h with
  | registered h => exact .registered (hlookup.trans h)
  | finished h => exact .finished (by rwa [hchannels])
  | unused h hcalls => exact .unused (by rwa [hopening]) (by rwa [hchannels])

/-- The channels the body of `shutdown` has left to shut down. -/
def Awaited (s : CallConnection) (ch : ChannelRef) : Prop :=
  match s.stage with
  | .shutting current rest => current = some ch ∨ ch ∈ rest
  | _ => False

/-- `allocateChannel` has made the `Channel`. -/
def Known (s : CallConnection) (ch : ChannelRef) : Prop :=
  ch.object < s.registry.created.length ∧ s.opening ch ≠ .absent

structure Valid (channelMax : ℕ) (s : CallConnection) : Prop where
  registry : s.registry.Valid channelMax
  known : ∀ id ch, s.registry.lookupChannel id = some ch → s.Known ch
  sheltered : ∀ ch, s.Sheltered ch
  opener : ∀ ch, s.opening ch = .opening → (s.channels ch).calls.length = 1
  flags : ∀ ch, (s.channels ch).stage ≠ .idle → (s.channels ch).closed = true
  reader : ∀ ch, s.reader = .offering ch → (s.channels ch).offering = true ∧ s.Known ch
  closed : s.stage ≠ .idle → s.registry.closed = true
  shutting : s.stage.isShutting = true → ∀ id ch,
    s.registry.lookupChannel id = some ch → s.Awaited ch ∨ (s.channels ch).stage = .finished
  awaited : ∀ ch, s.Awaited ch → ∃ id, s.registry.lookupChannel id = some ch
  down : s.stage = .finished → ∀ id, s.registry.lookupChannel id = none

theorem valid_start (hmax : 1 ≤ channelMax) : Valid channelMax (start channelMax) where
  registry := Registry.valid_newRegistry hmax
  known := by simp [start, Registry.newRegistry, Registry.lookupChannel]
  sheltered := fun _ => .unused (.inl rfl) (by simp [start, CallChannel.AllReturned])
  opener := by simp [start]
  flags := by simp [start]
  reader := by simp [start]
  closed := by simp [start]
  shutting := by simp [start, ConnectionStage.isShutting]
  awaited := by simp [start, Awaited]
  down := by simp [start]

/-! ## Steps of one channel -/

theorem lift_eq_some {b : CallChannel.Action} :
    s.lift ch b = some s' ↔ ∃ o, (s.channels ch).next b = some o ∧ s.setChannel ch o = s' := by
  rw [lift, Option.map_eq_some_iff]

@[simp] theorem channels_setChannel (s : CallConnection) (ch : ChannelRef) (o : CallChannel)
    (d : ChannelRef) : (s.setChannel ch o).channels d = if d = ch then o else s.channels d := by
  simp [setChannel, Function.update_apply]

/-- What holds for all channels still does if the step of one of them keeps it. -/
theorem forall_setChannel {P : ChannelRef → CallChannel → Prop} (h : ∀ d, P d (s.channels d))
    (ho : P ch (s.channels ch) → P ch o) (d : ChannelRef) :
    P d ((s.setChannel ch o).channels d) := by
  rw [channels_setChannel]
  split
  · next hd =>
      subst hd
      exact ho (h d)
  · exact h d

theorem Valid.setChannel (h : s.Valid channelMax) {b : CallChannel.Action}
    (hnext : (s.channels ch).next b = some o)
    (hcall : b.isCall = false ∨ s.opening ch = .opened)
    (hoffer : b.endsOffer = false ∨ s.reader ≠ .offering ch) :
    (s.setChannel ch o).Valid channelMax := by
  have hstep := CallChannel.step_of_next hnext
  constructor
  case registry => exact h.registry
  case known => exact h.known
  case sheltered =>
      intro d
      by_cases hd : d = ch
      · subst hd
        cases h.sheltered d with
        | registered hlookup => exact .registered hlookup
        | finished hfinished =>
            refine .finished ?_
            rw [channels_setChannel, if_pos rfl]
            exact hstep.grows.finished hfinished
        | unused hopening hcalls =>
            refine .unused hopening ?_
            rw [channels_setChannel, if_pos rfl]
            refine hstep.allReturned (hcall.resolve_right ?_) hcalls
            rcases hopening with hopening | hopening <;> simp [hopening]
      · exact (h.sheltered d).of_eq rfl (by rw [channels_setChannel, if_neg hd]) rfl
  case opener =>
      apply forall_setChannel (P := fun d o => s.opening d = .opening → o.calls.length = 1) h.opener
      intro hopener hopening
      have hnot : s.opening ch ≠ .opened := by
        rw [hopening]
        decide
      rw [hstep.length_calls (hcall.resolve_right hnot)]
      exact hopener hopening
  case flags =>
      exact forall_setChannel (P := fun _ o => o.stage ≠ .idle → o.closed = true) h.flags
        hstep.closed_of_stage
  case reader =>
      apply forall_setChannel
        (P := fun d o => s.reader = .offering d → o.offering = true ∧ s.Known d) h.reader
      intro hold hreader
      obtain ⟨hoffering, hknown⟩ := hold hreader
      have hends := hoffer.resolve_right fun hne => hne hreader
      exact ⟨hstep.offering_of_offering hends hoffering, hknown⟩
  case closed => exact h.closed
  case shutting =>
      intro hshutting id
      apply forall_setChannel (P := fun d o =>
        s.registry.lookupChannel id = some d → s.Awaited d ∨ o.stage = .finished)
        (h.shutting hshutting id)
      exact fun hold hlookup => (hold hlookup).imp_right hstep.grows.finished
  case awaited => exact h.awaited
  case down => exact h.down

/-! ## Steps of the connection -/

theorem Valid.setReader (h : s.Valid channelMax) {r : CallReader}
    (hr : ∀ ch, r = .offering ch → (s.channels ch).offering = true ∧ s.Known ch) :
    { s with reader := r }.Valid channelMax :=
  { h with
    sheltered := fun ch => (h.sheltered ch).of_eq rfl rfl rfl
    reader := hr }

theorem Valid.setClosers (h : s.Valid channelMax) (closers : List ChannelRef) :
    { s with closers := closers }.Valid channelMax :=
  { h with sheltered := fun ch => (h.sheltered ch).of_eq rfl rfl rfl }

/-- A release does nothing on a closed connection, and otherwise takes the channel out of the
registry if it is there. -/
theorem release_cases (h : s.registry.Valid channelMax) (hrelease : s.release ch = some s') :
    s' = s ∨ ∃ c, s' = { s with registry := c } ∧ s.registry.closed = false ∧
      c.Valid channelMax ∧ c.created = s.registry.created ∧ ∀ id, c.lookupChannel id =
        if s.registry.lookupChannel id = some ch then none else s.registry.lookupChannel id := by
  unfold CallConnection.release at hrelease
  split at hrelease
  · cases hrelease
  · obtain ⟨c, hc, rfl⟩ := Option.map_eq_some_iff.mp hrelease
    cases hclosed : s.registry.closed with
    | true =>
        rw [Registry.releaseChannel, if_pos hclosed] at hc
        cases hc
        exact .inl rfl
    | false =>
        obtain ⟨hlookup, hcreated, -⟩ := h.lookupChannel_releaseChannel hclosed hc
        obtain ⟨c', hc', hvalid⟩ := Registry.releaseChannel_spec h ch
        rw [hc] at hc'
        cases hc'
        exact .inr ⟨c, rfl, rfl, hvalid, hcreated, hlookup⟩

/-- On an open connection the body of `shutdown` is not entered. -/
theorem Valid.idle (h : s.Valid channelMax) (hopen : s.registry.closed = false) :
    s.stage = .idle := by
  by_contra hstage
  rw [h.closed hstage] at hopen
  cases hopen

theorem not_awaited_of_idle (hidle : s.stage = .idle) (ch : ChannelRef) : ¬ s.Awaited ch := by
  simp [Awaited, hidle]

/-- A channel may be released once it is shut down, or if there is no call on it. -/
theorem Valid.release (h : s.Valid channelMax)
    (hsafe : (s.channels ch).stage = .finished ∨
      (s.opening ch = .absent ∨ s.opening ch = .failed) ∧ (s.channels ch).AllReturned)
    (hrelease : s.release ch = some s') : s'.Valid channelMax := by
  rcases release_cases h.registry hrelease with
    rfl | ⟨c, rfl, hopen, hvalid, hcreated, hlookup⟩
  · exact h
  · have hidle := h.idle hopen
    refine { h with
      registry := hvalid
      known := fun id d hd => ?_
      sheltered := fun d => ?_
      reader := fun d hd => ?_
      closed := fun hstage => absurd hidle hstage
      shutting := fun hshutting => ?_
      awaited := fun d hd => absurd hd (not_awaited_of_idle hidle d)
      down := fun hdown => ?_ }
    · rw [hlookup] at hd
      split at hd
      · cases hd
      · unfold Known
        rw [hcreated]
        exact h.known id d hd
    · by_cases hd : d = ch
      · subst hd
        rcases hsafe with hfinished | ⟨hopening, hcalls⟩
        · exact .finished hfinished
        · exact .unused hopening hcalls
      · cases h.sheltered d with
        | registered hold =>
            refine .registered ((hlookup d.id).trans ?_)
            rw [hold, if_neg fun heq => hd (Option.some.inj heq)]
        | finished hfinished => exact .finished hfinished
        | unused hopening hcalls => exact .unused hopening hcalls
    · unfold Known
      rw [hcreated]
      exact h.reader d hd
    · replace hshutting : s.stage.isShutting = true := hshutting
      rw [hidle] at hshutting
      cases hshutting
    · replace hdown : s.stage = .finished := hdown
      rw [hidle] at hdown
      cases hdown

theorem opening_setOpening (s : CallConnection) (ch : ChannelRef) (phase : ChannelOpening)
    (d : ChannelRef) :
    (s.setOpening ch phase).opening d = if d = ch then phase else s.opening d := by
  simp [setOpening, Function.update_apply]

/-- The end of `openChannel`. -/
theorem Valid.setOpening (h : s.Valid channelMax) (hopening : s.opening ch = .opening)
    {phase : ChannelOpening} (hphase : phase = .opened ∨ phase = .failed) :
    (s.setOpening ch phase).Valid channelMax := by
  have hknown : ∀ d, s.Known d → (s.setOpening ch phase).Known d := by
    intro d hd
    refine ⟨hd.1, ?_⟩
    rw [opening_setOpening]
    split
    · rcases hphase with rfl | rfl <;> decide
    · exact hd.2
  refine { h with
    known := fun id d hd => hknown d (h.known id d hd)
    sheltered := fun d => ?_
    opener := fun d hd => ?_
    reader := fun d hd => (h.reader d hd).imp_right (hknown d) }
  · cases h.sheltered d with
    | registered hlookup => exact .registered hlookup
    | finished hfinished => exact .finished hfinished
    | unused hunused hcalls =>
        have hd : d ≠ ch := by
          rintro rfl
          rw [hopening] at hunused
          rcases hunused with h | h <;> cases h
        exact .unused (by rwa [opening_setOpening, if_neg hd]) hcalls
  · rw [opening_setOpening] at hd
    split at hd
    · rcases hphase with rfl | rfl <;> cases hd
    · exact h.opener d hd

theorem release_setOpening (s : CallConnection) (ch d : ChannelRef) (phase : ChannelOpening) :
    (s.setOpening ch phase).release d = (s.release d).map fun t => t.setOpening ch phase := by
  cases hshutting : s.stage.isShutting <;>
    simp [CallConnection.release, CallConnection.setOpening, hshutting, Function.comp_def]

/-- The opening call is the only one. -/
theorem Valid.allReturned_of_openResult (h : s.Valid channelMax) {r : ChannelResult}
    (hresult : s.openResult ch = some r) :
    s.opening ch = .opening ∧ (s.channels ch).AllReturned := by
  unfold openResult at hresult
  split at hresult
  · next hopening =>
      refine ⟨hopening, fun i c hc => ?_⟩
      have hlength := h.opener ch hopening
      obtain ⟨hlt, -⟩ := List.getElem?_eq_some_iff.mp hc
      obtain rfl : i = 0 := by omega
      rw [hc] at hresult
      cases hphase : c.phase with
      | returned r => exact ⟨r, rfl⟩
      | _ =>
          rw [Option.bind_some, hphase] at hresult
          cases hresult
  · cases hresult

/-- The registry changes but for the channels in it. -/
theorem Valid.setRegistry (h : s.Valid channelMax) {c : Registry} (hvalid : c.Valid channelMax)
    (hlookup : c.lookupChannel = s.registry.lookupChannel)
    (hcreated : c.created = s.registry.created)
    (hclosed : s.registry.closed = true → c.closed = true) :
    { s with registry := c }.Valid channelMax :=
  { h with
    registry := hvalid
    known := by
      simp only [Known, hlookup, hcreated]
      exact h.known
    sheltered := fun ch => (h.sheltered ch).of_eq (congrFun hlookup ch.id) rfl rfl
    reader := by
      simp only [Known, hcreated]
      exact h.reader
    closed := fun hstage => hclosed (h.closed hstage)
    shutting := by
      simp only [hlookup]
      exact h.shutting
    awaited := by
      simp only [hlookup]
      exact h.awaited
    down := by
      simp only [hlookup]
      exact h.down }

/-- Without a free id, or on a closed connection, no channel is made. Otherwise the object is
new and so is its id. -/
theorem openChannel_cases (hmax : channelMax ≤ 65535) (h : s.registry.Valid channelMax)
    (hopen : s.openChannel = some s') :
    (∃ c, s' = { s with registry := c } ∧ c.Valid channelMax ∧
      c.lookupChannel = s.registry.lookupChannel ∧ c.created = s.registry.created ∧
      c.closed = s.registry.closed) ∨
    ∃ c ch, s' = ({ s with registry := c }.setChannel ch newChannel).setOpening ch .opening ∧
      c.Valid channelMax ∧ s.registry.closed = false ∧
      s.registry.lookupChannel ch.id = none ∧ (∀ id, c.lookupChannel id =
        if id = ch.id then some ch else s.registry.lookupChannel id) ∧
      s.registry.created.length = ch.object ∧ c.created.length = s.registry.created.length + 1 := by
  have hstep : ∃ c', s.registry.next .allocateChannel = some c' ∧ c'.Valid channelMax :=
    h.step hmax trivial
  obtain ⟨c', hc', hvalid⟩ := hstep
  obtain ⟨⟨c, result⟩, hc, rfl⟩ := Option.map_eq_some_iff.mp hc'
  unfold CallConnection.openChannel at hopen
  rw [hc] at hopen
  split at hopen
  · cases hopen
  · cases result with
    | error e =>
        cases hopen
        exact .inl ⟨c, rfl, hvalid, Registry.allocateChannel_error hc⟩
    | ok ch =>
        cases hopen
        have hclosed : s.registry.closed = false := by
          by_contra hclosed
          rw [Registry.allocateChannel_of_closed (Bool.eq_true_of_not_eq_false hclosed)] at hc
          cases hc
        obtain ⟨hfree, hlookup, hobject, hcreated, -⟩ := h.allocateChannel_ok hmax hclosed hc
        exact .inr ⟨c, ch, rfl, hvalid, hclosed, hfree, hlookup, hobject, hcreated⟩

theorem Valid.openChannel (hmax : channelMax ≤ 65535) (h : s.Valid channelMax)
    (hopen : s.openChannel = some s') : s'.Valid channelMax := by
  rcases openChannel_cases hmax h.registry hopen with
    ⟨c, rfl, hvalid, hlookup, hcreated, hclosed⟩ |
    ⟨c, ch, rfl, hvalid, hclosed, hfree, hlookup, hobject, hcreated⟩
  · exact h.setRegistry hvalid hlookup hcreated fun hold => hclosed.trans hold
  have hidle := h.idle hclosed
  have hknown : ∀ d, s.Known d →
      (({ s with registry := c }.setChannel ch newChannel).setOpening ch .opening).Known d := by
    intro d hd
    refine ⟨Nat.lt_of_lt_of_le hd.1 (by change _ ≤ c.created.length; omega), ?_⟩
    rw [opening_setOpening]
    split
    · decide
    · exact hd.2
  -- the id was free and the object is new, so no other channel is touched
  refine ⟨hvalid, fun id d hd => ?_, fun d => ?_, fun d hd => ?_, fun d => ?_, fun d hd => ?_,
    fun hstage => absurd hidle hstage, fun hshutting => ?_,
    fun d hd => absurd hd (not_awaited_of_idle hidle d), fun hdown => ?_⟩
  · replace hd : c.lookupChannel id = some d := hd
    rw [hlookup] at hd
    split at hd
    · cases hd
      refine ⟨?_, by rw [opening_setOpening, if_pos rfl]; decide⟩
      change ch.object < c.created.length
      omega
    · exact hknown d (h.known id d hd)
  · by_cases hd : d = ch
    · subst hd
      exact .registered (by change c.lookupChannel d.id = _; rw [hlookup, if_pos rfl])
    · cases h.sheltered d with
      | registered hold =>
          refine .registered ((hlookup d.id).trans ?_)
          rw [if_neg, hold]
          intro hid
          rw [hid, hfree] at hold
          cases hold
      | finished hfinished =>
          exact .finished (by simpa [CallConnection.setOpening, hd] using hfinished)
      | unused hunused hcalls =>
          exact .unused (by rwa [opening_setOpening, if_neg hd])
            (by simpa [CallConnection.setOpening, hd] using hcalls)
  · rw [opening_setOpening] at hd
    by_cases hch : d = ch
    · simp [CallConnection.setOpening, hch, newChannel]
    · rw [if_neg hch] at hd
      simpa [CallConnection.setOpening, hch] using h.opener d hd
  · by_cases hch : d = ch
    · simp [CallConnection.setOpening, hch, newChannel]
    · simpa [CallConnection.setOpening, hch] using h.flags d
  · obtain ⟨hoffering, hold⟩ := h.reader d hd
    have hch : d ≠ ch := by
      rintro rfl
      exact absurd hold.1 (by omega)
    exact ⟨by simpa [CallConnection.setOpening, hch] using hoffering, hknown d hold⟩
  · replace hshutting : s.stage.isShutting = true := hshutting
    rw [hidle] at hshutting
    cases hshutting
  · replace hdown : s.stage = .finished := hdown
    rw [hidle] at hdown
    cases hdown

/-! ## The shutdown of the connection -/

/-- The body of `shutdown` goes on. -/
theorem Valid.setStage (h : s.Valid channelMax) (hclosed : s.registry.closed = true)
    {current : Option ChannelRef} {rest : List ChannelRef} (err : Option Error)
    (hshutting : ∀ id ch, s.registry.lookupChannel id = some ch →
      current = some ch ∨ ch ∈ rest ∨ (s.channels ch).stage = .finished)
    (hawaited : ∀ ch, current = some ch ∨ ch ∈ rest →
      ∃ id, s.registry.lookupChannel id = some ch) :
    { s with stage := .shutting current rest, err := err }.Valid channelMax :=
  { h with
    sheltered := fun ch => (h.sheltered ch).of_eq rfl rfl rfl
    closed := fun _ => hclosed
    shutting := fun _ id ch hch => or_assoc.mpr (hshutting id ch hch)
    awaited := hawaited
    down := fun hdown => by cases hdown }

theorem mem_registered_iff : ch ∈ s.registered ↔ ∃ id, s.registry.lookupChannel id = some ch := by
  unfold registered Registry.lookupChannel
  cases s.registry.channels with
  | none => simp
  | some channels =>
      constructor
      · intro h
        obtain ⟨entry, hentry, rfl⟩ := List.mem_map.mp h
        exact ⟨entry.1, AList.mem_lookup_iff.mpr hentry⟩
      · rintro ⟨id, hid⟩
        rw [Option.bind_some] at hid
        exact List.mem_map_of_mem (AList.mem_lookup_iff.mp hid)

/-- At the end of the body all channels of the registry are shut down. -/
theorem Valid.finish (h : s.Valid channelMax) (hstage : s.stage = .shutting none []) :
    { s with registry := s.registry.shutdownBody, stage := .finished }.Valid channelMax := by
  have hclosed : s.registry.closed = true := h.closed (by simp [hstage])
  have hlookup : ∀ id, s.registry.shutdownBody.lookupChannel id = none := fun _ => rfl
  refine { h with
    registry := .down hclosed rfl
    known := fun id d hd => ?_
    sheltered := fun d => ?_
    reader := h.reader
    closed := fun _ => hclosed
    shutting := fun hshutting => by cases hshutting
    awaited := fun _ hawaited => hawaited.elim
    down := fun _ => hlookup }
  · replace hd : s.registry.shutdownBody.lookupChannel id = some d := hd
    rw [hlookup] at hd
    cases hd
  · cases h.sheltered d with
    | registered hregistered =>
        rcases h.shutting (by simp [hstage, ConnectionStage.isShutting]) _ d hregistered with
          hawaited | hfinished
        · simp [Awaited, hstage] at hawaited
        · exact .finished hfinished
    | finished hfinished => exact .finished hfinished
    | unused hopening hcalls => exact .unused hopening hcalls

/-- A step of one channel, made by one of its calls or by the shutdown of the channel. -/
theorem Valid.lift (h : s.Valid channelMax) {b : CallChannel.Action}
    (hnext : s.lift ch b = some s') (hcall : b.isCall = false ∨ s.opening ch = .opened)
    (hoffer : b.endsOffer = false ∨ s.reader ≠ .offering ch) : s'.Valid channelMax := by
  obtain ⟨o, ho, rfl⟩ := lift_eq_some.mp hnext
  exact h.setChannel ho hcall hoffer

/-- The reader is done with its method. -/
theorem Valid.lift_reading (h : s.Valid channelMax) {b : CallChannel.Action} {t : CallConnection}
    (ht : s.lift ch b = some t) (hcall : b.isCall = false) :
    { t with reader := .reading }.Valid channelMax := by
  obtain ⟨o, ho, rfl⟩ := lift_eq_some.mp ht
  have hreading : { s with reader := .reading }.Valid channelMax := h.setReader (by simp)
  exact hreading.setChannel ho (.inl hcall) (.inr (by simp))

/-- The reader offers a method to a channel of the registry. -/
theorem Valid.readOffer (h : s.Valid channelMax) {id : UInt16} {m : Message} {t : CallConnection}
    (hlookup : s.registry.lookupChannel id = some ch) (ht : s.lift ch (.offer m) = some t) :
    { t with reader := .offering ch }.Valid channelMax := by
  have hvalid := h.lift ht (.inl rfl) (.inl rfl)
  obtain ⟨o, ho, rfl⟩ := lift_eq_some.mp ht
  refine hvalid.setReader fun d hd => ?_
  cases hd
  refine ⟨?_, h.known id ch hlookup⟩
  rw [channels_setChannel, if_pos rfl]
  cases CallChannel.step_of_next ho with
  | offer => rfl

/-- The shutdown of the connection gets to the next channel. -/
theorem Valid.shutdownChannel (h : s.Valid channelMax) {rest : List ChannelRef}
    {t : CallConnection} (hstage : s.stage = .shutting none (ch :: rest))
    (ht : s.lift ch (.shutdown s.err) = some t) :
    { t with stage := .shutting (some ch) rest }.Valid channelMax := by
  have hvalid := h.lift ht (.inl rfl) (.inl rfl)
  obtain ⟨o, ho, rfl⟩ := lift_eq_some.mp ht
  have hall := hvalid.awaited
  simp only [Awaited, CallConnection.setChannel, hstage, reduceCtorEq, false_or,
    List.mem_cons] at hall
  refine hvalid.setStage (h.closed (by simp [hstage])) s.err (fun id d hd => ?_) fun d hd => ?_
  · have hshutting : (s.setChannel ch o).stage.isShutting = true := by
      simp [CallConnection.setChannel, hstage, ConnectionStage.isShutting]
    rcases hvalid.shutting hshutting id d hd with hawaited | hfinished
    · simp only [Awaited, CallConnection.setChannel, hstage, reduceCtorEq, false_or,
        List.mem_cons] at hawaited
      exact hawaited.imp (fun heq => by rw [heq]) .inl
    · exact .inr (.inr hfinished)
  · exact hall d (hd.imp_left fun heq => (Option.some.inj heq).symm)

/-- The shutdown of a channel has ended. -/
theorem Valid.shutdownReturn (h : s.Valid channelMax) {rest : List ChannelRef}
    (hstage : s.stage = .shutting (some ch) rest)
    (hfinished : (s.channels ch).stage = .finished) :
    { s with stage := .shutting none rest }.Valid channelMax := by
  have hall := h.awaited
  simp only [Awaited, hstage] at hall
  refine h.setStage (h.closed (by simp [hstage])) s.err (fun id d hd => ?_) fun d hd => ?_
  · rcases h.shutting (by simp [hstage, ConnectionStage.isShutting]) id d hd with
      hawaited | hdone
    · simp only [Awaited, hstage] at hawaited
      rcases hawaited with heq | hrest
      · cases heq
        exact .inr (.inr hfinished)
      · exact .inr (.inl hrest)
    · exact .inr (.inr hdone)
  · exact hall d (.inr (hd.resolve_left (by simp)))

theorem Valid.step (hmax : channelMax ≤ 65535) (h : s.Valid channelMax) (hstep : s.Step s') :
    s'.Valid channelMax := by
  cases hstep with
  | openChannel hopen => exact h.openChannel hmax hopen
  | opened hresult => exact h.setOpening (h.allReturned_of_openResult hresult).1 (.inl rfl)
  | openFailed hresult ht =>
      obtain ⟨hopening, hcalls⟩ := h.allReturned_of_openResult hresult
      have hfailed := h.setOpening hopening (.inr rfl)
      refine hfailed.release (.inr ⟨.inr ?_, hcalls⟩) (by rw [release_setOpening, ht]; rfl)
      rw [opening_setOpening, if_pos rfl]
  | call hopened hlift => exact h.lift hlift (.inr hopened) (.inl rfl)
  | own hown hoffer hlift =>
      exact h.lift hlift (.inl (CallChannel.Action.isCall_of_isOwn hown)) (.inl hoffer)
  | reply hreader hown ht => exact h.lift_reading ht (CallChannel.Action.isCall_of_isOwn hown)
  | read => exact h
  | readClose e hreader hlookup ht => exact (h.lift ht (.inl rfl) (.inl rfl)).setReader (by simp)
  | readOffer hreader hlookup ht => exact h.readOffer hlookup ht
  | readerShutdown hreader ht => exact (h.lift ht (.inl rfl) (.inl rfl)).setReader (by simp)
  | readerRelease hreader hfinished ht =>
      exact (h.release (.inl hfinished) ht).setReader (by simp)
  | closeChannel hopened ht => exact (h.lift ht (.inl rfl) (.inl rfl)).setClosers _
  | release hfinished ht => exact (h.release (.inl hfinished) ht).setClosers _
  | setClosed =>
      obtain ⟨c, hc, hvalid⟩ : ∃ c, s.registry.next .setClosed = some c ∧ c.Valid channelMax :=
        h.registry.step hmax trivial
      cases hc
      exact h.setRegistry hvalid rfl rfl fun _ => rfl
  | shutdown hclosed hperm =>
      refine h.setStage hclosed _ (fun id d hd => ?_) fun d hd => ?_
      · exact .inr (.inl (hperm.mem_iff.mpr (mem_registered_iff.mpr ⟨id, hd⟩)))
      · exact mem_registered_iff.mp (hperm.mem_iff.mp (hd.resolve_left (by simp)))
  | shutdownChannel hstage ht => exact h.shutdownChannel hstage ht
  | shutdownReturn hstage hfinished => exact h.shutdownReturn hstage hfinished
  | finish hstage => exact h.finish hstage

end CallConnection

end Amqp091

import Amqp091.Verification.Channel.Resolution

/-! # Sequence numbers follow the wire

A record of the publishes on a channel in confirm mode, kept next to its state: which of
them succeeded, with which deferred confirmation, and where their frames stand. -/

namespace Amqp091

open Positions Transition

variable {rt : GoRuntime} {frameSize : ℤ} {id : UInt16}

/-- A publish that succeeded. `dc` points to the deferred confirmation it returned,
`position` is the place of its first frame among those written for the channel. -/
structure Published (rt : GoRuntime) where
  publishing : Publishing rt
  dc : ℕ
  position : ℕ

def Published.frame (id : UInt16) (x : Published rt) : Frame :=
  x.publishing.content.frame id .method

/-- `before` is what the holder of `ch.m` found in `confirms` when it took the lock, `acks`
lists the confirmations processed since, and `position` is where its first frame went. -/
structure PublishLog (rt : GoRuntime) where
  channel : ChannelState rt
  before : Confirms ℕ
  acks : List ServerConfirm
  position : ℕ
  published : List (Published rt)

namespace PublishLog

/-- What a call that has ended adds to the publishes that succeeded. -/
def succeeded (position : ℕ) : Option (Holder rt) → List (Published rt)
  | some ⟨.publish p, some dc, .done (.returned none)⟩ => [⟨p, dc, position⟩]
  | _ => []

def record (s : PublishLog rt) (channel : ChannelState rt) : ChannelAction rt → PublishLog rt
  | .lock _ => { s with channel := channel, before := s.channel.confirms, acks := [] }
  | .step _ => { s with
      channel := channel
      position :=
        if s.channel.holder.map Holder.point = some (.write .method) then
          s.channel.link.written.length
        else s.position }
  | .unlock => { s with
      channel := channel
      published := s.published ++ succeeded s.position s.channel.holder }
  | .serverConfirm e => { s with channel := channel, acks := s.acks ++ [e] }
  | _ => { s with channel := channel }

def next (frameSize : ℤ) (id : UInt16) (s : PublishLog rt) (a : ChannelAction rt) :
    Option (PublishLog rt) :=
  (s.channel.next frameSize id a).map fun channel => s.record channel a

theorem channel_record (s : PublishLog rt) (channel : ChannelState rt) (a : ChannelAction rt) :
    (s.record channel a).channel = channel := by
  cases a <;> rfl

/-- Confirm mode is on and nothing was published. -/
def start (link : Link) (senders : List Sender) : PublishLog rt :=
  ⟨.start link senders true, .newConfirms, [], 0, []⟩

/-- Every send returns. -/
def SendsReturn (s : PublishLog rt) (a : ChannelAction rt) : Prop :=
  a = .unlock → ∀ h ∈ s.channel.holder, h.point ≠ .done .panicked

end PublishLog

/-- The deferred confirmation of the publish in progress. -/
def ChannelState.current (s : ChannelState rt) : Option ℕ := s.holder.bind Holder.dc

/-! ## The frames of a publish -/

/-- The first frame of the message has been written, and the send can still succeed. -/
def Point.started : Point → Bool
  | .test .method | .write .method => false
  | .test _ | .write _ | .flush (.returned none) | .done (.returned none) => true
  | _ => false

theorem SendStep.started {c : Content rt} {l l' : Link} {p p' : Point}
    (h : SendStep frameSize id l (.content c) p l' p') (hstarted : p'.started = true) :
    p = .write .method ∧ l'.written = l.written ++ [c.frame id .method] ∨ p.started = true := by
  cases h with
  | send | sendOpen | refused | unencodable | broken => cases hstarted
  | closed => cases hstarted
  | @test cursor =>
      cases cursor with
      | method => cases hstarted
      | header | body => exact .inr rfl
  | @wrote cursor c' hmsg =>
      cases hmsg
      cases cursor with
      | method => exact .inl ⟨rfl, rfl⟩
      | header | body => exact .inr rfl
  | sent hmsg | unflushed hmsg => cases hmsg
  | @flush outcome err =>
      cases outcome with
      | panicked => cases hstarted
      | returned err' =>
          cases err' with
          | none => exact .inr rfl
          | some e => cases hstarted

namespace PublishLog

variable {s s' : PublishLog rt} {a : ChannelAction rt}

/-- The frames of the publishes that succeeded are where the record says, in its order. -/
structure OnWire (id : UInt16) (s : PublishLog rt) : Prop where
  ordered : s.published.Pairwise fun x y => x.position < y.position
  frames : ∀ x ∈ s.published, s.channel.link.written[x.position]? = some (x.frame id)
  first : ∀ h ∈ s.channel.holder, ∀ p, h.call = .publish p → h.point.started = true →
    s.channel.link.written[s.position]? = some (p.content.frame id .method) ∧
      ∀ x ∈ s.published, x.position < s.position

theorem OnWire.lt_length (h : OnWire id s) {x : Published rt} (hx : x ∈ s.published) :
    x.position < s.channel.link.written.length :=
  (List.getElem?_eq_some_iff.mp (h.frames x hx)).1

/-- What stands among the frames written stays there. -/
theorem kept_of_extends {w w' : List Frame} (h : w <+: w') {i : ℕ} {f : Frame}
    (hf : w[i]? = some f) : w'[i]? = some f := by
  obtain ⟨hi, rfl⟩ := List.getElem?_eq_some_iff.mp hf
  exact List.prefix_iff_getElem?.mp h i hi

/-- More frames are written and the publish in progress does not move. -/
theorem OnWire.extend (h : OnWire id s) (hpublished : s'.published = s.published)
    (hposition : s'.position = s.position)
    (hwritten : s.channel.link.written <+: s'.channel.link.written)
    (hholder : ∀ x ∈ s'.channel.holder, x ∈ s.channel.holder ∨ x.point.started = false) :
    OnWire id s' where
  ordered := hpublished ▸ h.ordered
  frames := fun x hx => kept_of_extends hwritten (h.frames x (hpublished ▸ hx))
  first := by
    intro x hx p hp hstarted
    rw [hposition, hpublished]
    rcases hholder x hx with hx | hnot
    · obtain ⟨hfirst, hlt⟩ := h.first x hx p hp hstarted
      exact ⟨kept_of_extends hwritten hfirst, hlt⟩
    · rw [hstarted] at hnot
      cases hnot

theorem OnWire.step_holder (h : OnWire id s) {x : Holder rt} {link : Link} {point : Point}
    (hholder : s.channel.holder = some x)
    (hstep : SendStep frameSize id s.channel.link x.call.message x.point link point)
    (t : Transport) :
    OnWire id (s.record
      { s.channel with link := link, holder := some { x with point := point } } (.step t)) where
  ordered := h.ordered
  frames := fun y hy => kept_of_extends hstep.written_extends (h.frames y hy)
  first := by
    intro y hy p hp hstarted
    cases hy
    have hmessage : x.call.message = .content p.content := by rw [hp]; rfl
    rw [hmessage] at hstep
    simp only [record, hholder, Option.map_some, Option.some.injEq]
    rcases hstep.started hstarted with ⟨hpoint, hwritten⟩ | hbefore
    · rw [if_pos hpoint, hwritten]
      exact ⟨List.getElem?_concat_length, fun z hz => h.lt_length hz⟩
    · have hne : x.point ≠ .write .method := by
        intro heq
        rw [heq] at hbefore
        cases hbefore
      rw [if_neg hne]
      obtain ⟨hfirst, hlt⟩ := h.first x hholder p hp hbefore
      exact ⟨kept_of_extends hstep.written_extends hfirst, hlt⟩

/-- A call ends. -/
theorem OnWire.release (h : OnWire id s) {channel : ChannelState rt}
    (hlink : channel.link = s.channel.link) (hfree : channel.holder = none) :
    OnWire id (s.record channel .unlock) where
  ordered := by
    refine List.pairwise_append.mpr ⟨h.ordered, ?_, ?_⟩
    · unfold succeeded
      split
      · exact List.pairwise_singleton _ _
      · exact List.Pairwise.nil
    · intro x hx y hy
      unfold succeeded at hy
      split at hy
      · rename_i p dc hholder
        rw [List.mem_singleton.mp hy]
        exact (h.first _ hholder p rfl rfl).2 x hx
      · cases hy
  frames := by
    intro x hx
    rw [record, hlink]
    rcases List.mem_append.mp hx with hx | hx
    · exact h.frames x hx
    · unfold succeeded at hx
      split at hx
      · rename_i p dc hholder
        rw [List.mem_singleton.mp hx]
        exact (h.first _ hholder p rfl rfl).1
      · cases hx
  first := by
    intro x hx
    rw [record, hfree] at hx
    cases hx

theorem OnWire.step (h : OnWire id s) {channel : ChannelState rt}
    (hstep : s.channel.Step frameSize id a channel) : OnWire id (s.record channel a) := by
  cases hstep with
  | publish | lock =>
      refine h.extend rfl rfl (List.prefix_refl _) fun x hx => ?_
      cases hx
      exact .inr rfl
  | step hholder hstep => exact h.step_holder hholder (sendStep_of_step hstep) _
  | succeed | unpublish | fail | panic => exact h.release rfl rfl
  | stepSender _ hstep =>
      exact h.extend rfl rfl (sendStep_of_step hstep).written_extends fun x hx => .inl hx
  | _ => exact h.extend rfl rfl (List.prefix_refl _) fun x hx => .inl hx

/-! ## The counter -/

/-- The counter is ahead of the successes by the publish in progress, and tags are given out
in the order of the successes. -/
structure Counted (s : PublishLog rt) : Prop where
  count : s.channel.confirms.published = s.published.length + s.channel.current.toList.length
  tags : ∀ k x, s.published[k]? = some x → s.channel.deferred.tags[x.dc]? = some (k + 1)
  tag : ∀ dc, s.channel.current = some dc →
    s.channel.deferred.tags[dc]? = some s.channel.confirms.published

theorem Counted.frame (h : Counted s) (hlog : s'.published = s.published)
    (hcount : s'.channel.confirms.published = s.channel.confirms.published)
    (htags : s'.channel.deferred.tags = s.channel.deferred.tags)
    (hcurrent : s'.channel.current = s.channel.current) : Counted s' where
  count := by rw [hcount, hlog, hcurrent, h.count]
  tags := by
    rw [hlog, htags]
    exact h.tags
  tag := by
    rw [hcurrent, htags, hcount]
    exact h.tag

theorem Counted.publish (h : Counted s) {call : Call rt} (hfree : s.channel.holder = none) :
    Counted (s.record { s.channel with
      confirms := s.channel.confirms.publish.1
      holder := some ⟨call, some s.channel.confirms.publish.2, .send⟩ } (.lock call)) := by
  have hnone : s.channel.current = none := by rw [ChannelState.current, hfree]; rfl
  have htags : (s.channel.confirms.publish.1.deferredConfirmations).tags =
      s.channel.deferred.tags ++ [s.channel.confirms.published + 1] :=
    DeferredConfirmations.tags_add _ _
  refine ⟨?_, ?_, ?_⟩
  · have hcount := h.count
    rw [hnone] at hcount
    exact congrArg (· + 1) hcount
  · intro k x hx
    have hold := h.tags k x hx
    have hlt := (List.getElem?_eq_some_iff.mp hold).1
    rw [record, ChannelState.deferred, htags, List.getElem?_append_left hlt, hold]
  · intro dc hdc
    cases hdc
    have hlength : s.channel.confirms.publish.2 = s.channel.deferred.tags.length :=
      (List.length_map _).symm
    rw [record, ChannelState.deferred, htags, hlength]
    exact List.getElem?_concat_length

/-- The last publish ends with success. -/
theorem Counted.succeed (h : Counted s) {p : Publishing rt} {dc : ℕ}
    (hholder : s.channel.holder = some ⟨.publish p, some dc, .done (.returned none)⟩) :
    Counted (s.record
      { s.channel with holder := none, returned := s.channel.returned ++ [dc] } .unlock) := by
  have hcurrent : s.channel.current = some dc := by rw [ChannelState.current, hholder]; rfl
  have hcount := h.count
  rw [hcurrent, Option.toList_some, List.length_singleton] at hcount
  have hlog : succeeded s.position s.channel.holder = [⟨p, dc, s.position⟩] := by
    rw [hholder]
    rfl
  refine ⟨?_, ?_, fun dc hdc => by cases hdc⟩
  · rw [record, hlog, List.length_append]
    exact hcount
  · intro k x hx
    rw [record, hlog] at hx
    rcases getElem?_concat_cases hx with hx | ⟨rfl, rfl⟩
    · exact h.tags k x hx
    · rw [← hcount]
      exact h.tag dc hcurrent

/-- The last publish is rolled back. -/
theorem Counted.unpublish (h : Counted s) {call : Call rt} {dc : Option ℕ} {e : SendError}
    (hholder : s.channel.holder = some ⟨call, dc, .done (.returned (some e))⟩)
    (hdc : dc.isSome = true) :
    Counted (s.record
      { s.channel with holder := none, confirms := s.channel.confirms.unpublish } .unlock) := by
  obtain ⟨q, rfl⟩ := Option.isSome_iff_exists.mp hdc
  have hcount := h.count
  rw [ChannelState.current, hholder] at hcount
  have hlog : succeeded s.position s.channel.holder = [] := by
    rw [hholder]
    cases call <;> rfl
  refine ⟨?_, ?_, fun dc hdc => by cases hdc⟩
  · rw [record, hlog, List.append_nil]
    exact Nat.sub_eq_of_eq_add hcount
  · rw [record, hlog, List.append_nil, ChannelState.deferred, Confirms.unpublish]
    simpa [ChannelState.deferred] using h.tags

theorem Counted.step (h : Counted s) (haccounted : s.channel.Accounted)
    {channel : ChannelState rt} (hguard : s.SendsReturn a)
    (hstep : s.channel.Step frameSize id a channel) : Counted (s.record channel a) := by
  cases hstep with
  | publish hfree => exact h.publish hfree
  | lock hfree =>
      refine h.frame rfl rfl rfl ?_
      rw [ChannelState.current, ChannelState.current, hfree]
      rfl
  | step hholder =>
      refine h.frame rfl rfl rfl ?_
      rw [ChannelState.current, ChannelState.current, hholder]
      rfl
  | @succeed call dc hholder =>
      have hcall := haccounted.counted _ hholder
      cases dc with
      | none =>
          refine h.frame ?_ rfl rfl ?_
          · rw [record, hholder]
            cases call <;> exact List.append_nil _
          · rw [ChannelState.current, ChannelState.current, hholder]
            rfl
      | some dc =>
          cases call with
          | publish p => exact h.succeed hholder
          | _ => cases hcall
  | @unpublish call dc e hholder hpublish =>
      exact h.unpublish hholder ((haccounted.counted _ hholder).trans hpublish)
  | @fail call dc e hholder hcount =>
      have hplain : call.isPublish = false := by simpa [haccounted.confirming] using hcount
      have hnone : dc = none :=
        Option.isNone_iff_eq_none.mp (by
          simpa using (haccounted.counted _ hholder).trans hplain)
      subst hnone
      refine h.frame ?_ rfl rfl ?_
      · rw [record, hholder]
        cases call <;> exact List.append_nil _
      · rw [ChannelState.current, ChannelState.current, hholder]
        rfl
  | panic hholder => exact absurd rfl (hguard rfl _ hholder)
  | @serverConfirm e c _ _ hhead =>
      obtain ⟨hdeferred, hpublished⟩ := ServerConfirm.head_deferred hhead
      have htags := DeferredConfirmations.tags_defer s.channel.deferred e
      exact h.frame rfl hpublished ((congrArg DeferredConfirmations.tags hdeferred).trans htags) rfl
  | resequence =>
      obtain ⟨hdeferred, hpublished⟩ := Confirms.resequence_deferred s.channel.confirms
      exact h.frame rfl hpublished (congrArg DeferredConfirmations.tags hdeferred) rfl
  | shutdown => exact h.frame rfl rfl (DeferredConfirmations.tags_close _) rfl
  | _ => exact h.frame rfl rfl rfl rfl

/-! ## Rolling back -/

/-- What the publish in progress found is still there, up to its own entry and the entries
that were confirmed since. -/
structure Restorable (s : PublishLog rt) : Prop where
  positive : ∀ t p, s.channel.deferred.confirmations.lookup t = some p → 1 ≤ t
  counter : ∀ dc, s.channel.current = some dc →
    s.channel.confirms.published = s.before.published + 1
  fresh : ∀ dc, s.channel.current = some dc →
    s.before.deferredConfirmations.confirmations.lookup s.channel.confirms.published = none
  pending : ∀ dc, s.channel.current = some dc → ∀ t p, t ≠ s.channel.confirms.published →
    (s.channel.deferred.confirmations.lookup t = some p ↔
      s.before.deferredConfirmations.confirmations.lookup t = some p ∧
        ∀ e ∈ s.acks, ¬ e.Covers t)

theorem positive_step (haccounted : s.channel.Accounted) {channel : ChannelState rt}
    (hstep : s.channel.Step frameSize id a channel)
    (h : ∀ t p, s.channel.deferred.confirmations.lookup t = some p → 1 ≤ t) (t p : ℕ)
    (hp : channel.deferred.confirmations.lookup t = some p) : 1 ≤ t := by
  rcases haccounted.deferred_step hstep with hadd | hsettles
  · rw [hadd] at hp
    rcases DeferredConfirmations.Tracked.lookup_add.mp hp with ⟨rfl, -⟩ | ⟨-, hp⟩
    · exact Nat.le_add_left _ _
    · exact h t p hp
  · exact h t p (hsettles.lookup t p hp)

/-- Nothing is published, or the publish in progress goes on undisturbed. -/
theorem Restorable.frame (h : Restorable s) (hpositive : ∀ t p,
      s'.channel.deferred.confirmations.lookup t = some p → 1 ≤ t)
    (hcurrent : s'.channel.current = none ∨ s'.channel.current = s.channel.current ∧
      s'.channel.confirms.published = s.channel.confirms.published ∧
      s'.channel.deferred = s.channel.deferred ∧ s'.before = s.before ∧ s'.acks = s.acks) :
    Restorable s' := by
  rcases hcurrent with hnone | ⟨hcurrent, hpublished, hdeferred, hbefore, hacks⟩
  · have habsurd : ∀ dc, s'.channel.current ≠ some dc := by simp [hnone]
    exact ⟨hpositive, fun dc hdc => absurd hdc (habsurd dc),
      fun dc hdc => absurd hdc (habsurd dc), fun dc hdc => absurd hdc (habsurd dc)⟩
  · refine ⟨hpositive, ?_, ?_, ?_⟩
    · rw [hcurrent, hpublished, hbefore]
      exact h.counter
    · rw [hcurrent, hpublished, hbefore]
      exact h.fresh
    · rw [hcurrent, hpublished, hbefore, hdeferred, hacks]
      exact h.pending

theorem Restorable.step (h : Restorable s) (haccounted : s.channel.Accounted)
    {channel : ChannelState rt} (hstep : s.channel.Step frameSize id a channel) :
    Restorable (s.record channel a) := by
  have hpositive := positive_step haccounted hstep h.positive
  cases hstep with
  | publish hfree =>
      refine ⟨hpositive, fun _ _ => rfl, fun _ _ => haccounted.fresh, fun _ _ t p ht => ?_⟩
      -- the new entry is the only difference, and nothing was confirmed yet
      refine DeferredConfirmations.Tracked.lookup_add.trans ⟨?_, ?_⟩
      · intro hp
        rcases hp with ⟨heq, -⟩ | ⟨-, hp⟩
        · exact absurd heq ht
        · exact ⟨hp, fun e he => nomatch he⟩
      · exact fun hp => .inr ⟨ht, hp.1⟩
  | step hholder =>
      refine h.frame hpositive (.inr ⟨?_, rfl, rfl, rfl, rfl⟩)
      rw [ChannelState.current, ChannelState.current, hholder]
      rfl
  | lock | succeed | unpublish | fail | panic => exact h.frame hpositive (.inl rfl)
  | @serverConfirm e c _ _ hhead =>
      obtain ⟨hdeferred, hpublished⟩ := ServerConfirm.head_deferred hhead
      refine ⟨hpositive, ?_, ?_, ?_⟩
      · intro dc hdc
        exact hpublished.trans (h.counter dc hdc)
      · intro dc hdc
        rw [record, hpublished]
        exact h.fresh dc hdc
      · intro dc hdc t p ht
        have hold := h.pending dc hdc t p (hpublished ▸ ht)
        have hlookup : c.deferredConfirmations.confirmations.lookup t = some p ↔
            s.channel.deferred.confirmations.lookup t = some p ∧ ¬ e.Covers t := by
          rw [hdeferred]
          constructor
          · intro hp
            have hp' := (DeferredConfirmations.Settles.defer haccounted.tracked e).lookup t p hp
            exact (ServerConfirm.lookup_defer_iff (h.positive t p hp')).mp hp
          · intro hp
            exact (ServerConfirm.lookup_defer_iff (h.positive t p hp.1)).mpr hp
        refine hlookup.trans ?_
        rw [hold]
        simp [record, or_imp, forall_and, and_assoc]
  | resequence =>
      obtain ⟨hdeferred, hpublished⟩ := Confirms.resequence_deferred s.channel.confirms
      exact h.frame hpositive (.inr ⟨rfl, hpublished, hdeferred, rfl, rfl⟩)
  | shutdown _ hfree =>
      exact h.frame hpositive (.inl (congrArg (Option.bind · Holder.dc) hfree))
  | _ => exact h.frame hpositive (.inr ⟨rfl, rfl, rfl, rfl, rfl⟩)

/-! ## Runs -/

structure Numbered (id : UInt16) (s : PublishLog rt) : Prop where
  accounted : s.channel.Accounted
  onWire : OnWire id s
  counted : Counted s
  restorable : Restorable s

theorem Numbered.step (h : Numbered id s) (hguard : s.SendsReturn a)
    (hnext : s.next frameSize id a = some s') : Numbered id s' := by
  obtain ⟨channel, hchannel, rfl⟩ := Option.map_eq_some_iff.mp hnext
  have hstep := ChannelState.step_of_next hchannel
  refine ⟨?_, h.onWire.step hstep, h.counted.step h.accounted hguard hstep,
    h.restorable.step h.accounted hstep⟩
  rw [channel_record]
  exact h.accounted.step hstep

end PublishLog

end Amqp091

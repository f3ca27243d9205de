import Amqp091.Algorithm.Crossing
import Amqp091.Shared.Transition
import Amqp091.Verification.Registry.Lookup

/-! # What the channels of one id know of each other -/

namespace Amqp091

open Transition

/-- Whether the reader holds the `channel.open-ok` for a `Channel`. -/
def CrossingReader.opens (ch : ChannelRef) : CrossingReader → ℕ
  | .delivering _ (.openOk ch') => if ch' = ch then 1 else 0
  | _ => 0

@[simp]
theorem CrossingReader.opens_reading (ch : ChannelRef) : opens ch .reading = 0 := rfl

/-- The `Channel` whose `channel.close` the reader is handling. -/
def CrossingReader.handled : CrossingReader → Option ChannelRef
  | .answering ch | .closing ch | .releasing ch => some ch
  | _ => none

/-- A `Channel` that is being opened, or open. -/
def ChannelObject.Running (o : ChannelObject) : Prop :=
  o.opening = .allocated ∨ o.opening = .waiting ∨ (o.opening = .opened ∧ o.closed = false)

/-- Only a `Channel` that has been opened is closed, and none fails to open. -/
structure ChannelObject.Sound (o : ChannelObject) : Prop where
  opening : o.opening ≠ .failing
  closed : o.closed = true → o.opening = .opened
  destroyed : o.destroyed = true → o.closed = true

/-- `Close` may still write `channel.close`. -/
def ClosePoint.isPending : ClosePoint → Bool
  | .tested | .writing => true
  | _ => false

/-- `Close` has its result. -/
def ClosePoint.isEnded : ClosePoint → Bool
  | .returning | .releasing => true
  | _ => false

/-- What the server never sends one after the other: `channel.close` after the answer to a
close, and `channel.open-ok` after `channel.close`. -/
def ChannelReply.Ordered (a b : ChannelReply) : Prop :=
  (∀ ch, a = .closeOk ch → b ≠ .close ch.id) ∧ ∀ ch, b = .openOk ch → a ≠ .close ch.id

namespace Crossing

variable {channelMax : ℕ} {s s' : Crossing} {ch : ChannelRef} {id : UInt16}

/-- No other `Channel` is registered under the id. -/
def Alone (s : Crossing) (ch : ChannelRef) : Prop :=
  ∀ ch', s.registry.lookupChannel ch.id = some ch' → ch' = ch

/-- The requests and answers to open a `Channel` that are on their way. -/
def opens (s : Crossing) (ch : ChannelRef) : ℕ :=
  s.toServer.count (.open ch) + s.toClient.count (.openOk ch) + s.reader.opens ch

/-- The server has not got to the `channel.open` of a `Channel`, or the client knows that it
has been closed. -/
inductive Settled (s : Crossing) (ch : ChannelRef) : Prop
  | allocated (h : (s.objects ch).opening = .allocated)
  | sent (h : .open ch ∈ s.toServer)
  | closed (h : (s.objects ch).closed = true)
  | delivering (ch' : ChannelRef) (h : s.reader = .delivering ch (.closeOk ch'))
  | ended (call : CloseCall) (hcall : call ∈ s.calls) (hchannel : call.channel = ch)
      (h : call.point.isEnded = true)

theorem Settled.mono (h : s'.Settled ch) (hobjects : s'.objects ch = s.objects ch)
    (hsent : .open ch ∈ s'.toServer → .open ch ∈ s.toServer)
    (hreader : ∀ msg, s'.reader = .delivering ch msg → s.reader = .delivering ch msg)
    (hcalls : ∀ call ∈ s'.calls, call ∈ s.calls) : s.Settled ch := by
  cases h with
  | allocated h => exact .allocated (hobjects ▸ h)
  | sent h => exact .sent (hsent h)
  | closed h => exact .closed (hobjects ▸ h)
  | delivering ch' h => exact .delivering ch' (hreader _ h)
  | ended call hcall hchannel h => exact .ended call (hcalls call hcall) hchannel h

/-- Only the client counts, up to what it has written. -/
theorem Settled.of_eq (h : s'.Settled ch) (hobjects : s'.objects = s.objects)
    (htoServer : s'.toServer = s.toServer) (hreader : s'.reader = s.reader)
    (hcalls : s'.calls = s.calls) : s.Settled ch :=
  h.mono (by rw [hobjects]) (by rw [htoServer]; exact id) (by rw [hreader]; exact fun _ => id)
    (by rw [hcalls]; exact fun _ => id)

/-- For the server the channel is not open, and no `channel.close` is on its way. -/
def Over (s : Crossing) (id : UInt16) : Prop :=
  s.server id ≠ .opened ∧ .close id ∉ s.toClient

/-- The second half is about frames on their way: what is left of a `channel.close` belongs
to the `Channel` that is registered under its id, or was the last to be. -/
structure Valid (channelMax : ℕ) (s : Crossing) : Prop where
  registry : s.registry.Valid channelMax
  up : s.registry.closed = false
  fresh : ∀ ch, s.registry.created.length ≤ ch.object → s.objects ch = {}
  running : ∀ ch, (s.objects ch).Running → s.registry.lookupChannel ch.id = some ch
  registered : ∀ id ch, s.registry.lookupChannel id = some ch →
    (s.objects ch).opening = .allocated ∨ (s.objects ch).opening = .waiting ∨
      (s.objects ch).opening = .opened
  sound : ∀ ch, (s.objects ch).Sound
  calls : ∀ call ∈ s.calls, (s.objects call.channel).opening = .opened
  pending : ∀ call ∈ s.calls, call.point.isPending = true → s.Alone call.channel
  releasing : ∀ call ∈ s.calls, call.point = .releasing →
    (s.objects call.channel).closed = true
  handled : ∀ ch, s.reader.handled = some ch → (s.objects ch).closed = true
  delivering : ∀ ch msg, s.reader = .delivering ch msg →
    msg = .openOk ch ∨ (msg = .closeOk ch ∧ (s.objects ch).opening = .opened)
  opens : ∀ ch, s.opens ch = if (s.objects ch).opening = .waiting then 1 else 0
  requests : ∀ ch, .close ch ∈ s.toServer → (s.objects ch).opening = .opened ∧ s.Alone ch
  replies : ∀ ch, .closeOk ch ∈ s.toClient →
    (s.objects ch).opening = .opened ∧ s.Alone ch ∧ s.server ch.id ≠ .opened
  closes : ∀ id, s.toClient.count (.close id) ≤ 1 ∧
    (.close id ∈ s.toClient → s.server id ≠ .opened)
  order : s.toClient.Pairwise ChannelReply.Ordered
  unregistered : ∀ id, s.registry.lookupChannel id = none → s.Over id
  settled : ∀ ch, s.Settled ch → s.registry.lookupChannel ch.id = some ch → s.Over ch.id
  delivered : ∀ ch ch', (ch, .closeOk ch') ∈ s.delivered → ch' = ch
  failed : s.failed = false

@[simp]
theorem objects_setObject (o : ChannelObject) (c : ChannelRef) :
    (s.setObject ch o).objects c = if c = ch then o else s.objects c := by
  simp [setObject, Function.update_apply]

theorem sound_setObject {o : ChannelObject} (ho : o.Sound) (h : ∀ c, (s.objects c).Sound)
    (c : ChannelRef) : ((s.setObject ch o).objects c).Sound := by
  rw [objects_setObject]
  split
  · exact ho
  · exact h c

theorem alone_of_lookup (hch : s.registry.lookupChannel ch.id = some ch) : s.Alone ch := by
  intro ch' hch'
  rw [hch] at hch'
  cases hch'
  rfl

/-! ## Calls of `Close` -/

/-- One call of `Close` begins or moves on. It gets a result only where the server is done
with the channel. -/
theorem Valid.setCalls (h : s.Valid channelMax) {calls : List CloseCall} {point : ClosePoint}
    (hmem : ∀ call ∈ calls, call ∈ s.calls ∨ call = ⟨ch, point⟩)
    (hopened : (s.objects ch).opening = .opened) (hpending : point.isPending = true → s.Alone ch)
    (hreleasing : point = .releasing → (s.objects ch).closed = true)
    (hended : point.isEnded = true → s.registry.lookupChannel ch.id = some ch → s.Over ch.id) :
    Valid channelMax { s with calls := calls } := by
  refine { h with calls := ?_, pending := ?_, releasing := ?_, settled := ?_ }
  · intro call hcall
    rcases hmem call hcall with hcall | rfl
    · exact h.calls call hcall
    · exact hopened
  · intro call hcall
    rcases hmem call hcall with hcall | rfl
    · exact h.pending call hcall
    · exact hpending
  · intro call hcall
    rcases hmem call hcall with hcall | rfl
    · exact h.releasing call hcall
    · exact hreleasing
  · intro c hc
    cases hc with
    | allocated hc => exact h.settled c (.allocated hc)
    | sent hc => exact h.settled c (.sent hc)
    | closed hc => exact h.settled c (.closed hc)
    | delivering c' hc => exact h.settled c (.delivering c' hc)
    | ended call hcall hchannel hc =>
        rcases hmem call hcall with hcall | rfl
        · exact h.settled c (.ended call hcall hchannel hc)
        · subst hchannel
          exact hended hc

theorem mem_calls_setPoint {k : ℕ} {point : ClosePoint} {call : CloseCall}
    (hcall : call ∈ (s.setPoint k ch point).calls) : call ∈ s.calls ∨ call = ⟨ch, point⟩ :=
  List.mem_or_eq_of_mem_set hcall

/-- A call begins on a `Channel` that is still registered. -/
theorem Valid.close (h : s.Valid channelMax) (hnext : s.close ch = some s') :
    s'.Valid channelMax := by
  unfold Crossing.close at hnext
  split at hnext
  · next hopened hclosed =>
    cases hnext
    have hregistered := h.running ch (.inr (.inr ⟨hopened, hclosed⟩))
    have hmem : ∀ call ∈ s.calls ++ [⟨ch, .tested⟩], call ∈ s.calls ∨ call = ⟨ch, .tested⟩ := by
      intro call hcall
      simpa using hcall
    exact h.setCalls hmem hopened (fun _ => alone_of_lookup hregistered) nofun nofun
  · cases hnext
    exact h
  · cases hnext

theorem Valid.testClose (h : s.Valid channelMax) {k : ℕ} (hnext : s.testClose k = some s') :
    s'.Valid channelMax := by
  unfold Crossing.testClose at hnext
  split at hnext
  · next hcall =>
    cases hnext
    have hmem := List.mem_of_getElem? hcall
    refine h.setCalls (fun _ => mem_calls_setPoint) (h.calls _ hmem)
      (fun _ => h.pending _ hmem rfl) ?_ ?_
    · split <;> nofun
    · split
      · next hclosed => exact fun _ => h.settled _ (.closed hclosed)
      · nofun
  · cases hnext

theorem Valid.failClose (h : s.Valid channelMax) {k : ℕ} (hnext : s.failClose k = some s') :
    s'.Valid channelMax := by
  unfold Crossing.failClose at hnext
  split at hnext
  · next ch hcall =>
    split at hnext
    · next hdestroyed =>
      cases hnext
      have hmem := List.mem_of_getElem? hcall
      exact h.setCalls (fun _ => mem_calls_setPoint) (h.calls _ hmem) nofun nofun
        fun _ => h.settled _ (.closed ((h.sound ch).destroyed hdestroyed))
    · cases hnext
  · cases hnext

/-! ## Frames that the client sends -/

/-- A `channel.close` is sent for the `Channel` that is registered, if one is. -/
theorem Valid.sendRequest (h : s.Valid channelMax) {f : ChannelRequest}
    (hopen : ∀ ch, f ≠ .open ch)
    (hclose : ∀ ch, f = .close ch → (s.objects ch).opening = .opened ∧ s.Alone ch) :
    (s.sendRequest f).Valid channelMax := by
  refine { h with opens := ?_, requests := ?_, settled := ?_ }
  · intro c
    refine Eq.trans ?_ (h.opens c)
    have hcount : ([f] : List ChannelRequest).count (.open c) = 0 := by
      rw [List.count_eq_zero]
      intro hf
      exact hopen c (List.mem_singleton.mp hf).symm
    simp [Crossing.opens, Crossing.sendRequest, hcount]
  · intro c hc
    rcases List.mem_append.mp hc with hc | hc
    · exact h.requests c hc
    · exact hclose c (List.mem_singleton.mp hc).symm
  · intro c hc
    refine h.settled c (hc.mono rfl (fun hsent => ?_) (fun _ => id) fun _ => id)
    rcases List.mem_append.mp hsent with hsent | hsent
    · exact hsent
    · exact absurd (List.mem_singleton.mp hsent).symm (hopen c)

theorem Valid.writeClose (h : s.Valid channelMax) {k : ℕ} (hnext : s.writeClose k = some s') :
    s'.Valid channelMax := by
  unfold Crossing.writeClose at hnext
  split at hnext
  · next ch hcall =>
    cases hnext
    have hmem := List.mem_of_getElem? hcall
    have hopened := h.calls _ hmem
    have halone := h.pending _ hmem rfl
    have hsent : (s.sendRequest (.close ch)).Valid channelMax := by
      refine h.sendRequest nofun fun c hc => ?_
      cases hc
      exact ⟨hopened, halone⟩
    exact hsent.setCalls (fun _ => mem_calls_setPoint) hopened (fun _ => halone) nofun nofun
  · cases hnext

/-! ## Flags and releases -/

/-- The flag of a `Channel` that has been opened is set where the server is done with the
channel. -/
theorem Valid.setObject (h : s.Valid channelMax) {o : ChannelObject}
    (hopening : o.opening = (s.objects ch).opening) (hclosed : o.closed = true)
    (hopened : (s.objects ch).opening = .opened)
    (hover : s.registry.lookupChannel ch.id = some ch → s.Over ch.id) :
    (s.setObject ch o).Valid channelMax := by
  have hsame : ∀ c, ((s.setObject ch o).objects c).opening = (s.objects c).opening := by
    intro c
    rw [objects_setObject]
    split
    · next heq => rw [heq, hopening]
    · rfl
  have hmono : ∀ c, (s.objects c).closed = true → ((s.setObject ch o).objects c).closed = true := by
    intro c hc
    rw [objects_setObject]
    split
    · exact hclosed
    · exact hc
  refine {
    registry := h.registry
    up := h.up
    fresh := ?_
    running := ?_
    registered := fun id c hc => by rw [hsame]; exact h.registered id c hc
    sound := sound_setObject ⟨hopening ▸ (h.sound ch).opening, fun _ => hopening.trans hopened,
      fun _ => hclosed⟩ h.sound
    calls := fun call hcall => by rw [hsame]; exact h.calls call hcall
    pending := h.pending
    releasing := fun call hcall hpoint => hmono _ (h.releasing call hcall hpoint)
    handled := fun c hc => hmono c (h.handled c hc)
    delivering := fun c msg hmsg => by rw [hsame]; exact h.delivering c msg hmsg
    opens := fun c => by rw [hsame]; exact h.opens c
    requests := fun c hc => by rw [hsame]; exact h.requests c hc
    replies := fun c hc => by rw [hsame]; exact h.replies c hc
    closes := h.closes
    order := h.order
    unregistered := h.unregistered
    settled := ?_
    delivered := h.delivered
    failed := h.failed }
  · intro c hc
    have hne : c ≠ ch := by
      rintro rfl
      rw [h.fresh c hc] at hopened
      cases hopened
    rw [objects_setObject, if_neg hne]
    exact h.fresh c hc
  · intro c hc
    rw [objects_setObject] at hc
    split at hc
    · rcases hc with hc | hc | hc
      · rw [hopening, hopened] at hc
        cases hc
      · rw [hopening, hopened] at hc
        cases hc
      · rw [hclosed] at hc
        cases hc.2
    · exact h.running c hc
  · intro c hc
    cases hc with
    | allocated hc =>
        rw [hsame] at hc
        exact h.settled c (.allocated hc)
    | sent hc => exact h.settled c (.sent hc)
    | closed hc =>
        rw [objects_setObject] at hc
        split at hc
        · next heq =>
            rw [heq]
            exact hover
        · exact h.settled c (.closed hc)
    | delivering c' hc => exact h.settled c (.delivering c' hc)
    | ended call hcall hchannel hc => exact h.settled c (.ended call hcall hchannel hc)

theorem Valid.shutdownClose (h : s.Valid channelMax) {k : ℕ}
    (hnext : s.shutdownClose k = some s') : s'.Valid channelMax := by
  unfold Crossing.shutdownClose at hnext
  split at hnext
  · next ch hcall =>
    cases hnext
    have hmem := List.mem_of_getElem? hcall
    have hover := h.settled ch (.ended _ hmem rfl rfl)
    have hopened := h.calls _ hmem
    have hshut : (s.shutdown ch).Valid channelMax := h.setObject rfl rfl hopened hover
    refine hshut.setCalls (fun _ => mem_calls_setPoint) ?_ nofun ?_ fun _ => hover
    · simpa [Crossing.shutdown] using hopened
    · simp [Crossing.shutdown]
  · cases hnext

/-- A `Channel` whose flag is set is released where the server is done with the channel. -/
theorem Valid.release (h : s.Valid channelMax) {c : Registry}
    (hc : s.registry.releaseChannel ch = some c) (hclosed : (s.objects ch).closed = true) :
    Valid channelMax { s with registry := c } := by
  obtain ⟨hlookup, hcreated, hup⟩ := h.registry.lookupChannel_releaseChannel h.up hc
  have hregistry : c.Valid channelMax := by
    obtain ⟨c', hc', hvalid⟩ := Registry.releaseChannel_spec h.registry ch
    rw [hc] at hc'
    cases hc'
    exact hvalid
  have hmono : ∀ id ch', c.lookupChannel id = some ch' →
      s.registry.lookupChannel id = some ch' := by
    intro id ch' hch'
    rw [hlookup] at hch'
    split at hch'
    · cases hch'
    · exact hch'
  have halone : ∀ ch', s.Alone ch' → Alone { s with registry := c } ch' :=
    fun ch' h' ch'' hch'' => h' ch'' (hmono _ _ hch'')
  refine { h with
    registry := hregistry
    up := hup
    fresh := ?_
    running := ?_
    registered := fun id ch' hch' => h.registered id ch' (hmono id ch' hch')
    pending := fun call hcall hpoint => halone _ (h.pending call hcall hpoint)
    requests := fun ch' hch' => ⟨(h.requests ch' hch').1, halone _ (h.requests ch' hch').2⟩
    replies := ?_
    unregistered := ?_
    settled := ?_ }
  · intro ch' hch'
    rw [hcreated] at hch'
    exact h.fresh ch' hch'
  · intro ch' hch'
    have hrunning := h.running ch' hch'
    rw [hlookup, if_neg]
    · exact hrunning
    · intro heq
      rw [hrunning] at heq
      cases heq
      have hopened := (h.sound ch).closed hclosed
      rcases hch' with hch' | hch' | hch'
      · rw [hopened] at hch'
        cases hch'
      · rw [hopened] at hch'
        cases hch'
      · rw [hclosed] at hch'
        cases hch'.2
  · intro ch' hch'
    obtain ⟨hopened, h', hserver⟩ := h.replies ch' hch'
    exact ⟨hopened, halone _ h', hserver⟩
  · intro id hid
    rw [hlookup] at hid
    split at hid
    · next heq =>
        have hid := h.registry.id_of_lookup h.up heq
        subst hid
        exact h.settled ch (.closed hclosed) heq
    · exact h.unregistered id hid
  · intro ch' hch' hregistered
    exact h.settled ch' (hch'.of_eq rfl rfl rfl rfl) (hmono _ _ hregistered)

theorem Valid.releaseClose (h : s.Valid channelMax) {k : ℕ}
    (hnext : s.releaseClose k = some s') : s'.Valid channelMax := by
  unfold Crossing.releaseClose at hnext
  split at hnext
  · next ch hcall =>
    obtain ⟨c, hc, rfl⟩ := Option.map_eq_some_iff.mp hnext
    have hmem := List.mem_of_getElem? hcall
    exact (h.release hc (h.releasing _ hmem rfl)).setCalls (fun _ => mem_calls_setPoint)
      (h.calls _ hmem) nofun nofun nofun
  · cases hnext

end Crossing

end Amqp091

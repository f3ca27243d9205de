import Amqp091.Verification.Crossing.Opening
import Amqp091.Verification.Crossing.Reader

/-! # Closes that cross do not disturb later channels

As long as no id is given out again before the closes of its earlier channels have been
answered. The server's steps come first. -/

namespace Amqp091.Crossing

open Transition

variable {channelMax : ℕ} {s s' : Crossing} {ch : ChannelRef} {id : UInt16}

@[simp]
theorem server_setServer (state : ServerChannel) (i : UInt16) :
    (s.setServer id state).server i = if i = id then state else s.server i := by
  simp [setServer, Function.update_apply]

theorem Valid.popRequest (h : s.Valid channelMax) {f : ChannelRequest}
    {rest : List ChannelRequest} (hrest : s.toServer = f :: rest) (hopen : ∀ c, f ≠ .open c) :
    Valid channelMax { s with toServer := rest } := by
  have hmem : ∀ f' ∈ rest, f' ∈ s.toServer := by
    intro f' hf'
    rw [hrest]
    exact List.mem_cons_of_mem f hf'
  refine { h with
    opens := ?_
    requests := fun c hc => h.requests c (hmem _ hc)
    settled := ?_ }
  · intro c
    refine Eq.trans ?_ (h.opens c)
    simp [Crossing.opens, hrest, List.count_cons_of_ne (hopen c)]
  · intro c hc
    exact h.settled c (hc.mono rfl (hmem _) (fun _ => id) fun _ => id)

/-- A channel that the server closes gives rise to nothing. -/
theorem Valid.setServer (h : s.Valid channelMax) {state : ServerChannel}
    (hstate : state ≠ .opened) : (s.setServer id state).Valid channelMax := by
  have hserver : ∀ i, s.server i ≠ .opened → (s.setServer id state).server i ≠ .opened := by
    intro i hi
    rw [server_setServer]
    split
    · exact hstate
    · exact hi
  exact { h with
    replies := fun c hc => (h.replies c hc).imp_right (And.imp_right (hserver c.id))
    closes := fun i => (h.closes i).imp_right fun hi hclose => hserver i (hi hclose)
    unregistered := fun i hi => (h.unregistered i hi).imp_left (hserver i)
    settled := fun c hc hregistered =>
      (h.settled c (hc.of_eq rfl rfl rfl rfl) hregistered).imp_left (hserver c.id) }

theorem Valid.sendReply_closeOk (h : s.Valid channelMax)
    (hopened : (s.objects ch).opening = .opened) (halone : s.Alone ch)
    (hserver : s.server ch.id ≠ .opened) : (s.sendReply (.closeOk ch)).Valid channelMax := by
  have hover : ∀ i, s.Over i → (s.sendReply (.closeOk ch)).Over i := by
    intro i hi
    refine ⟨hi.1, fun hclose => hi.2 ?_⟩
    simpa [Crossing.sendReply] using hclose
  refine { h with
    opens := ?_
    replies := ?_
    closes := ?_
    order := ?_
    unregistered := fun i hi => hover i (h.unregistered i hi)
    settled := fun c hc hregistered =>
      hover _ (h.settled c (hc.of_eq rfl rfl rfl rfl) hregistered) }
  · intro c
    refine Eq.trans ?_ (h.opens c)
    simp [Crossing.opens, Crossing.sendReply]
  · intro c hc
    rcases List.mem_append.mp hc with hc | hc
    · exact h.replies c hc
    · cases List.mem_singleton.mp hc
      exact ⟨hopened, halone, hserver⟩
  · intro i
    simpa [Crossing.sendReply] using h.closes i
  · refine List.pairwise_append.mpr ⟨h.order, List.pairwise_singleton _ _, ?_⟩
    intro a _ b hb
    cases List.mem_singleton.mp hb
    simp [ChannelReply.Ordered]

/-- A `channel.open` that the server gets to is the only one of its `Channel`, which waits for
the answer. -/
theorem Valid.waiting_of_open (h : s.Valid channelMax) {rest : List ChannelRequest}
    (hrest : s.toServer = .open ch :: rest) :
    (s.objects ch).opening = .waiting ∧ .open ch ∉ rest := by
  have hopens := h.opens ch
  rw [Crossing.opens, hrest, List.count_cons_self] at hopens
  have hwaiting : (s.objects ch).opening = .waiting := by
    by_contra hne
    rw [if_neg hne] at hopens
    omega
  rw [if_pos hwaiting] at hopens
  refine ⟨hwaiting, ?_⟩
  rw [← List.count_eq_zero]
  omega

theorem opens_serve_open {rest : List ChannelRequest} (hrest : s.toServer = .open ch :: rest)
    (state : ServerChannel) (c : ChannelRef) :
    (({ s with toServer := rest }.sendReply (.openOk ch)).setServer ch.id state).opens c =
      s.opens c := by
  simp only [opens, setServer, sendReply, hrest, List.count_append, List.count_cons, List.count_nil,
    beq_iff_eq, ChannelRequest.open.injEq, ChannelReply.openOk.injEq]
  omega

/-- The client gets `channel.open-ok` after everything that it was sent about earlier
channels of the id. -/
theorem Valid.serve_open (h : s.Valid channelMax) {rest : List ChannelRequest}
    (hrest : s.toServer = .open ch :: rest) :
    Valid channelMax
      (({ s with toServer := rest }.sendReply (.openOk ch)).setServer ch.id .opened) := by
  obtain ⟨hwaiting, hsent⟩ := h.waiting_of_open hrest
  have hunopened : (s.objects ch).opening ≠ .opened := by
    rw [hwaiting]
    nofun
  have hregistered := h.running ch (.inr (.inl hwaiting))
  have hover : s.Over ch.id :=
    h.settled ch (.sent (by rw [hrest]; exact List.mem_cons_self)) hregistered
  have hmem : ∀ f ∈ rest, f ∈ s.toServer := by
    intro f hf
    rw [hrest]
    exact List.mem_cons_of_mem _ hf
  set s' := ({ s with toServer := rest }.sendReply (.openOk ch)).setServer ch.id .opened with hs'
  have hserver : ∀ i, i ≠ ch.id → s'.server i = s.server i := by
    intro i hi
    rw [hs', server_setServer, if_neg hi]
    rfl
  have hclose : ∀ i, .close i ∈ s'.toClient → .close i ∈ s.toClient := by
    intro i hi
    simpa [hs', Crossing.setServer, Crossing.sendReply] using hi
  have hover' : ∀ i, i ≠ ch.id → s.Over i → s'.Over i :=
    fun i hi ho => ⟨hserver i hi ▸ ho.1, fun hc => ho.2 (hclose i hc)⟩
  refine { h with
    opens := fun c => (opens_serve_open hrest _ c).trans (h.opens c)
    requests := fun c hc => h.requests c (hmem _ hc)
    replies := ?_
    closes := ?_
    order := ?_
    unregistered := ?_
    settled := ?_ }
  · intro c hc
    have hc' : .closeOk c ∈ s.toClient := by
      simpa [hs', Crossing.setServer, Crossing.sendReply] using hc
    obtain ⟨hopened, halone, hclosed⟩ := h.replies c hc'
    refine ⟨hopened, halone, hserver c.id (fun hid => hunopened ?_) ▸ hclosed⟩
    rw [halone ch (hid ▸ hregistered)]
    exact hopened
  · intro i
    refine ⟨?_, fun hi => ?_⟩
    · simpa [hs', Crossing.setServer, Crossing.sendReply] using (h.closes i).1
    · have hne : i ≠ ch.id := by
        rintro rfl
        exact hover.2 (hclose _ hi)
      exact hserver i hne ▸ (h.closes i).2 (hclose i hi)
  · refine List.pairwise_append.mpr ⟨h.order, List.pairwise_singleton _ _, ?_⟩
    intro a ha b hb
    cases List.mem_singleton.mp hb
    refine ⟨nofun, fun c hc hclosed => ?_⟩
    cases hc
    exact hover.2 (hclosed ▸ ha)
  · intro i hi
    refine hover' i ?_ (h.unregistered i hi)
    rintro rfl
    exact nomatch hregistered.symm.trans hi
  · intro c hc hc'
    by_cases hid : c.id = ch.id
    · -- the client does not know yet that the channel is open
      have heq : c = ch := Option.some.inj (hc'.symm.trans (hid ▸ hregistered))
      subst heq
      rcases h.sent_of_settled hunopened hc rfl (fun _ hmsg => hmsg) rfl with hopening | hopen
      · exact nomatch hwaiting.symm.trans hopening
      · exact absurd hopen hsent
    · exact hover' _ hid (h.settled c (hc.mono rfl (hmem _) (fun _ => id) fun _ => id) hc')

/-- Whether or not the server waits for an answer of its own, the channel is over for it. -/
theorem Valid.serve_close (h : s.Valid channelMax) {rest : List ChannelRequest}
    (hrest : s.toServer = .close ch :: rest) {state : ServerChannel} (hstate : state ≠ .opened) :
    Valid channelMax
      (({ s with toServer := rest }.setServer ch.id state).sendReply (.closeOk ch)) := by
  obtain ⟨hopened, halone⟩ := h.requests ch (by rw [hrest]; exact List.mem_cons_self)
  have hset : Valid channelMax ({ s with toServer := rest }.setServer ch.id state) :=
    (h.popRequest hrest (by simp)).setServer hstate
  exact hset.sendReply_closeOk hopened halone (by simpa using hstate)

theorem Valid.serve (h : s.Valid channelMax) (hnext : s.serve = some s') :
    s'.Valid channelMax := by
  unfold Crossing.serve at hnext
  split at hnext
  · cases hnext
  · next ch rest hrest =>
    cases hnext
    exact h.serve_open hrest
  · next ch rest hrest =>
    cases hnext
    refine h.serve_close hrest ?_
    split <;> decide
  · next id rest hrest =>
    cases hnext
    exact (h.popRequest hrest (by simp)).setServer (by decide)

/-- The server closes a channel whose earlier messages are all answers to `channel.open`. -/
theorem Valid.serverClose (h : s.Valid channelMax) (hnext : s.serverClose id = some s') :
    s'.Valid channelMax := by
  unfold Crossing.serverClose at hnext
  split at hnext
  · next hopened =>
    cases hnext
    set s' := (s.sendReply (.close id)).setServer id .closing with hs'
    have hserver : ∀ i, s.server i ≠ .opened → s'.server i ≠ .opened := by
      intro i hi
      rw [hs', server_setServer]
      split
      · decide
      · exact hi
    have hnone : .close id ∉ s.toClient := fun hclose => (h.closes id).2 hclose hopened
    have hover : ∀ i, s.Over i → s'.Over i := by
      intro i hi
      refine ⟨hserver i hi.1, fun hclose => ?_⟩
      rcases List.mem_append.mp hclose with hclose | hclose
      · exact hi.2 hclose
      · cases List.mem_singleton.mp hclose
        exact hi.1 hopened
    refine { h with
      opens := ?_
      replies := ?_
      closes := ?_
      order := ?_
      unregistered := fun i hi => hover i (h.unregistered i hi)
      settled := fun c hc hregistered =>
        hover _ (h.settled c (hc.of_eq rfl rfl rfl rfl) hregistered) }
    · intro c
      refine Eq.trans ?_ (h.opens c)
      simp [hs', Crossing.opens, Crossing.setServer, Crossing.sendReply]
    · intro c hc
      have hc' : .closeOk c ∈ s.toClient := by
        rcases List.mem_append.mp hc with hc | hc
        · exact hc
        · cases List.mem_singleton.mp hc
      exact (h.replies c hc').imp_right (And.imp_right (hserver c.id))
    · intro i
      by_cases hid : i = id
      · subst hid
        refine ⟨?_, fun _ => by simp [hs']⟩
        simp [hs', Crossing.setServer, Crossing.sendReply, List.count_eq_zero.mpr hnone]
      · have hne : ChannelReply.close id ≠ .close i := fun hc => hid (by cases hc; rfl)
        refine ⟨?_, fun hi => hserver i ((h.closes i).2 ?_)⟩
        · simpa [hs', Crossing.setServer, Crossing.sendReply, hne] using (h.closes i).1
        · rcases List.mem_append.mp hi with hi | hi
          · exact hi
          · exact absurd (List.mem_singleton.mp hi).symm hne
    · refine List.pairwise_append.mpr ⟨h.order, List.pairwise_singleton _ _, ?_⟩
      intro a ha b hb
      cases List.mem_singleton.mp hb
      refine ⟨fun c hc hid => ?_, by simp⟩
      cases hid
      exact (h.replies c (hc ▸ ha)).2.2 hopened
  · cases hnext

theorem Valid.allocate (hmax : channelMax ≤ 65535) (h : s.Valid channelMax)
    (hreuse : s.ReusesSettled .allocate) (hnext : s.allocate = some s') : s'.Valid channelMax := by
  unfold Crossing.allocate at hnext
  split at hnext
  · next c ch hc =>
    cases hnext
    exact h.allocate_ok hmax hc (hreuse c ch hc)
  · next c e hc =>
    cases hnext
    obtain ⟨hlookup, hcreated, hup⟩ := Registry.allocateChannel_error hc
    have halone : ∀ c', s.Alone c' → Alone { s with registry := c } c' :=
      fun c' h' c'' hc'' => h' c'' (hlookup ▸ hc'')
    exact { h with
      registry := h.registry_allocateChannel hmax hc
      up := hup.trans h.up
      fresh := fun c' hc' => h.fresh c' (hcreated ▸ hc')
      running := fun c' hc' => (congrFun hlookup c'.id).trans (h.running c' hc')
      registered := fun id c' hc' => h.registered id c' (hlookup ▸ hc')
      pending := fun call hcall hpoint => halone _ (h.pending call hcall hpoint)
      requests := fun c' hc' => (h.requests c' hc').imp_right (halone c')
      replies := fun c' hc' => (h.replies c' hc').imp_right (And.imp_left (halone c'))
      unregistered := fun id hid => h.unregistered id (hlookup ▸ hid)
      settled := fun c' hc' hregistered =>
        h.settled c' (hc'.of_eq rfl rfl rfl rfl) (hlookup ▸ hregistered) }
  · cases hnext

theorem Valid.step (hmax : channelMax ≤ 65535) (h : s.Valid channelMax) {a : Action}
    (hreuse : s.ReusesSettled a) (hnext : s.next a = some s') : s'.Valid channelMax := by
  cases a with
  | allocate => exact h.allocate hmax hreuse hnext
  | sendOpen ch => exact h.sendOpen hnext
  | failOpen ch => exact nomatch hnext.symm.trans h.failOpen_eq_none
  | releaseOpen ch => exact nomatch hnext.symm.trans h.releaseOpen_eq_none
  | takeOpen => exact h.takeOpen hnext
  | close ch => exact h.close hnext
  | testClose k => exact h.testClose hnext
  | writeClose k => exact h.writeClose hnext
  | failClose k => exact h.failClose hnext
  | takeClose k => exact h.takeClose hnext
  | shutdownClose k => exact h.shutdownClose hnext
  | releaseClose k => exact h.releaseClose hnext
  | read => exact h.read hnext
  | answerClose => exact h.answerClose hnext
  | shutdownRead => exact h.shutdownRead hnext
  | releaseRead => exact h.releaseRead hnext
  | dropReply => exact h.dropReply hnext
  | serve => exact h.serve hnext
  | serverClose id => exact h.serverClose hnext

theorem valid_start (hmin : 1 ≤ channelMax) : (start channelMax).Valid channelMax where
  registry := Registry.valid_newRegistry hmin
  up := rfl
  fresh := fun _ _ => rfl
  running := by
    intro ch hch
    rcases hch with hch | hch | hch
    · cases hch
    · cases hch
    · cases hch.1
  registered := nofun
  sound := fun _ => ⟨nofun, nofun, nofun⟩
  calls := nofun
  pending := nofun
  releasing := nofun
  handled := nofun
  delivering := nofun
  opens := fun _ => rfl
  requests := nofun
  replies := nofun
  closes := fun _ => ⟨Nat.zero_le 1, nofun⟩
  order := List.Pairwise.nil
  unregistered := fun _ _ => ⟨nofun, nofun⟩
  settled := fun _ _ _ => ⟨nofun, nofun⟩
  delivered := nofun
  failed := rfl

/-- If no id is given out again while a `channel.close` of one of its earlier channels is
outstanding, no `channel.close-ok` is taken for the reply to another `Channel`, and the
client does not close the connection. -/
theorem undisturbed_of_reusesSettled (hmin : 1 ≤ channelMax) (hmax : channelMax ≤ 65535)
    {as : List Action} (hrun : Run next ReusesSettled (start channelMax) as s) :
    (∀ ch ch', (ch, .closeOk ch') ∈ s.delivered → ch' = ch) ∧ s.failed = false := by
  have hvalid : s.Valid channelMax :=
    hrun.invariant (valid_start hmin) fun _ _ _ h hreuse hnext => h.step hmax hreuse hnext
  exact ⟨hvalid.delivered, hvalid.failed⟩

theorem not_outstanding (hcalls : s.calls.all (fun call => !call.point.isPending) = true)
    (htoServer : s.toServer = []) (htoClient : s.toClient = []) : ¬ s.Outstanding id := by
  intro h
  rcases h with ⟨call, hcall, -, hpending⟩ | ⟨ch, -, hch⟩ | ⟨ch, -, hch⟩
  · have hnot := List.all_eq_true.mp hcalls call hcall
    rw [hpending] at hnot
    cases hnot
  · rw [htoServer] at hch
    cases hch
  · rw [htoClient] at hch
    cases hch

/-- Both sides close at once. The id is given out again after the second `channel.close-ok`,
to a `Channel` that is opened and closed. -/
theorem undisturbed_of_reusesSettled_crossing :
    ∃ s, Run next ReusesSettled (start 1)
        [.allocate, .sendOpen ⟨0, 1⟩, .serve, .read, .takeOpen, .close ⟨0, 1⟩, .testClose 0,
          .writeClose 0, .serverClose 1, .read, .answerClose, .shutdownRead, .releaseRead,
          .serve, .serve, .read, .allocate, .sendOpen ⟨1, 1⟩, .serve, .read, .takeOpen,
          .close ⟨1, 1⟩, .testClose 1, .writeClose 1, .serve, .read, .takeClose 1] s ∧
      s.delivered = [(⟨0, 1⟩, .openOk ⟨0, 1⟩), (⟨1, 1⟩, .openOk ⟨1, 1⟩),
        (⟨1, 1⟩, .closeOk ⟨1, 1⟩)] ∧
      s.failed = false := by
  have hrun : Run next ReusesSettled (start 1)
      [.allocate, .sendOpen ⟨0, 1⟩, .serve, .read, .takeOpen, .close ⟨0, 1⟩, .testClose 0,
        .writeClose 0, .serverClose 1, .read, .answerClose, .shutdownRead, .releaseRead,
        .serve, .serve, .read, .allocate, .sendOpen ⟨1, 1⟩, .serve, .read, .takeOpen,
        .close ⟨1, 1⟩, .testClose 1, .writeClose 1, .serve, .read, .takeClose 1] _ :=
    .cons (fun _ _ _ => not_outstanding rfl rfl rfl) rfl
      (.cons trivial rfl (.cons trivial rfl (.cons trivial rfl (.cons trivial rfl
      (.cons trivial rfl (.cons trivial rfl (.cons trivial rfl (.cons trivial rfl
      (.cons trivial rfl (.cons trivial rfl (.cons trivial rfl (.cons trivial rfl
      (.cons trivial rfl (.cons trivial rfl (.cons trivial rfl
      (.cons (fun _ _ _ => not_outstanding rfl rfl rfl) rfl
      (.cons trivial rfl (.cons trivial rfl (.cons trivial rfl (.cons trivial rfl
      (.cons trivial rfl (.cons trivial rfl (.cons trivial rfl (.cons trivial rfl
      (.cons trivial rfl (.cons trivial rfl (.nil _)))))))))))))))))))))))))))
  exact ⟨_, hrun, rfl, (undisturbed_of_reusesSettled le_rfl (by decide) hrun).2⟩

/-- Both sides close at once, and the id is given out again after the first
`channel.close-ok`. The second one is taken for the answer to `channel.open`, and that answer
then finds no channel. -/
theorem late_closeOk_disturbs :
    ∃ s, Run next (fun _ _ => True) (start 1)
        [.allocate, .sendOpen ⟨0, 1⟩, .serve, .read, .takeOpen, .close ⟨0, 1⟩, .testClose 0,
          .writeClose 0, .serverClose 1, .read, .answerClose, .shutdownRead, .releaseRead,
          .allocate, .sendOpen ⟨1, 1⟩, .serve, .read, .takeOpen, .releaseOpen ⟨1, 1⟩,
          .serve, .serve, .read] s ∧
      (⟨1, 1⟩, .closeOk ⟨0, 1⟩) ∈ s.delivered ∧ s.failed = true :=
  ⟨_, .cons trivial rfl (.cons trivial rfl (.cons trivial rfl (.cons trivial rfl
    (.cons trivial rfl (.cons trivial rfl (.cons trivial rfl (.cons trivial rfl
    (.cons trivial rfl (.cons trivial rfl (.cons trivial rfl (.cons trivial rfl
    (.cons trivial rfl (.cons trivial rfl (.cons trivial rfl (.cons trivial rfl
    (.cons trivial rfl (.cons trivial rfl (.cons trivial rfl (.cons trivial rfl
    (.cons trivial rfl (.cons trivial rfl (.nil _)))))))))))))))))))))),
    List.mem_cons_of_mem _ List.mem_cons_self, rfl⟩

end Amqp091.Crossing

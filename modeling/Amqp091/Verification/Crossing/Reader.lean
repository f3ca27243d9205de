import Amqp091.Verification.Crossing.Invariant

/-! # The reader between closes -/

namespace Amqp091.Crossing

variable {channelMax : ℕ} {s s' : Crossing} {ch : ChannelRef} {id : UInt16}

/-- The reader moves on without a reply to deliver. -/
theorem Valid.setReader (h : s.Valid channelMax) {r : CrossingReader}
    (hopens : ∀ c, r.opens c = s.reader.opens c)
    (hhandled : ∀ c, r.handled = some c → (s.objects c).closed = true)
    (hdelivering : ∀ c msg, r ≠ .delivering c msg) :
    Valid channelMax { s with reader := r } := by
  refine { h with
    handled := hhandled
    delivering := fun c msg hr => absurd hr (hdelivering c msg)
    opens := ?_
    settled := ?_ }
  · intro c
    refine Eq.trans ?_ (h.opens c)
    simp only [Crossing.opens, hopens]
  · intro c hc
    exact h.settled c
      (hc.mono rfl id (fun msg hmsg => absurd hmsg (hdelivering c msg)) fun _ => id)

/-- The reader takes a frame off the queue, and goes on to deliver it, or not. -/
theorem Valid.pop (h : s.Valid channelMax) {msg : ChannelReply} {msgs : List ChannelReply}
    {r : CrossingReader} (hreader : s.reader = .reading) (hmsgs : s.toClient = msg :: msgs)
    (hopens : ∀ c, r.opens c = if msg = .openOk c then 1 else 0) (hhandled : r.handled = none)
    (hdelivering : ∀ c m, r = .delivering c m → m = msg ∧ (msg = .openOk c ∨ msg = .closeOk c)) :
    Valid channelMax { s with toClient := msgs, reader := r } := by
  have hmem : ∀ m ∈ msgs, m ∈ s.toClient := by
    intro m hm
    rw [hmsgs]
    exact List.mem_cons_of_mem msg hm
  have hover : ∀ id, s.Over id → Over { s with toClient := msgs, reader := r } id :=
    fun id hid => ⟨hid.1, fun hclose => hid.2 (hmem _ hclose)⟩
  have horder := h.order
  rw [hmsgs, List.pairwise_cons] at horder
  refine { h with
    handled := ?_
    delivering := ?_
    opens := ?_
    replies := fun c hc => h.replies c (hmem _ hc)
    closes := ?_
    order := horder.2
    unregistered := fun id hid => hover id (h.unregistered id hid)
    settled := ?_ }
  · intro c hc
    rw [hhandled] at hc
    cases hc
  · intro c m hr
    obtain ⟨rfl, hm | hm⟩ := hdelivering c m hr
    · exact .inl hm
    · refine .inr ⟨hm, (h.replies c ?_).1⟩
      rw [hmsgs, hm]
      exact List.mem_cons_self
  · intro c
    refine Eq.trans ?_ (h.opens c)
    simp only [Crossing.opens, hmsgs, hreader, hopens, CrossingReader.opens_reading,
      List.count_cons, beq_iff_eq, Nat.add_zero, Nat.add_assoc]
  · intro id
    obtain ⟨hcount, hserver⟩ := h.closes id
    rw [hmsgs] at hcount
    exact ⟨(List.count_le_count_cons).trans hcount, fun hid => hserver (hmem _ hid)⟩
  · intro c hc hregistered
    cases hc with
    | allocated hc => exact hover _ (h.settled c (.allocated hc) hregistered)
    | sent hc => exact hover _ (h.settled c (.sent hc) hregistered)
    | closed hc => exact hover _ (h.settled c (.closed hc) hregistered)
    | delivering c' hc =>
        -- no `channel.close` follows on the answer to one
        obtain ⟨rfl, hm | hm⟩ := hdelivering c _ hc
        · cases hm
        · cases hm
          have hhead : ChannelReply.closeOk c ∈ s.toClient := by
            rw [hmsgs]
            exact List.mem_cons_self
          exact ⟨(h.replies c hhead).2.2, fun hclose => (horder.1 _ hclose).1 c rfl rfl⟩
    | ended call hcall hchannel hc =>
        exact hover _ (h.settled c (.ended call hcall hchannel hc) hregistered)

/-- A `Channel` whose `channel.open-ok` is on its way is registered. -/
theorem Valid.lookup_of_openOk (h : s.Valid channelMax) (hch : .openOk ch ∈ s.toClient) :
    s.registry.lookupChannel ch.id = some ch := by
  have hopens := h.opens ch
  have hcount := List.count_pos_iff.mpr hch
  split at hopens
  · next hwaiting => exact h.running ch (.inr (.inl hwaiting))
  · rw [Crossing.opens] at hopens
    omega

/-- The server closes a channel only after the client has been told that it is open. -/
theorem Valid.opened_of_close (h : s.Valid channelMax) {msgs : List ChannelReply}
    (hreader : s.reader = .reading) (hmsgs : s.toClient = .close id :: msgs)
    (hch : s.registry.lookupChannel id = some ch) : (s.objects ch).opening = .opened := by
  have hid := h.registry.id_of_lookup h.up hch
  subst hid
  have hunsettled : ¬ s.Settled ch := by
    intro hsettled
    refine (h.settled ch hsettled hch).2 ?_
    rw [hmsgs]
    exact List.mem_cons_self
  rcases h.registered ch.id ch hch with hopening | hopening | hopening
  · exact absurd (.allocated hopening) hunsettled
  · have hopens := h.opens ch
    rw [if_pos hopening, Crossing.opens, hreader, CrossingReader.opens_reading] at hopens
    have hserver : s.toServer.count (.open ch) = 0 := by
      rw [List.count_eq_zero]
      exact fun hsent => hunsettled (.sent hsent)
    have hopenOk : ChannelReply.openOk ch ∈ s.toClient := by
      rw [← List.count_pos_iff]
      omega
    have horder := h.order
    rw [hmsgs] at hopenOk horder
    rcases List.mem_cons.mp hopenOk with hhead | htail
    · cases hhead
    · exact absurd rfl (((List.pairwise_cons.mp horder).1 _ htail).2 ch rfl)
  · exact hopening

/-- A frame of the server is handled by the `Channel` it is meant for. -/
theorem Valid.read (h : s.Valid channelMax) (hnext : s.read = some s') :
    s'.Valid channelMax := by
  unfold Crossing.read at hnext
  split at hnext
  · next msg msgs hreader hmsgs =>
    have hhead : msg ∈ s.toClient := by
      rw [hmsgs]
      exact List.mem_cons_self
    split at hnext
    · next ch hch =>
      cases hnext
      cases msg with
      | openOk c =>
          have hc := h.lookup_of_openOk hhead
          have heq : c = ch := Option.some.inj (hc.symm.trans hch)
          subst heq
          refine h.pop hreader hmsgs ?_ rfl ?_
          · simp [CrossingReader.opens]
          · intro c' m hm
            cases hm
            exact ⟨rfl, .inl rfl⟩
      | closeOk c =>
          have heq := (h.replies c hhead).2.1 ch hch
          subst heq
          refine h.pop hreader hmsgs ?_ rfl ?_
          · simp [CrossingReader.opens]
          · intro c' m hm
            cases hm
            exact ⟨rfl, .inr rfl⟩
      | close id =>
          have hid := h.registry.id_of_lookup h.up hch
          have hopened := h.opened_of_close hreader hmsgs hch
          have hpop : Valid channelMax { s with toClient := msgs, reader := .reading } :=
            h.pop hreader hmsgs (by simp [CrossingReader.opens]) rfl nofun
          have hover : Over { s with toClient := msgs, reader := .reading } ch.id := by
            obtain ⟨hcount, hserver⟩ := h.closes id
            rw [hmsgs, List.count_cons_self] at hcount
            have hnone : msgs.count (.close id) = 0 := by omega
            rw [hid]
            exact ⟨hserver hhead, List.count_eq_zero.mp hnone⟩
          have hset : Valid channelMax ({ s with toClient := msgs, reader := .reading }.setObject
              ch { s.objects ch with closed := true }) :=
            hpop.setObject rfl rfl hopened fun _ => hover
          refine hset.setReader (r := .answering ch) (fun _ => rfl) (fun c hc => ?_) nofun
          cases hc
          simp
    · next hnone =>
      cases hnext
      cases msg with
      | openOk c =>
          have hsome := hnone.symm.trans (h.lookup_of_openOk hhead)
          cases hsome
      | closeOk c =>
          exact h.pop hreader hmsgs (by simp [hreader, CrossingReader.opens]) (by rw [hreader]; rfl)
            (by simp [hreader])
      | close id => exact absurd hhead (h.unregistered id hnone).2
  · cases hnext

theorem Valid.answerClose (h : s.Valid channelMax) (hnext : s.answerClose = some s') :
    s'.Valid channelMax := by
  unfold Crossing.answerClose at hnext
  split at hnext
  · next ch hreader =>
    cases hnext
    have hsent : (s.sendRequest (.closeOk ch.id)).Valid channelMax := h.sendRequest nofun nofun
    refine hsent.setReader (fun c => ?_) (fun c hc => ?_) nofun
    · exact (congrArg (CrossingReader.opens c) hreader).symm
    · cases hc
      exact h.handled ch (by rw [hreader]; rfl)
  · cases hnext

theorem Valid.shutdownRead (h : s.Valid channelMax) (hnext : s.shutdownRead = some s') :
    s'.Valid channelMax := by
  unfold Crossing.shutdownRead at hnext
  split at hnext
  · next ch hreader =>
    cases hnext
    have hclosed := h.handled ch (by rw [hreader]; rfl)
    have hshut : (s.shutdown ch).Valid channelMax :=
      h.setObject rfl rfl ((h.sound ch).closed hclosed) (h.settled ch (.closed hclosed))
    refine hshut.setReader (fun c => ?_) (fun c hc => ?_) nofun
    · exact (congrArg (CrossingReader.opens c) hreader).symm
    · cases hc
      simp [Crossing.shutdown]
  · cases hnext

theorem Valid.releaseRead (h : s.Valid channelMax) (hnext : s.releaseRead = some s') :
    s'.Valid channelMax := by
  unfold Crossing.releaseRead at hnext
  split at hnext
  · next ch hreader =>
    obtain ⟨c, hc, rfl⟩ := Option.map_eq_some_iff.mp hnext
    have hclosed := h.handled ch (by rw [hreader]; rfl)
    refine (h.release hc hclosed).setReader (fun c => ?_) nofun nofun
    exact (congrArg (CrossingReader.opens c) hreader).symm
  · cases hnext

/-- A reply that the reader holds while a call of `Close` waits, or after `shutdown`, answers
a `channel.close` of the same `Channel`. -/
theorem Valid.closeOk_of_opened (h : s.Valid channelMax) {msg : ChannelReply}
    (hreader : s.reader = .delivering ch msg) (hopened : (s.objects ch).opening = .opened) :
    msg = .closeOk ch := by
  rcases h.delivering ch msg hreader with rfl | ⟨rfl, -⟩
  · have hopens := h.opens ch
    rw [hopened, if_neg nofun, Crossing.opens, hreader] at hopens
    simp [CrossingReader.opens] at hopens
  · rfl

theorem Valid.dropReply (h : s.Valid channelMax) (hnext : s.dropReply = some s') :
    s'.Valid channelMax := by
  unfold Crossing.dropReply at hnext
  split at hnext
  · next ch msg hreader =>
    split at hnext
    · next hdestroyed =>
      cases hnext
      have hopened := (h.sound ch).closed ((h.sound ch).destroyed hdestroyed)
      have hmsg := h.closeOk_of_opened hreader hopened
      subst hmsg
      refine h.setReader (fun c => ?_) nofun nofun
      exact (congrArg (CrossingReader.opens c) hreader).symm
    · cases hnext
  · cases hnext

theorem Valid.takeClose (h : s.Valid channelMax) {k : ℕ} (hnext : s.takeClose k = some s') :
    s'.Valid channelMax := by
  unfold Crossing.takeClose at hnext
  split at hnext
  · next ch msg ch' hreader hcall =>
    split at hnext
    · next heq =>
      cases hnext
      subst heq
      have hmem := List.mem_of_getElem? hcall
      have hmsg := h.closeOk_of_opened hreader (h.calls _ hmem)
      subst hmsg
      have hset : (s.setPoint k ch .returning).Valid channelMax :=
        h.setCalls (fun _ => mem_calls_setPoint) (h.calls _ hmem) nofun nofun
          fun _ => h.settled ch (.delivering ch hreader)
      have hread : Valid channelMax { s.setPoint k ch .returning with reader := .reading } :=
        hset.setReader (fun c => (congrArg (CrossingReader.opens c) hreader).symm) nofun nofun
      refine { hread with
        settled := fun c hc => hread.settled c (hc.of_eq rfl rfl rfl rfl)
        delivered := ?_ }
      intro c c' hc
      rcases List.mem_append.mp hc with hc | hc
      · exact h.delivered c c' hc
      · cases List.mem_singleton.mp hc
        rfl
    · cases hnext
  · cases hnext

end Amqp091.Crossing

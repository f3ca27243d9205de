import Amqp091.Verification.Crossing.Invariant

/-! # Opening a channel while others close -/

namespace Amqp091.Crossing

variable {channelMax : ℕ} {s s' : Crossing} {ch : ChannelRef} {id : UInt16}

/-- A call of `Close` on an earlier `Channel` may still write, or what it has written is not
answered yet, or the reader has not got to the answer. -/
def Outstanding (s : Crossing) (id : UInt16) : Prop :=
  (∃ call ∈ s.calls, call.channel.id = id ∧ call.point.isPending = true) ∨
    (∃ ch, ch.id = id ∧ .close ch ∈ s.toServer) ∨ ∃ ch, ch.id = id ∧ .closeOk ch ∈ s.toClient

/-- `allocateChannel` gives out no id with closes outstanding. -/
def ReusesSettled (s : Crossing) : Action → Prop
  | .allocate => ∀ c ch, s.registry.allocateChannel = some (c, .ok ch) → ¬ s.Outstanding ch.id
  | _ => True

theorem Valid.flags (h : s.Valid channelMax) (hch : (s.objects ch).opening ≠ .opened) :
    (s.objects ch).closed = false ∧ (s.objects ch).destroyed = false := by
  have hclosed : (s.objects ch).closed = false := by
    rw [Bool.eq_false_iff]
    exact fun hclosed => hch ((h.sound ch).closed hclosed)
  refine ⟨hclosed, ?_⟩
  rw [Bool.eq_false_iff]
  intro hdestroyed
  rw [(h.sound ch).destroyed hdestroyed] at hclosed
  cases hclosed

/-- The client has nothing else to go by for a `Channel` that it has not opened. -/
theorem Valid.sent_of_settled (h : s.Valid channelMax) (hch : (s.objects ch).opening ≠ .opened)
    (hsettled : s'.Settled ch) (hclosed : (s'.objects ch).closed = (s.objects ch).closed)
    (hreader : ∀ msg, s'.reader = .delivering ch msg → s.reader = .delivering ch msg)
    (hcalls : s'.calls = s.calls) :
    (s'.objects ch).opening = .allocated ∨ .open ch ∈ s'.toServer := by
  cases hsettled with
  | allocated h' => exact .inl h'
  | sent h' => exact .inr h'
  | closed h' =>
      rw [hclosed, (h.flags hch).1] at h'
      cases h'
  | delivering c' h' =>
      rcases h.delivering ch _ (hreader _ h') with hmsg | hmsg
      · cases hmsg
      · exact absurd hmsg.2 hch
  | ended call hcall hchannel h' =>
      subst hchannel
      exact absurd (h.calls call (hcalls ▸ hcall)) hch

/-- `ch` is registered, and nothing changes for the other ids. -/
structure Registers (s : Crossing) (ch : ChannelRef) (c : Registry) : Prop where
  up : c.closed = false
  fresh : ∀ c', c.created.length ≤ c'.object →
    c' ≠ ch ∧ s.registry.created.length ≤ c'.object
  self : c.lookupChannel ch.id = some ch
  others : ∀ id, id ≠ ch.id → c.lookupChannel id = s.registry.lookupChannel id
  alone : s.Alone ch
  outstanding : ∀ c', s.Outstanding c'.id → s.Alone c' → c'.id = ch.id → c' = ch

theorem Registers.alone_of_outstanding {c : Registry} (hc : s.Registers ch c) {c' : ChannelRef}
    (hout : s.Outstanding c'.id) (halone : s.Alone c') {c'' : ChannelRef}
    (hc'' : c.lookupChannel c'.id = some c'') : c'' = c' := by
  by_cases hid : c'.id = ch.id
  · rw [hc.outstanding c' hout halone hid, hc.self] at hc''
    rw [hc.outstanding c' hout halone hid]
    exact (Option.some.inj hc'').symm
  · rw [hc.others _ hid] at hc''
    exact halone c'' hc''

/-- Other `Channel`s that are registered were so before. -/
theorem Registers.lookup_of_ne {c : Registry} (hc : s.Registers ch c) {id : UInt16}
    {c' : ChannelRef} (hne : c' ≠ ch) (hc' : c.lookupChannel id = some c') :
    s.registry.lookupChannel id = some c' := by
  refine (hc.others id fun hid => hne ?_).symm.trans hc'
  rw [hid] at hc'
  exact Option.some.inj (hc'.symm.trans hc.self)

/-- A `Channel` that is not open yet is allocated, or `open` sends its request or takes the
answer. What is known of the other ones is not touched. -/
theorem Valid.setOpening (h : s.Valid channelMax) {c : Registry} (opening : Opening)
    (toServer : List ChannelRequest) (reader : CrossingReader)
    (hregistry : c.Valid channelMax) (hc : s.Registers ch c)
    (hold : (s.objects ch).opening ≠ .opened)
    (hnew : opening = .allocated ∨ opening = .waiting ∨ opening = .opened)
    (hclose : ∀ c', .close c' ∈ toServer → .close c' ∈ s.toServer)
    (hopen : ∀ c', c' ≠ ch → .open c' ∈ toServer → .open c' ∈ s.toServer)
    (hover : opening = .allocated ∨ .open ch ∈ toServer → s.Over ch.id)
    (hhandled : ∀ c', reader.handled = some c' → s.reader.handled = some c')
    (hdelivering : ∀ c' msg, reader = .delivering c' msg → s.reader = .delivering c' msg)
    (hopens : ∀ c', toServer.count (.open c') + s.toClient.count (.openOk c') + reader.opens c' =
      if (if c' = ch then opening else (s.objects c').opening) = .waiting then 1 else 0) :
    Valid channelMax ({ s with registry := c, toServer := toServer, reader := reader }.setObject ch
      { s.objects ch with opening := opening }) := by
  obtain ⟨hclosed, hdestroyed⟩ := h.flags hold
  set s' := { s with registry := c, toServer := toServer, reader := reader }.setObject ch
    { s.objects ch with opening := opening }
  have hself : s'.objects ch = { s.objects ch with opening := opening } :=
    (objects_setObject _ ch).trans (if_pos rfl)
  have hother : ∀ c', c' ≠ ch → s'.objects c' = s.objects c' :=
    fun c' hc' => (objects_setObject _ c').trans (if_neg hc')
  have hopened : ∀ c', (s.objects c').opening = .opened → s'.objects c' = s.objects c' := by
    intro c' hc'
    refine hother c' ?_
    rintro rfl
    exact hold hc'
  refine {
    registry := hregistry
    up := hc.up
    fresh := fun c' hc' => (hother c' (hc.fresh c' hc').1).trans (h.fresh c' (hc.fresh c' hc').2)
    running := ?_
    registered := ?_
    sound := ?_
    calls := fun call hcall => by
      rw [hopened _ (h.calls call hcall)]
      exact h.calls call hcall
    pending := ?_
    releasing := fun call hcall hpoint => by
      rw [hopened _ (h.calls call hcall)]
      exact h.releasing call hcall hpoint
    handled := fun c' hc' => by
      have hc' := h.handled c' (hhandled c' hc')
      rw [hopened _ ((h.sound c').closed hc')]
      exact hc'
    delivering := ?_
    opens := ?_
    requests := ?_
    replies := ?_
    closes := h.closes
    order := h.order
    unregistered := ?_
    settled := ?_
    delivered := h.delivered
    failed := h.failed }
  · intro c' hc'
    by_cases heq : c' = ch
    · rw [heq]
      exact hc.self
    · rw [hother c' heq] at hc'
      have hrunning := h.running c' hc'
      refine (hc.others c'.id fun hid => heq ?_).trans hrunning
      exact hc.alone c' (hid ▸ hrunning)
  · intro id c' hc'
    by_cases heq : c' = ch
    · rw [heq, hself]
      exact hnew
    · rw [hother c' heq]
      exact h.registered id c' (hc.lookup_of_ne heq hc')
  · refine sound_setObject (s := { s with registry := c, toServer := toServer, reader := reader })
      ⟨?_, ?_, ?_⟩ h.sound
    · rcases hnew with rfl | rfl | rfl <;> nofun
    · simp [hclosed]
    · simp [hdestroyed]
  · intro call hcall hpending c'' hc''
    exact hc.alone_of_outstanding (.inl ⟨call, hcall, rfl, hpending⟩)
      (h.pending call hcall hpending) hc''
  · intro c' msg hc'
    refine (h.delivering c' msg (hdelivering c' msg hc')).imp_right fun hmsg => ?_
    rw [hopened _ hmsg.2]
    exact hmsg
  · intro c'
    refine (hopens c').trans ?_
    by_cases heq : c' = ch
    · rw [if_pos heq, heq, hself]
    · rw [if_neg heq, hother c' heq]
  · intro c' hc'
    obtain ⟨ho, ha⟩ := h.requests c' (hclose c' hc')
    rw [hopened _ ho]
    exact ⟨ho, fun c'' hc'' =>
      hc.alone_of_outstanding (.inr (.inl ⟨c', rfl, hclose c' hc'⟩)) ha hc''⟩
  · intro c' hc'
    obtain ⟨ho, ha, hserver⟩ := h.replies c' hc'
    rw [hopened _ ho]
    exact ⟨ho, fun c'' hc'' =>
      hc.alone_of_outstanding (.inr (.inr ⟨c', rfl, hc'⟩)) ha hc'', hserver⟩
  · intro id hid
    refine h.unregistered id ((hc.others id ?_).symm.trans hid)
    rintro rfl
    exact nomatch hc.self.symm.trans hid
  · intro c' hc' hregistered
    by_cases heq : c' = ch
    · rw [heq] at hc' ⊢
      refine hover ?_
      have hsent := h.sent_of_settled hold hc' (by rw [hself]) (hdelivering ch) rfl
      rwa [hself] at hsent
    · exact h.settled c'
        (hc'.mono (hother c' heq) (hopen c' heq) (hdelivering c') fun _ => id)
        (hc.lookup_of_ne heq hregistered)

/-- While it is being opened a `Channel` is registered. -/
theorem Valid.registers (h : s.Valid channelMax)
    (hch : s.registry.lookupChannel ch.id = some ch) (hpresent : s.objects ch ≠ {}) :
    s.Registers ch s.registry where
  up := h.up
  fresh := by
    intro c' hc'
    refine ⟨?_, hc'⟩
    rintro rfl
    exact hpresent (h.fresh c' hc')
  self := hch
  others := fun _ _ => rfl
  alone := alone_of_lookup hch
  outstanding := fun c' _ halone hid => (halone ch (hid ▸ hch)).symm

theorem Valid.sendOpen (h : s.Valid channelMax) (hnext : s.sendOpen ch = some s') :
    s'.Valid channelMax := by
  unfold Crossing.sendOpen at hnext
  split at hnext
  · next hallocated hclosed =>
    have hopened := (h.sound ch).closed hclosed
    rw [hallocated] at hopened
    cases hopened
  · next hallocated _ =>
    cases hnext
    have hregistered := h.running ch (.inl hallocated)
    have hover := h.settled ch (.allocated hallocated) hregistered
    have hregisters := h.registers hregistered fun hch => by
      rw [hch] at hallocated
      cases hallocated
    refine h.setOpening _ _ s.reader h.registry hregisters (by simp [hallocated])
      (.inr (.inl rfl)) ?_ ?_ (fun _ => hover) (fun _ hc => hc) (fun _ _ hc => hc) ?_
    · intro c hc
      simpa using hc
    · intro c hne hc
      rcases List.mem_append.mp hc with hc | hc
      · exact hc
      · cases List.mem_singleton.mp hc
        exact absurd rfl hne
    · intro c
      have hopens := h.opens c
      rw [Crossing.opens] at hopens
      by_cases heq : c = ch
      · subst heq
        rw [hallocated, if_neg (by decide)] at hopens
        simp only [List.count_append, List.count_singleton_self, if_true]
        omega
      · have hne : (ChannelRequest.open ch) ≠ .open c := fun hopen => heq (by cases hopen; rfl)
        rw [if_neg heq, ← hopens]
        simp [hne]
  · cases hnext

/-- The reply that `open` takes is the one it waits for. -/
theorem Valid.takeOpen (h : s.Valid channelMax) (hnext : s.takeOpen = some s') :
    s'.Valid channelMax := by
  unfold Crossing.takeOpen at hnext
  split at hnext
  · next ch msg hreader =>
    split at hnext
    · next hwaiting =>
      cases hnext
      rcases h.delivering ch msg hreader with rfl | ⟨-, hopened⟩
      · have hregistered := h.running ch (.inr (.inl hwaiting))
        have hregisters := h.registers hregistered fun hch => by
          rw [hch] at hwaiting
          cases hwaiting
        have hset := h.setOpening .opened s.toServer .reading h.registry hregisters
          (by rw [hwaiting]; nofun) (.inr (.inr rfl)) (fun _ hc => hc) (fun _ _ hc => hc)
          (fun hsent => ?_) nofun nofun ?_
        · refine { hset with
            settled := fun c hc => hset.settled c (hc.of_eq rfl rfl rfl rfl)
            delivered := ?_ }
          intro c c' hc
          rcases List.mem_append.mp hc with hc | hc
          · exact h.delivered c c' hc
          · cases List.mem_singleton.mp hc
        · rcases hsent with hsent | hsent
          · cases hsent
          · exact h.settled ch (.sent hsent) hregistered
        · intro c
          have hopens := h.opens c
          rw [Crossing.opens, hreader, CrossingReader.opens] at hopens
          by_cases heq : c = ch
          · subst heq
            rw [hwaiting] at hopens
            simp only [if_true] at hopens
            simp only [if_true, CrossingReader.opens_reading, reduceCtorEq, if_false]
            omega
          · rw [if_neg heq, ← hopens, if_neg fun h' => heq h'.symm]
            rfl
      · rw [hwaiting] at hopened
        cases hopened
    · cases hnext
  · cases hnext

/-- `open` never has to give a channel back. -/
theorem Valid.failOpen_eq_none (h : s.Valid channelMax) : s.failOpen ch = none := by
  unfold Crossing.failOpen
  split
  · next hwaiting hdestroyed =>
    have hopened := (h.sound ch).closed ((h.sound ch).destroyed hdestroyed)
    rw [hwaiting] at hopened
    cases hopened
  · rfl

theorem Valid.releaseOpen_eq_none (h : s.Valid channelMax) : s.releaseOpen ch = none := by
  unfold Crossing.releaseOpen
  split
  · next hfailing => exact absurd hfailing (h.sound ch).opening
  · rfl

/-! ## Reuse of an id -/

theorem Valid.registry_allocateChannel (hmax : channelMax ≤ 65535) (h : s.Valid channelMax)
    {c : Registry} {r : Except GoError ChannelRef}
    (hc : s.registry.allocateChannel = some (c, r)) : c.Valid channelMax := by
  have hallowed : s.registry.Allowed .allocateChannel := trivial
  obtain ⟨c', hc', hvalid⟩ := h.registry.step hmax hallowed
  rw [Registry.next, hc] at hc'
  cases hc'
  exact hvalid

theorem Valid.allocate_ok (hmax : channelMax ≤ 65535) (h : s.Valid channelMax) {c : Registry}
    (hc : s.registry.allocateChannel = some (c, .ok ch)) (hreuse : ¬ s.Outstanding ch.id) :
    Valid channelMax ({ s with registry := c }.setObject ch { opening := .allocated }) := by
  obtain ⟨hfree, hlookup, hobject, hlength, hup⟩ := h.registry.allocateChannel_ok hmax h.up hc
  have habsent : s.objects ch = {} := h.fresh ch hobject.le
  have hregisters : s.Registers ch c := by
    refine ⟨hup, ?_, ?_, ?_, ?_, ?_⟩
    · intro c' hc'
      refine ⟨?_, by omega⟩
      rintro rfl
      omega
    · rw [hlookup, if_pos rfl]
    · intro id hid
      rw [hlookup, if_neg hid]
    · intro c' hc'
      rw [hfree] at hc'
      cases hc'
    · intro c' hout _ hid
      exact absurd (hid ▸ hout) hreuse
  have hset := h.setOpening .allocated s.toServer s.reader (h.registry_allocateChannel hmax hc)
    hregisters (by rw [habsent]; nofun) (.inl rfl) (fun _ hc' => hc') (fun _ _ hc' => hc')
    (fun _ => h.unregistered ch.id hfree) (fun _ hc' => hc') (fun _ _ hc' => hc') ?_
  · rwa [habsent] at hset
  · intro c'
    refine (h.opens c').trans ?_
    by_cases heq : c' = ch
    · rw [heq, habsent, if_pos rfl]
      rfl
    · rw [if_neg heq]

end Amqp091.Crossing

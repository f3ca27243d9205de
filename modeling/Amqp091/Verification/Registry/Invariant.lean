import Amqp091.Algorithm.Registry
import Amqp091.Shared.Transition
import Amqp091.Verification.Registry.Allocator
import Mathlib.Order.Interval.Finset.Nat

/-! # The registry and its allocator stay in step -/

namespace Amqp091

open Transition

namespace Registry

/-- The allocator has reserved exactly the ids of the registered channels. -/
structure InStep (channelMax : ℕ) (a : Allocator)
    (channels : AList fun _ : UInt16 => ChannelRef) : Prop where
  low : a.low = 1
  high : a.high = channelMax
  inRange : a.InRange
  reserved : ∀ n, 1 ≤ n → (a.reserved n = true ↔ ∃ id ∈ channels, id.toNat = n)
  ids : ∀ id ch, channels.lookup id = some ch →
    ch.id = id ∧ 1 ≤ id.toNat ∧ id.toNat ≤ channelMax

/-- Before the body of `shutdown` allocator and map are there and in step, afterwards the
flag is set and both are nil. -/
inductive Valid (channelMax : ℕ) (c : Registry) : Prop
  | up {a : Allocator} {channels : AList fun _ : UInt16 => ChannelRef}
      (hallocator : c.allocator = some a) (hchannels : c.channels = some channels)
      (h : InStep channelMax a channels)
  | down (hclosed : c.closed = true) (hallocator : c.allocator = none)

section

variable {channelMax : ℕ} {a : Allocator} {channels : AList fun _ : UInt16 => ChannelRef}

theorem InStep.mem_range (h : InStep channelMax a channels) {id : UInt16} (hid : id ∈ channels) :
    1 ≤ id.toNat ∧ id.toNat ≤ channelMax := by
  obtain ⟨ch, hch⟩ := Option.isSome_iff_exists.mp (AList.lookup_isSome.mpr hid)
  exact (h.ids id ch hch).2

/-- Reserving a free id and registering a channel under it. -/
theorem InStep.insert (hmax : channelMax ≤ 65535) (h : InStep channelMax a channels)
    {a' : Allocator} {n object : ℕ} (hlow : a'.low = a.low) (hhigh : a'.high = a.high)
    (hrange : a'.InRange) (hn : 1 ≤ n) (hle : n ≤ channelMax)
    (hreserved : ∀ m, a.low ≤ m → a'.reserved m = if m = n then true else a.reserved m) :
    InStep channelMax a'
      (channels.insert (UInt16.ofNat n) ⟨object, UInt16.ofNat n⟩) := by
  have hto : (UInt16.ofNat n).toNat = n := UInt16.toNat_ofNat_of_lt' (by
    have : UInt16.size = 65536 := rfl
    omega)
  refine ⟨hlow.trans h.low, hhigh.trans h.high, hrange, ?_, ?_⟩
  · intro m hm
    rw [hreserved m (by rw [h.low]; exact hm)]
    by_cases hmn : m = n
    · subst hmn
      simp [hto]
    · rw [if_neg hmn, h.reserved m hm]
      constructor
      · rintro ⟨id, hid, heq⟩
        exact ⟨id, (AList.mem_insert _).mpr (.inr hid), heq⟩
      · rintro ⟨id, hid, heq⟩
        rcases (AList.mem_insert _).mp hid with rfl | hid
        · exact absurd (heq.symm.trans hto) hmn
        · exact ⟨id, hid, heq⟩
  · intro id ch hch
    by_cases hid : id = UInt16.ofNat n
    · subst hid
      rw [AList.lookup_insert] at hch
      cases hch
      rw [hto]
      exact ⟨rfl, hn, hle⟩
    · rw [AList.lookup_insert_ne hid] at hch
      exact h.ids id ch hch

/-- Releasing the id of a registered channel and removing it. -/
theorem InStep.erase (h : InStep channelMax a channels) {id : UInt16} (hid : id ∈ channels) :
    InStep channelMax (a.release id.toNat) (channels.erase id) := by
  have hone := (h.mem_range hid).1
  refine ⟨h.low, h.high, ⟨h.inRange.low_le, h.inRange.le_high⟩, ?_, ?_⟩
  · intro m hm
    have hset := Allocator.reserved_setBit (a := a) (n := id.toNat) (m := m)
      (by rw [h.low]; exact hone) (by rw [h.low]; exact hm) false
    have hreserved : (a.release id.toNat).reserved m =
        if m = id.toNat then false else a.reserved m := hset
    rw [hreserved]
    by_cases heq : m = id.toNat
    · subst heq
      simp only [if_true, Bool.false_eq_true, false_iff]
      rintro ⟨id', hid', heq⟩
      rw [AList.mem_erase] at hid'
      exact hid'.1 (UInt16.toNat_inj.mp heq)
    · rw [if_neg heq, h.reserved m hm]
      constructor
      · rintro ⟨id', hid', rfl⟩
        refine ⟨id', AList.mem_erase.mpr ⟨?_, hid'⟩, rfl⟩
        rintro rfl
        exact heq rfl
      · rintro ⟨id', hid', rfl⟩
        exact ⟨id', (AList.mem_erase.mp hid').2, rfl⟩
  · intro id' ch hch
    by_cases heq : id' = id
    · subst heq
      rw [AList.lookup_erase] at hch
      cases hch
    · rw [AList.lookup_erase_ne heq] at hch
      exact h.ids id' ch hch

/-- All ids are reserved exactly when as many channels are registered. -/
theorem InStep.exhausted_iff (h : InStep channelMax a channels) :
    (∀ n, a.low ≤ n → n ≤ a.high → a.reserved n = true) ↔
      channels.keys.length = channelMax := by
  rw [h.low, h.high]
  have hnodup : (channels.keys.map UInt16.toNat).Nodup :=
    channels.keys_nodup.map fun x y => UInt16.toNat_inj.mp
  have hcard : (channels.keys.map UInt16.toNat).toFinset.card = channels.keys.length := by
    rw [List.toFinset_card_of_nodup hnodup, List.length_map]
  have hsub : (channels.keys.map UInt16.toNat).toFinset ⊆ Finset.Icc 1 channelMax := by
    intro n hn
    obtain ⟨id, hid, rfl⟩ := List.mem_map.mp (List.mem_toFinset.mp hn)
    exact Finset.mem_Icc.mpr (h.mem_range (AList.mem_keys.mpr hid))
  have hmem : ∀ n, n ∈ (channels.keys.map UInt16.toNat).toFinset ↔
      ∃ id ∈ channels, id.toNat = n := by
    intro n
    simp [AList.mem_keys]
  constructor
  · intro hall
    have hsup : Finset.Icc 1 channelMax ⊆ (channels.keys.map UInt16.toNat).toFinset := by
      intro n hn
      obtain ⟨hle, hle'⟩ := Finset.mem_Icc.mp hn
      exact (hmem n).mpr ((h.reserved n hle).mp (hall n hle hle'))
    rw [← hcard, Finset.Subset.antisymm hsub hsup, Nat.card_Icc, Nat.add_sub_cancel]
  · intro hlength n hle hle'
    have heq : (channels.keys.map UInt16.toNat).toFinset = Finset.Icc 1 channelMax := by
      apply Finset.eq_of_subset_of_card_le hsub
      rw [hcard, hlength, Nat.card_Icc, Nat.add_sub_cancel]
    refine (h.reserved n hle).mpr ((hmem n).mp ?_)
    rw [heq]
    exact Finset.mem_Icc.mpr ⟨hle, hle'⟩

end

theorem allocateChannel_of_closed {c : Registry} (h : c.closed = true) :
    c.allocateChannel = some (c, .error errClosed) := by
  simp [allocateChannel, h]

/-- On an open connection an id is reserved and a new channel registered under it, unless
all ids are taken. -/
theorem allocateChannel_spec {channelMax : ℕ} (hmax : channelMax ≤ 65535) {c : Registry}
    {a : Allocator} {channels : AList fun _ : UInt16 => ChannelRef} (hopen : c.closed = false)
    (hallocator : c.allocator = some a) (hchannels : c.channels = some channels)
    (h : InStep channelMax a channels) :
    (channels.keys.length ≠ channelMax ∧ ∃ c' ch, c.allocateChannel = some (c', .ok ch) ∧
      Valid channelMax c') ∨
    (channels.keys.length = channelMax ∧ ∃ c',
      c.allocateChannel = some (c', .error errChannelMax) ∧ Valid channelMax c') := by
  rcases Allocator.next_spec h.inRange with
    ⟨n, a', hnext, hle, hle', hfree, hlow, hhigh, hrange, hreserved⟩ |
    ⟨a', hnext, hall, hlow, hhigh, hrange, hpool⟩
  · rw [h.low] at hle
    rw [h.high] at hle'
    have hroom : channels.keys.length ≠ channelMax := by
      intro hfull
      have hn := h.exhausted_iff.mpr hfull n (by rw [h.low]; exact hle) (by rw [h.high]; exact hle')
      rw [hfree] at hn
      cases hn
    have hallocate : c.allocateChannel = some ({ c with
        allocator := some a'
        channels := some (channels.insert (UInt16.ofNat n) ⟨c.created.length, UInt16.ofNat n⟩)
        created := c.created ++ [⟨c.created.length, UInt16.ofNat n⟩] },
        .ok ⟨c.created.length, UInt16.ofNat n⟩) := by
      simp [allocateChannel, hopen, hallocator, hchannels, hnext]
    exact .inl ⟨hroom, _, _, hallocate,
      .up rfl rfl (h.insert hmax hlow hhigh hrange hle hle' hreserved)⟩
  · refine .inr ⟨h.exhausted_iff.mp hall, { c with allocator := some a' }, ?_, ?_⟩
    · simp [allocateChannel, hopen, hallocator, hnext]
    · refine .up rfl hchannels ⟨hlow.trans h.low, hhigh.trans h.high, hrange, ?_, h.ids⟩
      intro n hn
      rw [← h.reserved n hn]
      simp [Allocator.reserved, hpool, hlow]

/-- A release does nothing unless the very channel is registered under its id. -/
theorem releaseChannel_spec {channelMax : ℕ} {c : Registry} (h : Valid channelMax c)
    (ch : ChannelRef) : ∃ c', c.releaseChannel ch = some c' ∧ Valid channelMax c' := by
  cases hclosed : c.closed with
  | true => exact ⟨c, by simp [releaseChannel, hclosed], h⟩
  | false =>
      by_cases hsame : c.lookupChannel ch.id = some ch
      · cases h with
        | up hallocator hchannels h =>
            refine ⟨_, by simp only [releaseChannel, hclosed, hsame, hallocator]; rfl, ?_⟩
            rw [lookupChannel, hchannels] at hsame
            refine .up rfl (by rw [hchannels]; rfl) (h.erase ?_)
            exact AList.lookup_isSome.mp (by rw [Option.bind_some] at hsame; rw [hsame]; rfl)
        | down hclosed' _ =>
            rw [hclosed] at hclosed'
            cases hclosed'
      · exact ⟨c, by simp [releaseChannel, hclosed, hsame], h⟩

/-- No allowed action panics, and every one keeps allocator and map in step. -/
theorem Valid.step {channelMax : ℕ} (hmax : channelMax ≤ 65535) {c : Registry}
    (h : Valid channelMax c) {act : Action} (hallowed : c.Allowed act) :
    ∃ c', c.next act = some c' ∧ Valid channelMax c' := by
  cases act with
  | allocateChannel =>
      cases hclosed : c.closed with
      | true =>
          exact ⟨c, by rw [next, allocateChannel_of_closed hclosed]; rfl, h⟩
      | false =>
          cases h with
          | up hallocator hchannels h =>
              rcases allocateChannel_spec hmax hclosed hallocator hchannels h with
                ⟨-, c', ch, hc', hvalid⟩ | ⟨-, c', hc', hvalid⟩
              · exact ⟨c', by rw [next, hc']; rfl, hvalid⟩
              · exact ⟨c', by rw [next, hc']; rfl, hvalid⟩
          | down hclosed' _ =>
              rw [hclosed] at hclosed'
              cases hclosed'
  | releaseChannel ch => exact releaseChannel_spec h ch
  | setClosed =>
      refine ⟨_, rfl, ?_⟩
      cases h with
      | up hallocator hchannels h => exact .up hallocator hchannels h
      | down _ hallocator => exact .down rfl hallocator
  | shutdownBody => exact ⟨_, rfl, .down hallowed rfl⟩

theorem valid_newRegistry {channelMax : ℕ} (hmax : 1 ≤ channelMax) :
    Valid channelMax (newRegistry channelMax) := by
  refine .up rfl rfl ⟨rfl, rfl, ⟨le_rfl, hmax⟩, ?_, ?_⟩
  · simp [Allocator.newAllocator, Allocator.reserved]
  · simp

/-- An open connection refuses an allocation for want of ids when all of them are in use. -/
theorem channelMax_iff {channelMax : ℕ} {c : Registry} {a : Allocator}
    {channels : AList fun _ : UInt16 => ChannelRef} (hmax : channelMax ≤ 65535)
    (hopen : c.closed = false) (hallocator : c.allocator = some a)
    (hchannels : c.channels = some channels) (h : InStep channelMax a channels) :
    (∃ c', c.allocateChannel = some (c', .error errChannelMax)) ↔
      channels.keys.length = channelMax := by
  rcases allocateChannel_spec hmax hopen hallocator hchannels h with
    ⟨hroom, c', ch, hc', -⟩ | ⟨hfull, c', hc', -⟩
  · refine iff_of_false ?_ hroom
    rintro ⟨c'', hc''⟩
    rw [hc'] at hc''
    cases hc''
  · exact iff_of_true ⟨c', hc'⟩ hfull

/-- Whatever allocations, releases and shutdowns happened: while the allocator is there it
has reserved the ids of the registered channels, whose number decides whether another
allocation is refused; once it is gone every allocation reports a closed connection. -/
theorem registry_in_step {channelMax : ℕ} (hmax : 1 ≤ channelMax ∧ channelMax ≤ 65535)
    {as : List Action} {c : Registry} (h : Run next Allowed (newRegistry channelMax) as c) :
    (∀ a, c.allocator = some a → ∃ channels, c.channels = some channels ∧
      (∀ n, 1 ≤ n → (a.reserved n = true ↔ ∃ id ∈ channels.keys, id.toNat = n)) ∧
      (∀ id ch, channels.lookup id = some ch →
        ch.id = id ∧ 1 ≤ id.toNat ∧ id.toNat ≤ channelMax) ∧
      (∀ id id' ch ch', channels.lookup id = some ch → channels.lookup id' = some ch' →
        ch.id = ch'.id → ch = ch') ∧
      (c.closed = false →
        ((∃ c', c.allocateChannel = some (c', .error errChannelMax)) ↔
          channels.keys.length = channelMax))) ∧
    (c.allocator = none → c.closed = true) ∧
    (c.closed = true → c.allocateChannel = some (c, .error errClosed)) ∧
    ∀ act, c.Allowed act → c.next act ≠ none := by
  have hvalid : Valid channelMax c := by
    refine h.invariant (valid_newRegistry hmax.1) fun c act c' hc hallowed hnext => ?_
    obtain ⟨c'', hc'', hvalid⟩ := hc.step hmax.2 hallowed
    rw [hnext] at hc''
    cases hc''
    exact hvalid
  refine ⟨?_, ?_, allocateChannel_of_closed, ?_⟩
  · intro a ha
    cases hvalid with
    | down _ hnone =>
        rw [ha] at hnone
        cases hnone
    | up hallocator hchannels h =>
        rw [ha] at hallocator
        cases hallocator
        refine ⟨_, hchannels, h.reserved, h.ids, ?_, ?_⟩
        · intro id id' ch ch' hch hch' heq
          rw [(h.ids id ch hch).1, (h.ids id' ch' hch').1] at heq
          subst heq
          rw [hch] at hch'
          exact Option.some.inj hch'
        · exact fun hopen => channelMax_iff hmax.2 hopen ha hchannels h
  · intro hnone
    cases hvalid with
    | up hallocator _ _ =>
        rw [hnone] at hallocator
        cases hallocator
    | down hclosed _ => exact hclosed
  · intro act hallowed
    obtain ⟨c', hc', -⟩ := hvalid.step hmax.2 hallowed
    rw [hc']
    exact Option.some_ne_none c'

/-- With one id, a channel is released a second time after its id was given away again:
the later channel stays registered, and there is no room for another. -/
theorem registry_in_step_stale_release :
    ∃ c channels, Run next Allowed (newRegistry 1)
        [.allocateChannel, .releaseChannel ⟨0, 1⟩, .allocateChannel, .releaseChannel ⟨0, 1⟩] c ∧
      c.channels = some channels ∧ channels.lookup 1 = some ⟨1, 1⟩ ∧
      ∃ c', c.allocateChannel = some (c', .error errChannelMax) := by
  have hrun : ∃ c, Run next Allowed (newRegistry 1)
      [.allocateChannel, .releaseChannel ⟨0, 1⟩, .allocateChannel, .releaseChannel ⟨0, 1⟩] c ∧
      c.allocator.isSome ∧ c.lookupChannel 1 = some ⟨1, 1⟩ ∧ c.closed = false ∧
      c.channels.map (fun channels => channels.keys.length) = some 1 := by
    refine ⟨_, .cons trivial rfl (.cons ?_ rfl (.cons trivial rfl (.cons ?_ rfl (.nil _)))),
      rfl, rfl, rfl, rfl⟩
    · exact List.mem_singleton_self _
    · exact List.mem_cons_self
  obtain ⟨c, h, ha, hlookup, hopen, hlength⟩ := hrun
  obtain ⟨a, ha⟩ := Option.isSome_iff_exists.mp ha
  obtain ⟨channels, hchannels, -, -, -, hmax⟩ := (registry_in_step (by decide) h).1 a ha
  rw [hchannels, Option.map_some, Option.some.injEq] at hlength
  rw [lookupChannel, hchannels, Option.bind_some] at hlookup
  exact ⟨c, channels, h, hchannels, hlookup, (hmax hopen).mpr hlength⟩

end Registry

end Amqp091

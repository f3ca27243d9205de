import Amqp091.Verification.Registry.Invariant

/-! # What is registered after an allocation and a release -/

namespace Amqp091.Registry

variable {channelMax : ℕ} {c c' : Registry} {ch : ChannelRef}

/-- A channel is registered under its own id only. -/
theorem Valid.id_of_lookup (h : Valid channelMax c) (hopen : c.closed = false) {id : UInt16}
    (hch : c.lookupChannel id = some ch) : ch.id = id := by
  cases h with
  | up _ hchannels h =>
      rw [lookupChannel, hchannels, Option.bind_some] at hch
      exact (h.ids id ch hch).1
  | down hclosed _ =>
      rw [hopen] at hclosed
      cases hclosed

/-- A free number is the id of no registered channel. -/
theorem InStep.lookup_of_free {a : Allocator} {channels : AList fun _ : UInt16 => ChannelRef}
    (h : InStep channelMax a channels) (hmax : channelMax ≤ 65535) {n : ℕ} (hn : 1 ≤ n)
    (hle : n ≤ channelMax) (hfree : a.reserved n = false) :
    channels.lookup (UInt16.ofNat n) = none := by
  refine AList.lookup_eq_none.mpr fun hid => ?_
  have hto : (UInt16.ofNat n).toNat = n := UInt16.toNat_ofNat_of_lt' (by
    have : UInt16.size = 65536 := rfl
    omega)
  have hreserved := (h.reserved n hn).mpr ⟨_, hid, hto⟩
  rw [hfree] at hreserved
  cases hreserved

/-- An allocation registers a new object, under an id that was not registered. -/
theorem Valid.allocateChannel_ok (hmax : channelMax ≤ 65535) (h : Valid channelMax c)
    (hopen : c.closed = false) (hch : c.allocateChannel = some (c', .ok ch)) :
    c.lookupChannel ch.id = none ∧
      (∀ id, c'.lookupChannel id = if id = ch.id then some ch else c.lookupChannel id) ∧
      c.created.length = ch.object ∧ c'.created.length = c.created.length + 1 ∧
      c'.closed = false := by
  cases h with
  | down hclosed _ =>
      rw [hopen] at hclosed
      cases hclosed
  | @up a channels hallocator hchannels h =>
      rcases Allocator.next_spec h.inRange with
        ⟨n, a', hnext, hle, hle', hfree, -⟩ | ⟨a', hnext, -⟩
      · rw [h.low] at hle
        rw [h.high] at hle'
        simp [allocateChannel, hopen, hallocator, hchannels, hnext] at hch
        obtain ⟨rfl, rfl⟩ := hch
        refine ⟨?_, fun id => ?_, rfl, by simp, rfl⟩
        · rw [lookupChannel, hchannels]
          exact h.lookup_of_free hmax hle hle' hfree
        · simp only [lookupChannel, hchannels, Option.bind_some]
          by_cases hid : id = UInt16.ofNat n
          · rw [if_pos hid, hid, AList.lookup_insert]
          · rw [if_neg hid, AList.lookup_insert_ne hid]
      · simp [allocateChannel, hopen, hallocator, hnext] at hch

/-- Without a free id nothing is registered. -/
theorem allocateChannel_error {e : GoError} (hch : c.allocateChannel = some (c', .error e)) :
    c'.lookupChannel = c.lookupChannel ∧ c'.created = c.created ∧ c'.closed = c.closed := by
  unfold allocateChannel at hch
  grind [lookupChannel]

/-- A release removes the channel, if it is the one that is registered. -/
theorem Valid.lookupChannel_releaseChannel (h : Valid channelMax c) (hopen : c.closed = false)
    (hc' : c.releaseChannel ch = some c') :
    (∀ id, c'.lookupChannel id =
      if c.lookupChannel id = some ch then none else c.lookupChannel id) ∧
      c'.created = c.created ∧ c'.closed = false := by
  by_cases hsame : c.lookupChannel ch.id = some ch
  · cases h with
    | down hclosed _ =>
        rw [hopen] at hclosed
        cases hclosed
    | @up a channels hallocator hchannels h =>
        simp [releaseChannel, hopen, hsame, hallocator] at hc'
        subst hc'
        refine ⟨fun id => ?_, rfl, rfl⟩
        simp only [lookupChannel, hchannels, Option.map_some, Option.bind_some] at hsame ⊢
        by_cases hid : id = ch.id
        · rw [hid, AList.lookup_erase, if_pos hsame]
        · rw [AList.lookup_erase_ne hid, if_neg fun hid' => hid (h.ids id ch hid').1.symm]
  · simp [releaseChannel, hopen, hsame] at hc'
    subst hc'
    refine ⟨fun id => ?_, rfl, hopen⟩
    rw [if_neg]
    intro hid
    have heq := h.id_of_lookup hopen hid
    subst heq
    exact hsame hid

end Amqp091.Registry

import Amqp091.Shared.Fuel

/-! # Readers over readers

A stream arrives in packets of any sizes, and an `io.LimitedReader` passes on at most `N`
bytes of the reader below it. Filling a buffer through any number of them is reading from
the bytes that the limits leave visible. -/

namespace ByteCodec

variable {ε α β : Type}

/-- The numbers are the fields `N` of the limited readers. -/
inductive Source where
  | stream (packets : List Bytes)
  | limited (n : ℤ) (r : Source)
  deriving Repr

namespace Source

/-- `Read` for a buffer of `k` bytes. A packet may be cut but is never joined to the next
one; `none` is `io.EOF`. -/
def read : Source → ℕ → Option (Bytes × Source)
  | .stream [], _ => none
  | .stream (packet :: packets), k =>
      some (packet.take k,
        .stream (if packet.length ≤ k then packets else packet.drop k :: packets))
  | .limited n r, k =>
      if n ≤ 0 then none
      else (r.read (min k n.toNat)).map fun p => (p.1, .limited (n - p.1.length) p.2)

/-- What can still be read. -/
def visible : Source → Bytes
  | .stream packets => packets.flatten
  | .limited n r => r.visible.take n.toNat

/-- `c` bytes of the stream are gone, and every limit had room for them. -/
inductive Moved (c : ℕ) : Source → Source → Prop
  | stream {packets packets' : List Bytes} (hle : c ≤ packets.flatten.length)
      (hdrop : packets'.flatten = packets.flatten.drop c) :
      Moved c (.stream packets) (.stream packets')
  | limited {n : ℤ} {r r' : Source} (hle : c ≤ n.toNat) (h : Moved c r r') :
      Moved c (.limited n r) (.limited (n - c) r')

theorem Moved.refl (r : Source) : Moved 0 r r := by
  induction r with
  | stream packets => exact .stream (Nat.zero_le _) rfl
  | limited n r ih =>
      have h := Moved.limited (n := n) (Nat.zero_le _) ih
      rwa [Nat.cast_zero, sub_zero] at h

theorem Moved.trans {c c' : ℕ} {r r' r'' : Source} (h : Moved c r r') (h' : Moved c' r' r'') :
    Moved (c + c') r r'' := by
  induction h generalizing r'' with
  | stream hle hdrop =>
      cases h' with
      | stream hle' hdrop' =>
          rw [hdrop, List.length_drop] at hle'
          refine .stream (by omega) ?_
          rw [hdrop', hdrop, List.drop_drop]
  | @limited n _ _ hle _ ih =>
      cases h' with
      | limited hle' h' =>
          have hsub : n - c - c' = n - (c + c' : ℕ) := by omega
          rw [hsub]
          exact .limited (by omega) (ih h')

theorem Moved.visible_eq {c : ℕ} {r r' : Source} (h : Moved c r r') :
    r'.visible = r.visible.drop c := by
  induction h with
  | stream hle hdrop => exact hdrop
  | limited hle _ ih =>
      rw [visible, visible, ih, List.drop_take]
      congr 1
      omega

theorem Moved.le_length {c : ℕ} {r r' : Source} (h : Moved c r r') : c ≤ r.visible.length := by
  induction h with
  | stream hle => exact hle
  | limited hle _ ih =>
      rw [visible, List.length_take]
      exact le_min hle ih

/-! ## Filling a buffer -/

/-- An empty packet is a `Read` without a byte, too. -/
def weight : Source → ℕ
  | .stream packets => packets.flatten.length + packets.length
  | .limited _ r => r.weight

theorem visible_of_read_none {r : Source} {k : ℕ} (hk : 0 < k) (h : r.read k = none) :
    r.visible = [] := by
  induction r generalizing k with
  | stream packets =>
      cases packets with
      | nil => rfl
      | cons packet packets => cases h
  | limited n r ih =>
      rw [read] at h
      split at h
      · rename_i hn
        rw [visible, Int.toNat_of_nonpos hn, List.take_zero]
      · rw [visible, ih (by omega) (Option.map_eq_none_iff.mp h), List.take_nil]

theorem read_spec {r r' : Source} {k : ℕ} {bs : Bytes} (hk : 0 < k)
    (h : r.read k = some (bs, r')) :
    bs.length ≤ k ∧ bs = r.visible.take bs.length ∧ Moved bs.length r r' ∧
      r'.weight < r.weight := by
  induction r generalizing k r' with
  | stream packets =>
      cases packets with
      | nil => cases h
      | cons packet packets =>
          cases h
          by_cases hle : packet.length ≤ k
          · rw [List.take_of_length_le hle, if_pos hle]
            refine ⟨hle, ?_, .stream ?_ ?_, ?_⟩
            · rw [visible, List.flatten_cons, List.take_left]
            · rw [List.flatten_cons, List.length_append]
              omega
            · rw [List.flatten_cons, List.drop_left]
            · simp only [weight, List.flatten_cons, List.length_append, List.length_cons]
              omega
          · have hlen : (packet.take k).length = k := List.length_take_of_le (by omega)
            rw [if_neg hle, hlen]
            refine ⟨le_rfl, ?_, .stream ?_ ?_, ?_⟩
            · rw [visible, List.flatten_cons, List.take_append_of_le_length (by omega)]
            · rw [List.flatten_cons, List.length_append]
              omega
            · rw [List.flatten_cons, List.flatten_cons, List.drop_append_of_le_length (by omega)]
            · simp only [weight, List.flatten_cons, List.length_append, List.length_drop,
                List.length_cons]
              omega
  | limited n r ih =>
      rw [read] at h
      split at h
      · cases h
      · rename_i hn
        obtain ⟨⟨bs, next⟩, hread, heq⟩ := Option.map_eq_some_iff.mp h
        cases heq
        obtain ⟨hle, hbs, hmoved, hweight⟩ := ih (by omega) hread
        refine ⟨by omega, ?_, .limited (by omega) hmoved, hweight⟩
        rw [visible, List.take_take, min_eq_left (by omega)]
        exact hbs

/-- `io.ReadFull`, with the bytes that were read and the reader behind them. -/
def fill (r : Source) (k : ℕ) : Bytes × Source :=
  if hk : k = 0 then ([], r)
  else
    match h : r.read k with
    | none => ([], r)
    | some (bs, r') =>
        have := (read_spec (Nat.pos_of_ne_zero hk) h).2.2.2
        (bs ++ (r'.fill (k - bs.length)).1, (r'.fill (k - bs.length)).2)
termination_by r.weight

theorem fill_zero (r : Source) : r.fill 0 = ([], r) := by
  rw [fill, dif_pos rfl]

theorem fill_of_none {r : Source} {k : ℕ} (h : r.read k = none) : r.fill k = ([], r) := by
  rw [fill]
  split
  · rfl
  · split
    · rfl
    · rename_i hsome
      rw [h] at hsome
      cases hsome

theorem fill_of_some {r r' : Source} {k : ℕ} {bs : Bytes} (hk : k ≠ 0)
    (h : r.read k = some (bs, r')) :
    r.fill k = (bs ++ (r'.fill (k - bs.length)).1, (r'.fill (k - bs.length)).2) := by
  rw [fill, dif_neg hk]
  split
  · rename_i hnone
    rw [h] at hnone
    cases hnone
  · rename_i hsome
    rw [h] at hsome
    cases hsome
    rfl

theorem fill_spec (r : Source) (k : ℕ) :
    (r.fill k).1 = r.visible.take k ∧ Moved (min k r.visible.length) r (r.fill k).2 := by
  induction hw : r.weight using Nat.strong_induction_on generalizing r k with
  | _ w ih =>
      by_cases hk : k = 0
      · subst hk
        rw [fill_zero, Nat.zero_min]
        exact ⟨rfl, .refl r⟩
      cases hread : r.read k with
      | none =>
          rw [fill_of_none hread, visible_of_read_none (Nat.pos_of_ne_zero hk) hread,
            List.length_nil, Nat.min_zero, List.take_nil]
          exact ⟨rfl, .refl r⟩
      | some p =>
          obtain ⟨bs, r'⟩ := p
          obtain ⟨hle, hbs, hmoved, hweight⟩ := read_spec (Nat.pos_of_ne_zero hk) hread
          obtain ⟨hrest, hmoved'⟩ := ih _ (hw ▸ hweight) r' (k - bs.length) rfl
          have hlen := hmoved.le_length
          rw [hmoved.visible_eq] at hrest hmoved'
          rw [fill_of_some hk hread, hrest]
          constructor
          · have hk' : bs.length + (k - bs.length) = k := by omega
            rw [← hk', List.take_add, ← hbs, hk']
          · have h := hmoved.trans hmoved'
            rw [List.length_drop] at h
            have hsum : bs.length + min (k - bs.length) (r.visible.length - bs.length) =
                min k r.visible.length := by omega
            rwa [hsum] at h

end Source

end ByteCodec

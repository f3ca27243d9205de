import Amqp091.Algorithm.IntAllocator
import Amqp091.Shared.RoundRobin
import Amqp091.Verification.Registry.Allocator

/-! # The order in which numbers are handed out

The allocator hands out the numbers of its range in turn. Over machine integers it does
the same as over natural numbers, as long as the range leaves room for `follow` to step
behind `high` and for every index to be an `int`. -/

namespace Amqp091

open RoundRobin

/-! ## Over natural numbers -/

namespace Allocator

variable {a b : Allocator} {d : ℤ}

/-- The numbers shifted by `d`. -/
def view (d : ℤ) (a : Allocator) : State where
  low := a.low + d
  high := a.high + d
  follow := a.follow + d
  taken := {m | a.reserved (m - d).toNat = true}

theorem mem_view {m : ℤ} :
    m ∈ (a.view d).taken ↔ a.reserved (m - d).toNat = true :=
  Iff.rfl

theorem hands_advance {n : ℕ} (hlow : a.low ≤ n) (hhigh : n ≤ a.high)
    (hfree : a.reserved n = false)
    (hfirst : ∀ m, a.low ≤ m → m ≤ a.high → Before a.follow m n → a.reserved m = true) :
    (a.view d).Hands (n + d) (view d
      (advance { a with pool := setBit a.pool (n - a.low) true, follow := n })) where
  mem := by
    simp only [view, RoundRobin.State.mem_range]
    omega
  free := by
    rw [mem_view, add_sub_cancel_right, Int.toNat_natCast, hfree]
    decide
  first := by
    intro m hm hbefore
    simp only [view, RoundRobin.State.mem_range, Before] at hm hbefore
    refine hfirst _ (by omega) (by omega) ?_
    unfold Before
    omega
  low_eq := rfl
  high_eq := rfl
  follow_eq := by
    have hiff : (n : ℤ) + d = a.high + d ↔ n = a.high := by omega
    simp only [view, advance, State.succ, hiff]
    split
    · rfl
    · push_cast
      omega
  taken_iff := by
    intro m hm
    simp only [view, RoundRobin.State.mem_range] at hm
    have hset := reserved_setBit (a := a) (m := (m - d).toNat) hlow (by omega) true
    have heq : (m - d).toNat = n ↔ m = n + d := by omega
    have hmem : m ∈ (view d (advance
        { a with pool := setBit a.pool (n - a.low) true, follow := n })).taken ↔
        reserved { a with pool := setBit a.pool (n - a.low) true } (m - d).toNat = true :=
      Iff.rfl
    rw [hmem, hset, mem_view]
    by_cases h : m = n + d
    · simp [h]
    · simp [h, heq]

/-- `next` hands out the first free number in turn, or finds none. -/
theorem next_hands (h : InRange a) (d : ℤ) :
    InRange a.next.1 ∧
    ((∃ n : ℕ, a.next.2 = some n ∧ (a.view d).Hands (n + d) (a.next.1.view d)) ∨
    (a.next.2 = none ∧ (∀ m, a.low ≤ m → m ≤ a.high → a.reserved m = true) ∧
      a.next.1 = { a with follow := a.next.1.follow })) := by
  rcases next_cases h with ⟨n, hle, hle', hfree, hfirst, hnext⟩ | ⟨hall, hnext⟩
  · rw [hnext]
    exact ⟨inRange_advance hle hle', .inl ⟨n, rfl, hands_advance hle hle' hfree hfirst⟩⟩
  · rw [hnext]
    exact ⟨inRange_advance h.low_le h.le_high, .inr ⟨rfl, hall, rfl⟩⟩

end Allocator

/-! ## Over machine integers -/

namespace IntAllocator

variable {a : IntAllocator} {b : Allocator} {d : ℤ} {n : Int64} {k : ℕ}

/-- `a` is `b` shifted by `d`, and its range leaves room at the upper end. -/
structure Represents (d : ℤ) (a : IntAllocator) (b : Allocator) : Prop where
  pool_eq : a.pool = b.pool
  follow_eq : a.follow.toInt = b.follow + d
  low_eq : a.low.toInt = b.low + d
  high_eq : a.high.toInt = b.high + d
  room : b.high + d < 2 ^ 63 - 1
  span : (b.high : ℤ) - b.low ≤ 2 ^ 63 - 1

theorem Represents.index (h : Represents d a b) (hn : n.toInt = k + d) (hlow : b.low ≤ k)
    (hhigh : k ≤ b.high) : a.index n = some (k - b.low) := by
  have hspan := h.span
  have hsub : (n - a.low).toInt = k - b.low := by
    rw [Int64.toInt_sub, hn, h.low_eq, Int.bmod_eq_of_le (by omega) (by omega)]
    omega
  rw [IntAllocator.index, if_pos, hsub]
  · congr 1
    omega
  · rw [Int64.le_iff_toInt_le, hsub, Int64.toInt_zero]
    omega

theorem Represents.reserved (h : Represents d a b) (hn : n.toInt = k + d) (hlow : b.low ≤ k)
    (hhigh : k ≤ b.high) : a.reserved n = some (b.reserved k) := by
  rw [IntAllocator.reserved, h.index hn hlow hhigh, Option.map_some, h.pool_eq]
  rfl

theorem Represents.setBit (h : Represents d a b) (i : ℕ) (v : Bool) :
    Represents d { a with pool := setBit a.pool i v } { b with pool := setBit b.pool i v } :=
  ⟨by rw [h.pool_eq], h.follow_eq, h.low_eq, h.high_eq, h.room, h.span⟩

theorem Represents.follow (h : Represents d a b) (hn : n.toInt = k + d) :
    Represents d { a with follow := n } { b with follow := k } :=
  ⟨h.pool_eq, hn, h.low_eq, h.high_eq, h.room, h.span⟩

theorem Represents.release (h : Represents d a b) (hn : n.toInt = k + d) (hlow : b.low ≤ k)
    (hhigh : k ≤ b.high) : ∃ a', a.release n = some a' ∧ Represents d a' (b.release k) := by
  refine ⟨_, ?_, h.setBit (k - b.low) false⟩
  rw [IntAllocator.release, h.index hn hlow hhigh, Option.map_some]

theorem Represents.toInt_succ (h : Represents d a b) (hn : n.toInt = k + d) (hhigh : k ≤ b.high) :
    (n + 1).toInt = (k + 1 : ℕ) + d := by
  have hroom := h.room
  have hle := n.le_toInt
  have hone : (1 : Int64).toInt = 1 := rfl
  rw [Int64.toInt_add, hone, Int.bmod_eq_of_le (by omega) (by omega), hn]
  omega

/-- A loop that ends before `stop` does not wrap. -/
theorem Represents.search (h : Represents d a b) (more : Int64 → Bool) (stop rounds : ℕ)
    (hmore : ∀ n : Int64, more n = true ↔ n.toInt < stop + d) (hlow : b.low ≤ b.follow)
    (hhigh : stop ≤ b.high + 1) (hstop : b.follow + k = stop) (hrounds : k < rounds) :
    ∃ a', a.search more rounds = .done (a', (b.search k).2) ∧ Represents d a' (b.search k).1 := by
  induction rounds generalizing a b k with
  | zero => omega
  | succ rounds ih =>
      have hfollow := h.follow_eq
      cases k with
      | zero =>
          refine ⟨a, ?_, h⟩
          have hend : more a.follow = false := by
            rw [Bool.eq_false_iff, Ne, hmore]
            omega
          rw [IntAllocator.search, hend]
          rfl
      | succ k =>
          have hgo : more a.follow = true := (hmore _).mpr (by omega)
          have hindex := h.index hfollow hlow (by omega)
          rw [IntAllocator.search, if_pos hgo, IntAllocator.reserve, hindex, Option.map_some]
          cases hres : b.reserved b.follow with
          | true =>
              have hbit : a.pool.testBit (b.follow - b.low) = true := by
                rw [h.pool_eq]
                exact hres
              have hsucc := h.toInt_succ hfollow (by omega)
              rw [hbit, Allocator.search_of_reserved hres]
              exact ih (h.follow hsucc) (Nat.le_succ_of_le hlow) hhigh
                (by simp only; omega) (by omega)
          | false =>
              have hbit : a.pool.testBit (b.follow - b.low) = false := by
                rw [h.pool_eq]
                exact hres
              rw [hbit, Allocator.search_of_free hres]
              exact ⟨_, rfl, h.setBit (b.follow - b.low) true⟩

theorem Represents.advance (h : Represents d a b) (hhigh : b.follow ≤ b.high) :
    Represents d a.advance b.advance := by
  have hiff : a.follow = a.high ↔ b.follow = b.high := by
    rw [← Int64.toInt_inj, h.follow_eq, h.high_eq]
    omega
  unfold IntAllocator.advance Allocator.advance
  by_cases heq : b.follow = b.high
  · rw [if_pos heq, if_pos (hiff.mpr heq)]
    exact h.follow h.low_eq
  · rw [if_neg heq, if_neg (fun ha => heq (hiff.mp ha))]
    exact h.follow (h.toInt_succ h.follow_eq hhigh)

/-- What `next` returns for the number that the search over natural numbers finds. -/
def Returned (d : ℤ) : Option ℕ → Int64 × Bool → Prop
  | some k, result => result.1.toInt = k + d ∧ result.2 = true
  | none, result => result = (0, false)

theorem Represents.next (h : Represents d a b) (hrange : b.InRange) :
    ∃ a' result, a.next = .done (a', result) ∧ Represents d a' b.next.1 ∧
      Returned d b.next.2 result := by
  have hlow := hrange.low_le
  have hhigh := hrange.le_high
  have hroom := h.room
  have hspan := h.span
  obtain ⟨a₁, hfirst, hrep⟩ := h.search (· ≤ a.high) (b.high + 1) (2 ^ 64)
    (fun n => by rw [decide_eq_true_iff, Int64.le_iff_toInt_le, h.high_eq]; omega)
    hlow le_rfl (k := b.high + 1 - b.follow) (by omega) (by omega)
  unfold IntAllocator.next Allocator.next
  rcases Allocator.search_spec (b.high + 1 - b.follow) b with
    ⟨n, hle, hlt, -, -, heq⟩ | ⟨-, heq⟩
  · rw [heq] at hfirst hrep
    simp only [hfirst, heq]
    exact ⟨_, _, rfl, hrep.advance (by simp only; omega), hrep.follow_eq, rfl⟩
  · rw [heq] at hfirst hrep
    obtain ⟨a₂, hsecond, hrep⟩ := (hrep.follow hrep.low_eq).search (· < a.follow) b.follow (2 ^ 64)
      (fun n => by rw [decide_eq_true_iff, Int64.lt_iff_toInt_lt, h.follow_eq])
      le_rfl (by simp only; omega) (k := b.follow - b.low) (by simp only; omega) (by omega)
    simp only [hfirst, heq, hsecond]
    rcases Allocator.search_spec (b.follow - b.low) { b with follow := b.low } with
      ⟨n, hle, hlt, -, -, heq'⟩ | ⟨-, heq'⟩
    · rw [heq'] at hrep
      simp only [heq']
      exact ⟨_, _, rfl, hrep.advance (by simp only at *; omega), hrep.follow_eq, rfl⟩
    · rw [heq'] at hrep
      simp only [heq']
      exact ⟨_, _, rfl, hrep.advance (by simp only; omega), rfl⟩

/-! ## The allocator of a range -/

variable {low high m : Int64}

/-- `a` has the range from `low` to `high`, and `b` counts its numbers from 0 on. -/
structure Tracks (low high : Int64) (a : IntAllocator) (b : Allocator) : Prop where
  represents : Represents low.toInt a b
  inRange : b.InRange
  low_eq : b.low = 0
  high_eq : (b.high : ℤ) = high.toInt - low.toInt

theorem tracks_newAllocator (hle : low ≤ high) (hroom : high < Int64.maxValue)
    (hspan : high.toInt - low.toInt ≤ Int64.maxValue.toInt) :
    Tracks low high (newAllocator low high)
      (Allocator.newAllocator 0 (high.toInt - low.toInt).toNat) := by
  rw [Int64.le_iff_toInt_le] at hle
  rw [Int64.lt_iff_toInt_lt] at hroom
  have hmax : Int64.maxValue.toInt = 2 ^ 63 - 1 := rfl
  have hnat : ((high.toInt - low.toInt).toNat : ℤ) = high.toInt - low.toInt :=
    Int.toNat_of_nonneg (by omega)
  refine ⟨⟨rfl, (zero_add _).symm, (zero_add _).symm, ?_, ?_, ?_⟩, ⟨le_rfl, Nat.zero_le _⟩, rfl,
    hnat⟩
  · simp only [Allocator.newAllocator, newAllocator, hnat]
    omega
  · simp only [Allocator.newAllocator, hnat]
    omega
  · simp only [Allocator.newAllocator, hnat]
    omega

namespace Tracks

theorem mem_range (h : Tracks low high a b) :
    m.toInt ∈ (b.view low.toInt).range ↔ low ≤ m ∧ m ≤ high := by
  have hlow := h.low_eq
  have hhigh := h.high_eq
  simp only [Allocator.view, RoundRobin.State.mem_range, Int64.le_iff_toInt_le]
  omega

theorem reserved (h : Tracks low high a b) (hm : low ≤ m ∧ m ≤ high) :
    a.reserved m = some (b.reserved (m.toInt - low.toInt).toNat) := by
  have hlow := h.low_eq
  have hhigh := h.high_eq
  simp only [Int64.le_iff_toInt_le] at hm
  exact h.represents.reserved (by omega) (by omega) (by omega)

theorem taken_iff (h : Tracks low high a b) (hm : low ≤ m ∧ m ≤ high) :
    m.toInt ∈ (b.view low.toInt).taken ↔ a.reserved m = some true := by
  rw [h.reserved hm, Allocator.mem_view, Option.some_inj]

theorem not_taken_iff (h : Tracks low high a b) (hm : low ≤ m ∧ m ≤ high) :
    m.toInt ∉ (b.view low.toInt).taken ↔ a.reserved m = some false := by
  rw [h.reserved hm, Allocator.mem_view, Option.some_inj, Bool.not_eq_true]

theorem follow_mem (h : Tracks low high a b) : low ≤ a.follow ∧ a.follow ≤ high := by
  have hfollow := h.represents.follow_eq
  have hlow := h.low_eq
  have hhigh := h.high_eq
  have hle := h.inRange.le_high
  simp only [Int64.le_iff_toInt_le]
  omega

theorem release (h : Tracks low high a b) (hm : low ≤ m ∧ m ≤ high) :
    ∃ a' k, a.release m = some a' ∧ Tracks low high a' (b.release k) := by
  have hlow := h.low_eq
  have hhigh := h.high_eq
  simp only [Int64.le_iff_toInt_le] at hm
  obtain ⟨a', hrelease, hrep⟩ := h.represents.release (n := m)
    (k := (m.toInt - low.toInt).toNat) (by omega) (by omega) (by omega)
  exact ⟨a', _, hrelease, hrep, ⟨h.inRange.low_le, h.inRange.le_high⟩, hlow, hhigh⟩

/-- `next` hands out a number, or returns `0, false` from a full range. -/
theorem next (h : Tracks low high a b) :
    ∃ a' b', Tracks low high a' b' ∧
      ((∃ n, a.next = .done (a', n, true) ∧
        (b.view low.toInt).Hands n.toInt (b'.view low.toInt)) ∨
      (a.next = .done (a', 0, false) ∧
        (∀ m, low ≤ m ∧ m ≤ high → a.reserved m = some true) ∧
        ∀ m, low ≤ m ∧ m ≤ high → a'.reserved m = a.reserved m)) := by
  obtain ⟨a', result, hnext, hrep, hreturned⟩ := h.represents.next h.inRange
  obtain ⟨hrange, hcases⟩ := Allocator.next_hands h.inRange low.toInt
  refine ⟨a', b.next.1, ?_⟩
  rcases hcases with ⟨n, hsome, hands⟩ | ⟨hnone, hall, hsame⟩
  · rw [hsome] at hreturned
    obtain ⟨hvalue, htrue⟩ := hreturned
    have hlow : (b.next.1.low : ℤ) + low.toInt = b.low + low.toInt := hands.low_eq
    have hhigh : (b.next.1.high : ℤ) + low.toInt = b.high + low.toInt := hands.high_eq
    have hlow' := h.low_eq
    have hhigh' := h.high_eq
    refine ⟨⟨hrep, hrange, by omega, by omega⟩, .inl ⟨result.1, ?_, ?_⟩⟩
    · rw [hnext, ← htrue]
    · rw [hvalue]
      exact hands
  · rw [hnone] at hreturned
    have hresult : result = (0, false) := hreturned
    have hlow : b.next.1.low = b.low := by rw [hsame]
    have hhigh : b.next.1.high = b.high := by rw [hsame]
    have htracks : Tracks low high a' b.next.1 :=
      ⟨hrep, hrange, hlow.trans h.low_eq, by rw [hhigh, h.high_eq]⟩
    refine ⟨htracks, .inr ⟨by rw [hnext, hresult], fun m hm => ?_, fun m hm => ?_⟩⟩
    · rw [h.reserved hm]
      have hlow' := h.low_eq
      have hhigh' := h.high_eq
      simp only [Int64.le_iff_toInt_le] at hm
      rw [hall _ (by omega) (by omega)]
    · rw [htracks.reserved hm, h.reserved hm, hsame]
      rfl

/-- Every sequence of calls with numbers of the range returns. -/
theorem run (h : Tracks low high a b) (calls : List Call)
    (hcalls : ∀ n, .release n ∈ calls → low ≤ n ∧ n ≤ high) :
    ∃ a' b', a.run calls = some a' ∧ Tracks low high a' b' := by
  induction calls generalizing a b with
  | nil => exact ⟨a, b, rfl, h⟩
  | cons call calls ih =>
      have hrest : ∀ n, .release n ∈ calls → low ≤ n ∧ n ≤ high :=
        fun n hn => hcalls n (List.mem_cons_of_mem _ hn)
      cases call with
      | next =>
          obtain ⟨a', b', htracks, hcases⟩ := h.next
          obtain ⟨a'', b'', hrun, htracks⟩ := ih htracks hrest
          refine ⟨a'', b'', ?_, htracks⟩
          rcases hcases with ⟨n, hnext, -⟩ | ⟨hnext, -⟩
          · simp only [IntAllocator.run, hnext, hrun]
          · simp only [IntAllocator.run, hnext, hrun]
      | release n =>
          obtain ⟨a', k, hrelease, htracks⟩ := h.release (hcalls n List.mem_cons_self)
          obtain ⟨a'', b'', hrun, htracks⟩ := ih htracks hrest
          exact ⟨a'', b'', by simp only [IntAllocator.run, hrelease, Option.bind_some, hrun],
            htracks⟩

theorem before_iff (h : Tracks low high a b) :
    Before (b.view low.toInt).follow m.toInt n.toInt ↔ Before a.follow m n := by
  have hfollow : (b.view low.toInt).follow = a.follow.toInt := h.represents.follow_eq.symm
  simp only [hfollow, Before, Int64.le_iff_toInt_le, Int64.lt_iff_toInt_lt]

theorem reserved_of_hands {a' : IntAllocator} {b' : Allocator} (h : Tracks low high a b)
    (h' : Tracks low high a' b')
    (hands : (b.view low.toInt).Hands n.toInt (b'.view low.toInt)) (hm : low ≤ m ∧ m ≤ high) :
    a'.reserved m = if m = n then some true else a.reserved m := by
  have htaken := hands.taken_iff _ (h.mem_range.mpr hm)
  rw [Allocator.mem_view, Allocator.mem_view, Int64.toInt_inj] at htaken
  rw [h'.reserved hm, h.reserved hm]
  by_cases hmn : m = n
  · rw [if_pos hmn, htaken.mpr (.inl hmn)]
  · rw [if_neg hmn, Option.some_inj, Bool.eq_iff_iff, htaken, or_iff_right hmn]

theorem follow_of_hands {a' : IntAllocator} {b' : Allocator} (h : Tracks low high a b)
    (h' : Tracks low high a' b')
    (hands : (b.view low.toInt).Hands n.toInt (b'.view low.toInt)) :
    a'.follow = if n = high then low else n + 1 := by
  have hfollow : a'.follow.toInt = (b.view low.toInt).succ n.toInt := by
    rw [← hands.follow_eq]
    exact h'.represents.follow_eq
  have hn := h.mem_range.mp hands.mem
  have hlow := h.low_eq
  have hhigh := h.high_eq
  simp only [Int64.le_iff_toInt_le] at hn
  have hiff : n.toInt = b.high + low.toInt ↔ n = high := by
    rw [← Int64.toInt_inj]
    omega
  rw [← Int64.toInt_inj, hfollow]
  simp only [State.succ, Allocator.view, hiff]
  split
  · omega
  · rw [h.represents.toInt_succ (n := n) (k := (n.toInt - low.toInt).toNat) (by omega) (by omega)]
    omega

/-- What calls of `next` in a row reserve is what they return, and they do not pass a
number that stays free. -/
theorem nexts (h : Tracks low high a b) (hn : low ≤ n ∧ n ≤ high)
    (hcaught : n.toInt ∉ (b.view low.toInt).taken → (b.view low.toInt).CaughtUp n.toInt)
    (k : ℕ) :
    ∃ a' b' results, a.nexts k = some (a', results) ∧ Tracks low high a' b' ∧
      (n.toInt ∉ (b'.view low.toInt).taken → (b'.view low.toInt).CaughtUp n.toInt) ∧
      ∀ m, low ≤ m ∧ m ≤ high → a.reserved m = some false →
        a'.reserved m = some false ∨ (m, true) ∈ results := by
  induction k generalizing a b with
  | zero => exact ⟨a, b, [], rfl, h, hcaught, fun m _ hm => .inl hm⟩
  | succ k ih =>
      obtain ⟨a', b', htracks, ⟨x, hnext, hands⟩ | ⟨hnext, hall, hsame⟩⟩ := h.next
      · have hcaught' : n.toInt ∉ (b'.view low.toInt).taken →
            (b'.view low.toInt).CaughtUp n.toInt := by
          intro hfree
          have hfree' : n.toInt ∉ (b.view low.toInt).taken := fun htaken =>
            hfree ((hands.taken_iff _ (h.mem_range.mpr hn)).mpr (.inr htaken))
          have hfollow := h.follow_mem
          rw [← h.mem_range, h.represents.follow_eq] at hfollow
          exact hands.caughtUp hfollow (h.mem_range.mpr hn) hfree' (hcaught hfree')
        obtain ⟨a'', b'', results, hnexts, htracks', hcaught'', hkept⟩ := ih htracks hcaught'
        refine ⟨a'', b'', (x, true) :: results, ?_, htracks', hcaught'', fun m hm hfree => ?_⟩
        · simp only [IntAllocator.nexts, hnext, hnexts, Option.map_some]
        · by_cases hmx : m = x
          · exact .inr (by rw [hmx]; exact List.mem_cons_self)
          · have hstill : a'.reserved m = some false := by
              rw [← htracks.not_taken_iff hm, hands.taken_iff _ (h.mem_range.mpr hm),
                Int64.toInt_inj, or_iff_right hmx, h.not_taken_iff hm]
              exact hfree
            exact (hkept m hm hstill).imp_right (List.mem_cons_of_mem _)
      · -- the range is full: nothing is free, before the call and behind it
        have hcaught' : n.toInt ∉ (b'.view low.toInt).taken →
            (b'.view low.toInt).CaughtUp n.toInt := by
          rw [htracks.not_taken_iff hn, hsame n hn, hall n hn]
          simp
        obtain ⟨a'', b'', results, hnexts, htracks', hcaught'', -⟩ := ih htracks hcaught'
        refine ⟨a'', b'', (0, false) :: results, ?_, htracks', hcaught'', fun m hm hfree => ?_⟩
        · simp only [IntAllocator.nexts, hnext, hnexts, Option.map_some]
        · rw [hall m hm] at hfree
          cases hfree

/-- When `next` returns a number that its turn had not passed, no other one is free. -/
theorem taken_before_again (h : Tracks low high a b)
    (hcaught : n.toInt ∉ (b.view low.toInt).taken → (b.view low.toInt).CaughtUp n.toInt)
    {a' : IntAllocator} (hnext : a.next = .done (a', n, true)) (hm : low ≤ m ∧ m ≤ high)
    (hmn : m ≠ n) : a.reserved m = some true := by
  obtain ⟨a'', b'', -, ⟨x, heq, hands⟩ | ⟨heq, -⟩⟩ := h.next
  · obtain rfl : x = n := by
      rw [hnext] at heq
      cases heq
      rfl
    have hfollow := h.follow_mem
    rw [← h.mem_range, h.represents.follow_eq] at hfollow
    rw [← h.taken_iff hm]
    refine hands.taken_of_caughtUp hfollow (hcaught hands.free) (h.mem_range.mpr hm) ?_
    rwa [Ne, Int64.toInt_inj]
  · rw [hnext] at heq
    cases heq

end Tracks

/-- `next` and `release` on a range of `int`s, in any state that they lead to: the order
in which numbers are handed out, what a call reserves, and when a released number is
returned again. -/
theorem next_in_turn (hle : low ≤ high) (hroom : high < Int64.maxValue)
    (hspan : high.toInt - low.toInt ≤ Int64.maxValue.toInt) (calls : List Call)
    (hcalls : ∀ n, .release n ∈ calls → low ≤ n ∧ n ≤ high) :
    ∃ a, (newAllocator low high).run calls = some a ∧ low ≤ a.follow ∧ a.follow ≤ high ∧
    ((∃ a' n, a.next = .done (a', n, true) ∧ (low ≤ n ∧ n ≤ high) ∧ a.reserved n = some false ∧
      (∀ m, low ≤ m ∧ m ≤ high → Before a.follow m n → a.reserved m = some true) ∧
      (∀ m, low ≤ m ∧ m ≤ high →
        a'.reserved m = if m = n then some true else a.reserved m) ∧
      a'.follow = (if n = high then low else n + 1) ∧
      ∃ a₁, a'.release n = some a₁ ∧ ∀ k, ∃ a₂ results, a₁.nexts k = some (a₂, results) ∧
        ∀ a₃, a₂.next = .done (a₃, n, true) →
          ∀ m, low ≤ m ∧ m ≤ high → m ≠ n → a₁.reserved m = some false →
            (m, true) ∈ results) ∨
    ∃ a', a.next = .done (a', 0, false) ∧
      (∀ m, low ≤ m ∧ m ≤ high → a.reserved m = some true) ∧
      ∀ m, low ≤ m ∧ m ≤ high → a'.reserved m = a.reserved m) := by
  obtain ⟨a, b, hrun, h⟩ := (tracks_newAllocator hle hroom hspan).run calls hcalls
  refine ⟨a, hrun, h.follow_mem.1, h.follow_mem.2, ?_⟩
  obtain ⟨a', b', h', ⟨n, hnext, hands⟩ | ⟨hnext, hall, hsame⟩⟩ := h.next
  · have hn := h.mem_range.mp hands.mem
    refine .inl ⟨a', n, hnext, hn, (h.not_taken_iff hn).mp hands.free, fun m hm hbefore => ?_,
      fun m hm => h.reserved_of_hands h' hands hm, h.follow_of_hands h' hands, ?_⟩
    · rw [← h.taken_iff hm]
      refine hands.first _ (h.mem_range.mpr hm) ?_
      rw [h.before_iff]
      exact hbefore
    · obtain ⟨a₁, k, hrelease, h₁⟩ := h'.release hn
      refine ⟨a₁, hrelease, fun calls => ?_⟩
      have hcaught : ((b'.release k).view low.toInt).CaughtUp n.toInt := by
        refine State.caughtUp_of_follow ?_
        have hsucc : ((b'.release k).view low.toInt).succ n.toInt =
            (b.view low.toInt).succ n.toInt := by
          simp only [State.succ, ← hands.low_eq, ← hands.high_eq]
          rfl
        rw [hsucc, ← hands.follow_eq]
        rfl
      obtain ⟨a₂, b₂, results, hnexts, h₂, hcaught₂, hkept⟩ := h₁.nexts hn (fun _ => hcaught) calls
      refine ⟨a₂, results, hnexts, fun a₃ hagain m hm hmn hfree => ?_⟩
      refine (hkept m hm hfree).resolve_left ?_
      rw [h₂.taken_before_again hcaught₂ hagain hm hmn]
      decide
  · exact .inr ⟨a', hnext, hall, hsame⟩

/-- A range of two numbers, the first of which was taken and released. -/
theorem next_in_turn_of_two :
    ∃ a, (newAllocator 1 2).run [.next, .release 1] = some a ∧ 1 ≤ a.follow ∧ a.follow ≤ 2 := by
  have hle : (1 : Int64) ≤ 2 := by decide
  obtain ⟨a, hrun, hlow, hhigh, -⟩ :=
    next_in_turn hle (by decide) (by decide) [.next, .release 1] (by simp)
  exact ⟨a, hrun, hlow, hhigh⟩

/-- At the upper end of `int`, `follow` wraps and `next` returns a number below the range,
all of which is reserved. On a range wider than an `int`, the index of a number is
negative. -/
theorem next_wraps_at_maxValue :
    (∃ a a', (newAllocator Int64.maxValue Int64.maxValue).run [.next] = some a ∧
      (∀ m, Int64.maxValue ≤ m ∧ m ≤ Int64.maxValue → a.reserved m = some true) ∧
      a.next = .done (a', Int64.minValue, true)) ∧
    (newAllocator Int64.minValue 0).run [.release 0] = none := by
  refine ⟨⟨⟨1, Int64.maxValue, Int64.maxValue, Int64.maxValue⟩,
    ⟨3, Int64.minValue + 1, Int64.maxValue, Int64.maxValue⟩, by decide, ?_, by decide⟩, by decide⟩
  rintro m ⟨hge, hle⟩
  obtain rfl : m = Int64.maxValue := Int64.le_antisymm hle hge
  decide

end IntAllocator

end Amqp091

import Amqp091.Algorithm.NotifyConfirm
import Amqp091.Verification.Confirms.Wrapping

/-! # Counters that do not wrap around

The machines around the resequencer count in natural numbers. A run of such a machine is one
of the 64-bit counters if it publishes fewer than `2 ^ 64` times and the server does not
confirm the largest tag. -/

namespace Amqp091

open KeyMap Transition

namespace Confirms

variable {c : Confirms UInt64}

theorem toNat_resequenceLoop (rounds : ℕ) (h : TagState.InOrder c) :
    resequenceLoop rounds c.toNat = (resequenceLoop rounds c).toNat := by
  induction rounds generalizing c with
  | zero => rfl
  | succ rounds ih =>
      have hiff : c.expecting ≤ c.published ↔ c.toNat.expecting ≤ c.toNat.published :=
        UInt64.le_iff_toNat_le
      rw [resequenceLoop, resequenceLoop, lookup_toNat]
      by_cases hle : c.expecting ≤ c.published
      · rw [if_pos hle, if_pos (hiff.mp hle)]
        cases hfound : c.sequencer.lookup c.expecting with
        | none => rfl
        | some sequenced =>
            obtain ⟨htag, hne⟩ := h.stored _ _ hfound
            obtain ⟨tag, ack⟩ := sequenced
            cases htag
            have hconfirm := toNat_confirm (ne_lastTag_iff.mp hne) ⟨c.expecting, ack⟩
            exact (congrArg (resequenceLoop rounds) hconfirm).trans (ih (h.confirm hne ack))
      · rw [if_neg hle, if_neg fun hle' => hle (hiff.mpr hle')]

theorem toNat_resequence (h : TagState.InOrder c) : c.toNat.resequence = c.resequence.toNat := by
  rw [resequence, resequence, show c.toNat.sequencer.keys.length = c.sequencer.keys.length from
    length_keys_rename toNat_injective c.sequencer]
  exact toNat_resequenceLoop _ h

end Confirms

/-! ## The two resequencers -/

/-- The resequencer of `TagState` with counters that do not wrap around. -/
structure CountState where
  confirms : Confirms ℕ
  busy : Bool

namespace CountState

def next (s : CountState) : TagAction → Option CountState
  | .listen => if s.busy then none else some { s with confirms := s.confirms.listen }
  | .publish => some { s with confirms := s.confirms.publish.1 }
  | .unpublish => some { s with confirms := s.confirms.unpublish }
  | .confirm e => if s.busy then none else (e.toNat.head s.confirms).map fun c => ⟨c, true⟩
  | .resequence => if s.busy then some ⟨s.confirms.resequence, false⟩ else none
  | .close => if s.busy then none else some { s with confirms := s.confirms.close }

/-- No call takes back what was not counted, and none confirms the largest tag. -/
def Unwrapped (s : CountState) : TagAction → Prop
  | .unpublish => s.confirms.published ≠ 0
  | .confirm e => e.deliveryTag ≠ lastTag
  | _ => True

/-- Only a publish counts up. -/
theorem published_next {s s' : CountState} {a : TagAction} (h : s.next a = some s') :
    s'.confirms.published ≤ s.confirms.published + if a == .publish then 1 else 0 := by
  cases a with
  | publish =>
      cases h
      exact le_rfl
  | unpublish =>
      cases h
      exact Nat.sub_le _ 1
  | confirm e =>
      obtain ⟨-, h⟩ := Option.ite_none_left_eq_some.mp h
      obtain ⟨c, hhead, rfl⟩ := Option.map_eq_some_iff.mp h
      exact (ServerConfirm.head_deferred hhead).2.le
  | resequence =>
      obtain ⟨-, h⟩ := Option.ite_none_right_eq_some.mp h
      cases h
      exact (Confirms.resequence_deferred s.confirms).2.le
  | listen | close =>
      obtain ⟨-, h⟩ := Option.ite_none_left_eq_some.mp h
      cases h
      exact le_rfl

end CountState

namespace TagState

def toNat (t : TagState) : CountState := ⟨t.confirms.toNat, t.busy⟩

/-- A call has the same effect on both, as long as the counter is not at its end. -/
theorem toNat_next {t : TagState} {a : TagAction} (horder : InOrder t.confirms)
    (hguard : t.toNat.Unwrapped a) (hpublish : a = .publish → t.confirms.published ≠ lastTag) :
    t.toNat.next a = (t.next a).map toNat := by
  cases a with
  | publish =>
      have hlt := Confirms.ne_lastTag_iff.mp (hpublish rfl)
      simp [CountState.next, next, toNat, Confirms.toNat_publish hlt]
  | unpublish => simp [CountState.next, next, toNat, Confirms.toNat_unpublish hguard]
  | confirm e =>
      have hhead := TagConfirm.toNat_head (Confirms.ne_lastTag_iff.mp hguard) t.confirms
      simp only [CountState.next, next, toNat, hhead]
      split
      · rfl
      · rw [Option.map_map, Option.map_map]
        rfl
  | listen =>
      simp only [CountState.next, next, toNat, Confirms.toNat_listen]
      split <;> rfl
  | resequence =>
      simp only [CountState.next, next, toNat, Confirms.toNat_resequence horder]
      split <;> rfl
  | close =>
      simp only [CountState.next, next, toNat, Confirms.toNat_close]
      split <;> rfl

/-- With fewer than `2 ^ 64` publishes the two resequencers have the same runs. -/
theorem run_toNat_iff {t : TagState} {as : List TagAction} {s : CountState}
    (horder : InOrder t.confirms)
    (hcount : t.confirms.published.toNat + as.count .publish < 2 ^ 64) :
    Run CountState.next CountState.Unwrapped t.toNat as s ↔
      ∃ t', Run next (fun t => t.toNat.Unwrapped) t as t' ∧ t'.toNat = s := by
  induction as generalizing t with
  | nil => simp [Run.nil_iff, eq_comm]
  | cons a as ih =>
      rw [List.count_cons] at hcount
      have hpublish : a = .publish → t.confirms.published ≠ lastTag := by
        rintro rfl
        rw [Confirms.ne_lastTag_iff]
        rw [if_pos (beq_self_eq_true _)] at hcount
        omega
      have hrest : t.toNat.Unwrapped a → ∀ m, t.next a = some m →
          (Run CountState.next CountState.Unwrapped m.toNat as s ↔
            ∃ t', Run next (fun t => t.toNat.Unwrapped) m as t' ∧ t'.toNat = s) := by
        intro hguard m hm
        apply ih
        · apply inOrder_next horder _ hm
          rintro e rfl
          exact hguard
        · have hnext := toNat_next horder hguard hpublish
          rw [hm] at hnext
          have hle : m.confirms.published.toNat ≤ _ := CountState.published_next hnext
          have hvalue : t.toNat.confirms.published = t.confirms.published.toNat := rfl
          omega
      simp only [Run.cons_iff]
      constructor
      · rintro ⟨hguard, d, hd, hrun⟩
        rw [toNat_next horder hguard hpublish] at hd
        obtain ⟨m, hm, rfl⟩ := Option.map_eq_some_iff.mp hd
        obtain ⟨t', hrun', rfl⟩ := (hrest hguard m hm).mp hrun
        exact ⟨t', ⟨hguard, m, hm, hrun'⟩, rfl⟩
      · rintro ⟨t', ⟨hguard, m, hm, hrun⟩, rfl⟩
        refine ⟨hguard, m.toNat, ?_, (hrest hguard m hm).mpr ⟨t', hrun, rfl⟩⟩
        rw [toNat_next horder hguard hpublish, hm]
        rfl

/-- A machine whose resequencer counts in natural numbers, each action of which makes at most
one call, is one of the 64-bit counters while it publishes fewer than `2 ^ 64` times. -/
theorem counters_of_run {σ α : Type} {next' : σ → α → Option σ} {guard : σ → α → Prop}
    {call : σ → α → Option TagAction} {s s' : σ} {as : List α} {t : TagState}
    (view : σ → CountState) (isPublish : α → Bool) (Inv : σ → Prop)
    (h : Run next' guard s as s') (hinit : Inv s)
    (hinv : ∀ s a s', Inv s → guard s a → next' s a = some s' → Inv s')
    (hstep : ∀ s a s', a ∈ as → Inv s → guard s a → next' s a = some s' →
      Run CountState.next CountState.Unwrapped (view s) (call s a).toList (view s'))
    (hpublish : ∀ s a, call s a = some .publish → isPublish a = true)
    (horder : InOrder t.confirms) (hview : view s = t.toNat) (hnew : t.confirms.published = 0)
    (hcount : as.countP isPublish < 2 ^ 64) :
    ∃ t', Run next (fun t => t.toNat.Unwrapped) t (trace next' call s as) t' ∧
      view s' = t'.toNat := by
  have hrun := h.traced hinit hinv hstep
  rw [hview] at hrun
  have hle : (trace next' call s as).count .publish ≤ as.countP isPublish := by
    apply countP_trace_le
    intro s a b hb heq
    rw [eq_of_beq heq] at hb
    exact hpublish s a hb
  have hfew : t.confirms.published.toNat + (trace next' call s as).count .publish < 2 ^ 64 := by
    rw [hnew, UInt64.toNat_zero, Nat.zero_add]
    exact Nat.lt_of_le_of_lt hle hcount
  obtain ⟨t', hrun', heq⟩ := (run_toNat_iff horder hfew).mp hrun
  exact ⟨t', hrun', heq.symm⟩

end TagState

/-! ## The machines -/

/-- The confirmation with the tag as the wire has it. -/
def ServerConfirm.toTags : ServerConfirm → TagConfirm
  | one confirmed => .one ⟨.ofNat confirmed.deliveryTag, confirmed.ack⟩
  | multiple confirmed => .multiple ⟨.ofNat confirmed.deliveryTag, confirmed.ack⟩

theorem ServerConfirm.deliveryTag_toTags (e : ServerConfirm) :
    e.toTags.deliveryTag = .ofNat e.confirmed.deliveryTag := by
  cases e <;> rfl

theorem ServerConfirm.toNat_toTags {e : ServerConfirm} (h : e.confirmed.deliveryTag < 2 ^ 64) :
    e.toTags.toNat = e := by
  have hvalue := UInt64.toNat_ofNat_of_lt' h
  cases e with
  | one confirmed => exact congrArg (fun tag => one ⟨tag, confirmed.ack⟩) hvalue
  | multiple confirmed => exact congrArg (fun tag => multiple ⟨tag, confirmed.ack⟩) hvalue

/-- A confirmation below the largest tag, as a call of the resequencer. -/
theorem CountState.confirm_toTags {s : CountState} {e : ServerConfirm} {c : Confirms ℕ}
    (h : e.confirmed.deliveryTag < 2 ^ 64 - 1) (hbusy : s.busy = false)
    (hhead : e.head s.confirms = some c) :
    Run next Unwrapped s [.confirm e.toTags] ⟨c, true⟩ := by
  have hvalue := UInt64.toNat_ofNat_of_lt' (Nat.lt_of_lt_of_le h (Nat.sub_le _ 1))
  refine .cons ?_ ?_ (.nil _)
  · have hne : e.toTags.deliveryTag ≠ lastTag := by
      rw [ServerConfirm.deliveryTag_toTags, Confirms.ne_lastTag_iff, hvalue]
      exact h
    exact hne
  · rw [next, ServerConfirm.toNat_toTags (by omega), hbusy, hhead]
    rfl

def ConfirmAction.isPublish : ConfirmAction → Bool
  | .publish => true
  | _ => false

/-- The call of the resequencer that an action makes. -/
def ConfirmAction.call : ConfirmAction → TagAction
  | .listen => .listen
  | .publish => .publish
  | .confirm e => .confirm e.toTags
  | .resequence => .resequence

theorem ConfirmAction.isPublish_of_call {a : ConfirmAction} (h : a.call = .publish) :
    a.isPublish = true := by
  cases a with
  | publish => rfl
  | _ => cases h

/-- A new resequencer on 64-bit tags with `n` listeners. -/
def TagState.listening (n : ℕ) : TagState :=
  ⟨{ Confirms.newConfirms with listeners := List.replicate n [] }, false⟩

theorem TagState.inOrder_listening (n : ℕ) : InOrder (listening n).confirms where
  listeners := by
    intro log hlog
    rw [List.eq_of_mem_replicate hlog]
    exact consecutive_nil _
  closed := by simp [listening, Confirms.newConfirms]
  stored := by simp [listening, Confirms.newConfirms]

namespace ConfirmState

def count (s : ConfirmState) : CountState := ⟨s.confirms, s.busy⟩

theorem count_start (n : ℕ) : (start n).count = (TagState.listening n).toNat := by
  simp [start, count, TagState.toNat, TagState.listening, Confirms.toNat,
    ← Confirms.toNat_newConfirms]

theorem count_next {s s' : ConfirmState} {a : ConfirmAction} (h : s.next a = some s')
    (htag : ∀ e, a = .confirm e → e.confirmed.deliveryTag < 2 ^ 64 - 1) :
    Run CountState.next CountState.Unwrapped s.count [a.call] s'.count := by
  rcases next_cases h with ⟨rfl, hbusy, rfl⟩ | ⟨rfl, rfl⟩ | ⟨e, c, rfl, hbusy, hhead, rfl⟩ |
    ⟨rfl, hbusy, rfl⟩
  · exact .cons trivial (by simp [CountState.next, ConfirmAction.call, count, hbusy]) (.nil _)
  · exact .cons trivial rfl (.nil _)
  · exact CountState.confirm_toTags (htag e rfl) hbusy hhead
  · exact .cons trivial (by simp [CountState.next, ConfirmAction.call, count, hbusy]) (.nil _)

/-- Publishing and confirming with counters of 64 bits. -/
theorem counters {n : ℕ} {as : List ConfirmAction} {s : ConfirmState}
    {guard : ConfirmState → ConfirmAction → Prop} (h : Run next guard (start n) as s)
    (htags : ∀ e, .confirm e ∈ as → e.confirmed.deliveryTag < 2 ^ 64 - 1)
    (hcount : as.countP ConfirmAction.isPublish < 2 ^ 64) :
    ∃ t, Run TagState.next (fun t => t.toNat.Unwrapped) (.listening n)
        (trace next (fun _ a => some a.call) (start n) as) t ∧
      s.count = t.toNat := by
  apply TagState.counters_of_run count ConfirmAction.isPublish (fun _ => True) h trivial
  · exact fun _ _ _ _ _ _ => trivial
  · intro s a s' ha _ _ hnext
    apply count_next hnext
    rintro e rfl
    exact htags e ha
  · intro s a ha
    exact ConfirmAction.isPublish_of_call (Option.some.inj ha)
  · exact TagState.inOrder_listening n
  · exact count_start n
  · rfl
  · exact hcount

end ConfirmState

namespace NotifyConfirm

def Action.isPublish : Action → Bool
  | .confirms a => a.isPublish
  | _ => false

/-- The call of the resequencer that an action makes. -/
def Action.call : Action → Option TagAction
  | .confirms a => some a.call
  | .close => some .close
  | .notifier _ => none

/-- The goroutine of `NotifyConfirm` next to counters of 64 bits. -/
theorem counters {shared : Bool} {ackCapacity nackCapacity : ℕ} {as : List Action}
    {s : NotifyConfirm} {guard : NotifyConfirm → Action → Prop}
    (h : Run next guard (start shared ackCapacity nackCapacity) as s)
    (htags : ∀ e, .confirms (.confirm e) ∈ as → e.confirmed.deliveryTag < 2 ^ 64 - 1)
    (hcount : as.countP Action.isPublish < 2 ^ 64) :
    ∃ t, Run TagState.next (fun t => t.toNat.Unwrapped) (.listening 1)
        (trace next (fun _ a => a.call) (start shared ackCapacity nackCapacity) as) t ∧
      s.confirms.count = t.toNat := by
  apply TagState.counters_of_run (fun s => s.confirms.count) Action.isPublish (fun _ => True) h
    trivial
  · exact fun _ _ _ _ _ _ => trivial
  · intro s a s' ha _ _ hnext
    cases a with
    | confirms a =>
        obtain ⟨confirms, hconfirms, rfl⟩ := Option.map_eq_some_iff.mp hnext
        apply ConfirmState.count_next hconfirms
        rintro e rfl
        exact htags e ha
    | close =>
        obtain ⟨⟨hbusy, -⟩, hclose⟩ := Option.ite_none_right_eq_some.mp hnext
        cases hclose
        exact .cons trivial (by simp [CountState.next, ConfirmState.count, hbusy]) (.nil _)
    | notifier a =>
        obtain ⟨notifier, -, rfl⟩ := Option.map_eq_some_iff.mp hnext
        exact .nil _
  · intro s a ha
    cases a with
    | confirms a => exact ConfirmAction.isPublish_of_call (Option.some.inj ha)
    | close | notifier => cases ha
  · exact TagState.inOrder_listening 1
  · exact ConfirmState.count_start 1
  · rfl
  · exact hcount

end NotifyConfirm

end Amqp091

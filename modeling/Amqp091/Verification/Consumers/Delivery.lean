import Amqp091.Algorithm.Consumers
import Amqp091.Shared.Positions
import Amqp091.Shared.Transition

/-! # Deliveries reach their consumer once and in order -/

namespace Amqp091

open ByteCodec Channels Positions Transition

variable {δ : Type}

/-! ## One consumer -/

namespace Consumer

/-- What holds of a consumer between two steps. `closed` says whether `close` was called,
`pending` is the delivery that a `send` in progress wants to hand over. -/
structure Valid (closed : Bool) (pending : List δ) (c : Consumer δ) : Prop where
  passed : c.passed = c.output.sent ++ c.queue ++ pending
  taken : c.taken ≤ c.output.sent.length
  capacity : c.output.sent.length ≤ c.taken + c.capacity
  range : c.point = .range → c.queue = []
  inflight : c.inflight = false → c.input.isClosed = true
  ended : c.point ≠ .range → c.point ≠ .select →
    closed = true ∨ c.input.isClosed = true ∧ c.queue = []
  input : c.input.Safe
  output : c.output.Safe
  outputOpen : c.point ≠ .returned → c.output.isClosed = false

variable {closed : Bool} {pending : List δ} {c c' : Consumer δ}

theorem Valid.new (tag : Bytes) (capacity : ℕ) :
    Valid closed [] ({ tag := tag, capacity := capacity } : Consumer δ) where
  passed := rfl
  taken := le_rfl
  capacity := Nat.zero_le _
  range := fun _ => rfl
  inflight := fun h => nomatch h
  ended := fun h => absurd rfl h
  input := Chan.safe_empty
  output := Chan.safe_empty
  outputOpen := fun _ => rfl

theorem Valid.closeInput (h : c.Valid closed pending) (hopen : c.input.isClosed = false) :
    c.closeInput.Valid closed pending where
  passed := h.passed
  taken := h.taken
  capacity := h.capacity
  range := h.range
  inflight := fun _ => rfl
  ended := fun hrange hselect => (h.ended hrange hselect).imp_right fun h => ⟨rfl, h.2⟩
  input := h.input.close hopen
  output := h.output
  outputOpen := h.outputOpen

theorem Valid.setClosed (h : c.Valid closed pending) : c.Valid true pending :=
  { h with ended := fun _ _ => .inl rfl }

theorem Valid.pass (h : c.Valid closed []) (delivery : δ) :
    Valid closed [delivery] { c with passed := c.passed ++ [delivery] } :=
  { h with passed := by rw [h.passed, List.append_nil] }

/-- Until `close` is called, a goroutine whose input is open waits for the next delivery. -/
theorem Valid.accepting (h : c.Valid false pending) (hopen : c.input.isClosed = false) :
    c.accepting = true := by
  rw [Consumer.accepting]
  cases hpoint : c.point with
  | range => rfl
  | select =>
      cases hinflight : c.inflight with
      | true => rfl
      | false =>
          rw [h.inflight hinflight] at hopen
          cases hopen
  | done | closeOut | returned =>
      rcases h.ended (by simp [hpoint]) (by simp [hpoint]) with hclosed | ⟨hclosed, -⟩
      · cases hclosed
      · rw [hclosed] at hopen
        cases hopen

theorem not_returned_of_accepting (h : c.accepting = true) : c.point ≠ .returned := by
  intro hpoint
  simp [accepting, hpoint] at h

theorem Valid.accept {delivery : δ} (h : c.Valid closed [delivery])
    (hopen : c.input.isClosed = false) (haccepting : c.accepting = true) :
    (c.accept delivery).Valid closed [] where
  passed := by simp [Consumer.accept, h.passed]
  taken := h.taken
  capacity := h.capacity
  range := fun h => nomatch h
  inflight := by
    intro hinflight
    rw [h.inflight hinflight] at hopen
    cases hopen
  ended := fun _ hselect => absurd rfl hselect
  input := h.input.send hopen
  output := h.output
  outputOpen := fun _ => h.outputOpen (not_returned_of_accepting haccepting)

/-- A delivery leaves the queue at its head. `taken` receivers have been served then. -/
theorem Valid.emit (h : c.Valid closed pending) (hselect : c.point = .select)
    (hemit : c.emit = some c') {taken : ℕ} (htaken : taken ≤ c.output.sent.length + 1)
    (hroom : c.output.sent.length + 1 ≤ taken + c.capacity) :
    Valid closed pending { c' with taken := taken } := by
  have hopen : c.output.isClosed = false := h.outputOpen (by simp [hselect])
  have hpassed := h.passed
  rw [Consumer.emit] at hemit
  cases hqueue : c.queue with
  | nil => simp [hqueue] at hemit
  | cons delivery queue =>
      simp only [hqueue, Option.some.injEq] at hemit
      subst hemit
      have hsent := Chan.send_of_open (x := delivery) hopen
      refine ⟨?_, ?_, ?_, ?_, h.inflight, ?_, h.input, h.output.send hopen, ?_⟩
      · simp [hsent, hpassed, hqueue]
      · simpa [hsent] using htaken
      · simpa [hsent] using hroom
      · intro hpoint
        cases queue with
        | nil => rfl
        | cons => cases hpoint
      · intro hrange hselect
        cases queue with
        | nil => exact absurd rfl hrange
        | cons => exact absurd rfl hselect
      · intro _
        simpa using hopen

theorem emit_frame (h : c.emit = some c') :
    c'.input = c.input ∧ c'.tag = c.tag ∧ c'.taken = c.taken := by
  rw [emit] at h
  split at h
  · cases h
  · cases h
    exact ⟨rfl, rfl, rfl⟩

/-- A step of the goroutine or of a receiver. -/
theorem Valid.step {a : Step} (h : c.Valid closed pending) (hstep : c.step closed a = some c') :
    c'.Valid closed pending := by
  cases a with
  | rangeClosed =>
      obtain ⟨⟨hrange, hclosed⟩, ⟨⟩⟩ := Option.ite_none_right_eq_some.mp hstep
      exact { h with
        range := fun h => nomatch h
        ended := fun _ _ => .inr ⟨hclosed, h.range hrange⟩
        outputOpen := fun _ => h.outputOpen (by simp [hrange]) }
  | selectClosed =>
      obtain ⟨⟨hselect, hclosed⟩, ⟨⟩⟩ := Option.ite_none_right_eq_some.mp hstep
      exact { h with
        range := fun h => nomatch h
        ended := fun _ _ => .inl hclosed
        outputOpen := fun _ => h.outputOpen (by simp [hselect]) }
  | selectInflight =>
      obtain ⟨⟨-, -, hclosed⟩, ⟨⟩⟩ := Option.ite_none_right_eq_some.mp hstep
      exact { h with inflight := fun _ => hclosed }
  | push =>
      obtain ⟨⟨hselect, hroom⟩, hemit⟩ := Option.ite_none_right_eq_some.mp hstep
      obtain ⟨-, -, htaken⟩ := emit_frame hemit
      have hvalid := h.emit hselect hemit (h.taken.trans (Nat.le_succ _))
        (Nat.succ_le_of_lt hroom)
      rwa [← htaken] at hvalid
  | handOver =>
      obtain ⟨⟨hselect, hdrained⟩, hmap⟩ := Option.ite_none_right_eq_some.mp hstep
      obtain ⟨c₁, hemit, rfl⟩ := Option.map_eq_some_iff.mp hmap
      obtain ⟨-, -, htaken⟩ := emit_frame hemit
      rw [htaken, ← hdrained]
      exact h.emit hselect hemit le_rfl (Nat.le_add_right _ _)
  | done =>
      obtain ⟨hdone, ⟨⟩⟩ := Option.ite_none_right_eq_some.mp hstep
      exact { h with
        range := fun h => nomatch h
        ended := fun _ _ => h.ended (by simp [hdone]) (by simp [hdone])
        outputOpen := fun _ => h.outputOpen (by simp [hdone]) }
  | closeOut =>
      obtain ⟨hpoint, ⟨⟩⟩ := Option.ite_none_right_eq_some.mp hstep
      exact { h with
        range := fun h => nomatch h
        ended := fun _ _ => h.ended (by simp [hpoint]) (by simp [hpoint])
        output := h.output.close (h.outputOpen (by simp [hpoint]))
        outputOpen := fun h => absurd rfl h }
  | receive =>
      obtain ⟨hlt, ⟨⟩⟩ := Option.ite_none_right_eq_some.mp hstep
      exact { h with
        taken := hlt
        capacity := h.capacity.trans (by simp) }

theorem step_frame {a : Step} (h : c.step closed a = some c') :
    c'.input = c.input ∧ c'.tag = c.tag := by
  cases a with
  | push =>
      obtain ⟨hinput, htag, -⟩ := emit_frame (Option.ite_none_right_eq_some.mp h).2
      exact ⟨hinput, htag⟩
  | handOver =>
      obtain ⟨c₁, hemit, rfl⟩ := Option.map_eq_some_iff.mp (Option.ite_none_right_eq_some.mp h).2
      obtain ⟨hinput, htag, -⟩ := emit_frame hemit
      exact ⟨hinput, htag⟩
  | _ =>
      obtain ⟨-, ⟨⟩⟩ := Option.ite_none_right_eq_some.mp h
      exact ⟨rfl, rfl⟩

end Consumer

/-! ## All consumers of a channel -/

namespace Consumers

/-- The delivery a `send` in progress wants to hand to consumer `i`. -/
def pending (subs : Consumers δ) (i : ℕ) : List δ :=
  match subs.mutex with
  | some (.send j delivery) => if i = j then [delivery] else []
  | _ => []

/-- The inputs that are open are those in the map. -/
structure Valid (subs : Consumers δ) : Prop where
  consumer : ∀ (i : ℕ) (c : Consumer δ), subs.consumers[i]? = some c →
    c.Valid subs.closed (subs.pending i)
  registered : ∀ i c, subs.consumers[i]? = some c →
    (subs.chans.lookup c.tag = some i ↔ c.input.isClosed = false)
  chans : ∀ tag i, subs.chans.lookup tag = some i →
    ∃ c, subs.consumers[i]? = some c ∧ c.tag = tag
  sending : ∀ i delivery, subs.mutex = some (.send i delivery) →
    ∃ c, subs.consumers[i]? = some c ∧ c.input.isClosed = false

variable {subs subs' : Consumers δ}

theorem pending_of_not_sending (h : ∀ i delivery, subs.mutex ≠ some (.send i delivery)) (i : ℕ) :
    subs.pending i = [] := by
  rw [pending]
  split
  · rename_i hmutex
    exact absurd hmutex (h _ _)
  · rfl

/-- A consumer in the map has an open input. -/
theorem Valid.open_of_lookup (h : subs.Valid) {tag : Bytes} {i : ℕ}
    (hi : subs.chans.lookup tag = some i) :
    ∃ c, subs.consumers[i]? = some c ∧ c.tag = tag ∧ c.input.isClosed = false := by
  obtain ⟨c, hc, rfl⟩ := h.chans tag i hi
  exact ⟨c, hc, rfl, (h.registered i c hc).mp hi⟩

theorem Valid.remove (h : subs.Valid) {tag : Bytes} {i : ℕ}
    (hfree : ∀ i delivery, subs.mutex ≠ some (.send i delivery))
    (hi : subs.chans.lookup tag = some i) : (subs.remove tag i).Valid := by
  obtain ⟨ci, hci, rfl, hopen⟩ := h.open_of_lookup hi
  have hget : ∀ j c, (subs.remove ci.tag i).consumers[j]? = some c →
      ∃ c₀, subs.consumers[j]? = some c₀ ∧ c = if i = j then c₀.closeInput else c₀ := by
    intro j c hc
    rw [Consumers.remove, List.getElem?_modify] at hc
    obtain ⟨c₀, hc₀, rfl⟩ := Option.map_eq_some_iff.mp hc
    exact ⟨c₀, hc₀, rfl⟩
  refine ⟨?_, ?_, ?_, fun i delivery hmutex => absurd hmutex (hfree i delivery)⟩
  · intro j c hc
    obtain ⟨c₀, hc₀, rfl⟩ := hget j c hc
    have hvalid := h.consumer j c₀ hc₀
    split
    · rename_i hij
      subst hij
      rw [hci] at hc₀
      cases hc₀
      exact hvalid.closeInput hopen
    · exact hvalid
  · intro j c hc
    obtain ⟨c₀, hc₀, rfl⟩ := hget j c hc
    by_cases hij : i = j
    · subst hij
      rw [hci] at hc₀
      cases hc₀
      rw [if_pos rfl, Consumers.remove, Consumer.closeInput]
      simp [AList.lookup_erase]
    · have hregistered := h.registered j c₀ hc₀
      rw [if_neg hij, ← hregistered]
      by_cases htag : c₀.tag = ci.tag
      · rw [htag, hi]
        simp [Consumers.remove, AList.lookup_erase, hij]
      · rw [Consumers.remove, AList.lookup_erase_ne htag]
  · intro tag' j hj
    by_cases htag : tag' = ci.tag
    · subst htag
      simp [Consumers.remove, AList.lookup_erase] at hj
    · rw [Consumers.remove, AList.lookup_erase_ne htag] at hj
      obtain ⟨c, hc, rfl⟩ := h.chans tag' j hj
      refine ⟨if i = j then c.closeInput else c, ?_, ?_⟩
      · simp [Consumers.remove, List.getElem?_modify, hc]
      · split <;> rfl

/-- Registering a new consumer under a tag that is not in use. -/
theorem Valid.register (h : subs.Valid) {tag : Bytes} (capacity waitGroup : ℕ)
    (hfree : ∀ i delivery, subs.mutex ≠ some (.send i delivery))
    (hnone : subs.chans.lookup tag = none) :
    Valid { subs with
      chans := subs.chans.insert tag subs.consumers.length
      consumers := subs.consumers ++ [{ tag := tag, capacity := capacity }]
      waitGroup := waitGroup } := by
  have hlt : ∀ {j : ℕ} {c : Consumer δ}, subs.consumers[j]? = some c →
      j < subs.consumers.length := fun hc => (List.getElem?_eq_some_iff.mp hc).1
  have hget : ∀ j c, (subs.consumers ++ [{ tag := tag, capacity := capacity }])[j]? = some c →
      subs.consumers[j]? = some c ∨
        j = subs.consumers.length ∧ c = { tag := tag, capacity := capacity } :=
    fun j c => getElem?_concat_cases
  refine ⟨?_, ?_, ?_, fun i delivery hmutex => absurd hmutex (hfree i delivery)⟩
  · intro j c hc
    rcases hget j c hc with hc | ⟨-, rfl⟩
    · exact h.consumer j c hc
    · have hpending := pending_of_not_sending hfree j
      rw [pending] at hpending ⊢
      rw [hpending]
      exact .new tag capacity
  · intro j c hc
    rcases hget j c hc with hc | ⟨rfl, rfl⟩
    · rw [← h.registered j c hc]
      by_cases htag : c.tag = tag
      · rw [htag, AList.lookup_insert, hnone]
        simp [Nat.ne_of_gt (hlt hc)]
      · rw [AList.lookup_insert_ne htag]
    · simp [AList.lookup_insert, Chan.isClosed]
  · intro tag' j hj
    by_cases htag : tag' = tag
    · subst htag
      rw [AList.lookup_insert] at hj
      cases hj
      exact ⟨_, List.getElem?_concat_length, rfl⟩
    · rw [AList.lookup_insert_ne htag] at hj
      obtain ⟨c, hc, hctag⟩ := h.chans tag' j hj
      exact ⟨c, by rw [List.getElem?_append_left (hlt hc), hc], hctag⟩

/-- A tag that is in use is freed first. -/
theorem add_eq (subs : Consumers δ) (tag : Bytes) (capacity : ℕ) :
    subs.add tag capacity =
      { (subs.cancel tag).1 with
        chans := (subs.cancel tag).1.chans.insert tag (subs.cancel tag).1.consumers.length
        consumers := (subs.cancel tag).1.consumers ++ [{ tag := tag, capacity := capacity }]
        waitGroup := subs.waitGroup + 1 } := by
  have hinsert : ∀ n, (subs.chans.erase tag).insert tag n = subs.chans.insert tag n := by
    intro n
    apply AList.ext
    exact congrArg (List.cons (⟨tag, n⟩ : Sigma fun _ : Bytes => ℕ))
      (List.kerase_of_notMem_keys (List.notMem_keys_kerase tag subs.chans.nodupKeys))
  cases hlookup : subs.chans.lookup tag with
  | none => simp only [add, cancel, hlookup]
  | some i => simp only [add, cancel, hlookup, remove, hinsert]

theorem cancel_mutex (subs : Consumers δ) (tag : Bytes) :
    (subs.cancel tag).1.mutex = subs.mutex := by
  rw [cancel]
  split <;> rfl

theorem lookup_cancel (subs : Consumers δ) (tag : Bytes) :
    (subs.cancel tag).1.chans.lookup tag = none := by
  rw [cancel]
  split
  · exact AList.lookup_erase _ _
  · assumption

theorem Valid.cancel (h : subs.Valid) (tag : Bytes)
    (hfree : ∀ i delivery, subs.mutex ≠ some (.send i delivery)) : (subs.cancel tag).1.Valid := by
  rw [Consumers.cancel]
  split
  · rename_i hi
    exact h.remove hfree hi
  · exact h

theorem Valid.add (h : subs.Valid) (tag : Bytes) (capacity : ℕ)
    (hfree : ∀ i delivery, subs.mutex ≠ some (.send i delivery)) :
    (subs.add tag capacity).Valid := by
  rw [add_eq]
  apply (h.cancel tag hfree).register
  · rwa [cancel_mutex]
  · exact lookup_cancel subs tag

/-- The loop of `close` over the entries of the map. -/
theorem Valid.removeAll (l : List (Sigma fun _ : Bytes => ℕ)) (hnodup : l.NodupKeys)
    (h : subs.Valid) (hfree : ∀ i delivery, subs.mutex ≠ some (.send i delivery))
    (hl : ∀ e ∈ l, subs.chans.lookup e.1 = some e.2) :
    (l.foldl (fun subs e => subs.remove e.1 e.2) subs).Valid := by
  induction l generalizing subs with
  | nil => exact h
  | cons e l ih =>
      obtain ⟨hnew, hnodup⟩ := List.nodupKeys_cons.mp hnodup
      rw [List.foldl_cons]
      apply ih hnodup (h.remove hfree (hl e List.mem_cons_self)) hfree
      intro e' he'
      have hne : e'.1 ≠ e.1 := by
        intro heq
        exact hnew (heq ▸ List.mem_map_of_mem he')
      rw [Consumers.remove, AList.lookup_erase_ne hne]
      exact hl e' (List.mem_cons_of_mem e he')

theorem Valid.close (h : subs.Valid) (hfree : subs.mutex = none) : subs.close.Valid := by
  have hpending : ∀ i, subs.pending i = [] := pending_of_not_sending (by simp [hfree])
  have hstart : Valid { subs with closed := true, mutex := some .close } := by
    refine ⟨?_, h.registered, h.chans, fun i delivery hmutex => by cases hmutex⟩
    intro i c hc
    exact (hpending i ▸ h.consumer i c hc).setClosed
  apply Valid.removeAll _ subs.chans.nodupKeys hstart
  · exact fun i delivery hmutex => by cases hmutex
  · intro e he
    exact AList.mem_lookup_iff.mpr he

/-- Consumer `i` changes, and with it who waits inside the mutex. -/
theorem Valid.update (h : subs.Valid) {i : ℕ} {c : Consumer δ}
    (hc : subs.consumers[i]? = some c) (c' : Consumer δ) (htag : c'.tag = c.tag)
    (hinput : c'.input.isClosed = c.input.isClosed)
    (hconsumers : subs'.consumers = subs.consumers.set i c')
    (hchans : subs'.chans = subs.chans) (hclosed : subs'.closed = subs.closed)
    (hvalid : c'.Valid subs.closed (subs'.pending i))
    (hothers : ∀ j, j ≠ i → subs'.pending j = subs.pending j)
    (hsending : ∀ j delivery, subs'.mutex = some (.send j delivery) →
      subs.mutex = some (.send j delivery) ∨ j = i ∧ c.input.isClosed = false) :
    subs'.Valid := by
  have hlt : i < subs.consumers.length := (List.getElem?_eq_some_iff.mp hc).1
  have hget : ∀ j d, subs'.consumers[j]? = some d →
      j = i ∧ d = c' ∨ j ≠ i ∧ subs.consumers[j]? = some d := by
    intro j d hd
    rw [hconsumers] at hd
    exact getElem?_set_cases hd
  have hset : ∀ (j : ℕ) (d : Consumer δ), subs.consumers[j]? = some d →
      ∃ d' : Consumer δ, subs'.consumers[j]? = some d' ∧ d'.tag = d.tag ∧
        d'.input.isClosed = d.input.isClosed := by
    intro j d hd
    rw [hconsumers, List.getElem?_set]
    by_cases hij : i = j
    · subst hij
      rw [hc] at hd
      cases hd
      exact ⟨c', by simp [hlt], htag, hinput⟩
    · exact ⟨d, by simp [hij, hd], rfl, rfl⟩
  refine ⟨?_, ?_, ?_, ?_⟩
  · intro j d hd
    rw [hclosed]
    rcases hget j d hd with ⟨rfl, rfl⟩ | ⟨hij, hd⟩
    · exact hvalid
    · rw [hothers j hij]
      exact h.consumer j d hd
  · intro j d hd
    rw [hchans]
    rcases hget j d hd with ⟨rfl, rfl⟩ | ⟨-, hd⟩
    · rw [htag, hinput]
      exact h.registered j c hc
    · exact h.registered j d hd
  · intro tag j hj
    rw [hchans] at hj
    obtain ⟨d, hd, rfl⟩ := h.chans tag j hj
    obtain ⟨d', hd', htag', -⟩ := hset j d hd
    exact ⟨d', hd', htag'⟩
  · intro j delivery hmutex
    have hopen : ∃ d, subs.consumers[j]? = some d ∧ d.input.isClosed = false := by
      rcases hsending j delivery hmutex with hmutex | ⟨rfl, hopen⟩
      · exact h.sending j delivery hmutex
      · exact ⟨c, hc, hopen⟩
    obtain ⟨d, hd, hopen⟩ := hopen
    obtain ⟨d', hd', -, hinput'⟩ := hset j d hd
    exact ⟨d', hd', hinput'.trans hopen⟩

theorem Valid.send (h : subs.Valid) (hfree : subs.mutex = none) (tag : Bytes) (delivery : δ) :
    (subs.send tag delivery).1.Valid := by
  have hpending : ∀ j, subs.pending j = [] := pending_of_not_sending (by simp [hfree])
  rw [Consumers.send]
  split
  · rename_i i hi
    obtain ⟨c, hc, rfl, hopen⟩ := h.open_of_lookup hi
    have hmodify : subs.consumers.modify i (fun c => { c with passed := c.passed ++ [delivery] }) =
        subs.consumers.set i { c with passed := c.passed ++ [delivery] } := by
      simp [List.modify_eq_set_getElem?, hc]
    refine h.update hc { c with passed := c.passed ++ [delivery] } rfl rfl hmodify rfl rfl ?_ ?_ ?_
    · have hvalid := hpending i ▸ h.consumer i c hc
      simpa [pending] using hvalid.pass delivery
    · intro j hj
      rw [hpending j]
      simp [pending, hj]
    · intro j d hmutex
      cases hmutex
      exact .inr ⟨rfl, hopen⟩
  · exact h

theorem Valid.accept (h : subs.Valid) (haccept : subs.accept = some subs') : subs'.Valid := by
  rw [Consumers.accept] at haccept
  split at haccept
  · rename_i i delivery hmutex
    obtain ⟨c, hc, hopen⟩ := h.sending i delivery hmutex
    rw [hc] at haccept
    simp only [hopen, Bool.false_eq_true, if_false] at haccept
    obtain ⟨haccepting, ⟨⟩⟩ := Option.ite_none_right_eq_some.mp haccept
    have hvalid := h.consumer i c hc
    rw [pending, hmutex] at hvalid
    simp only [if_true] at hvalid
    refine h.update hc (c.accept delivery) rfl (Chan.isClosed_send _ _) rfl rfl rfl ?_ ?_ ?_
    · exact hvalid.accept hopen haccepting
    · intro j hj
      simp [pending, hmutex, hj]
    · intro j d hmutex
      cases hmutex
  · cases haccept

theorem Valid.step (h : subs.Valid) {a : Action δ} (hnext : subs.next a = some subs') :
    subs'.Valid := by
  cases a with
  | add tag capacity =>
      obtain ⟨hfree, ⟨⟩⟩ := Option.ite_none_right_eq_some.mp hnext
      exact h.add tag capacity (by simp [Option.isNone_iff_eq_none.mp hfree])
  | send tag delivery =>
      obtain ⟨hfree, ⟨⟩⟩ := Option.ite_none_right_eq_some.mp hnext
      exact h.send (Option.isNone_iff_eq_none.mp hfree) tag delivery
  | accept => exact h.accept hnext
  | cancel tag =>
      obtain ⟨hfree, ⟨⟩⟩ := Option.ite_none_right_eq_some.mp hnext
      exact h.cancel tag (by simp [Option.isNone_iff_eq_none.mp hfree])
  | close =>
      obtain ⟨⟨hfree, -⟩, ⟨⟩⟩ := Option.ite_none_right_eq_some.mp hnext
      exact h.close (Option.isNone_iff_eq_none.mp hfree)
  | wait =>
      rw [next, wait] at hnext
      split at hnext
      · rename_i hmutex
        obtain ⟨-, ⟨⟩⟩ := Option.ite_none_right_eq_some.mp hnext
        refine ⟨?_, h.registered, h.chans, fun i delivery hmutex => by cases hmutex⟩
        intro i c hc
        have hvalid := h.consumer i c hc
        rwa [pending_of_not_sending (by simp [hmutex])] at hvalid
      · cases hnext
  | step i a =>
      rw [next, stepConsumer] at hnext
      split at hnext
      · rename_i c hc
        obtain ⟨c', hstep, rfl⟩ := Option.map_eq_some_iff.mp hnext
        obtain ⟨hinput, htag⟩ := Consumer.step_frame hstep
        exact h.update hc c' htag (by rw [hinput]) rfl rfl rfl ((h.consumer i c hc).step hstep)
          (fun _ _ => rfl) fun _ _ hmutex => .inl hmutex
      · cases hnext

theorem valid_makeConsumers : (makeConsumers : Consumers δ).Valid where
  consumer := fun i c hc => by simp [makeConsumers] at hc
  registered := fun i c hc => by simp [makeConsumers] at hc
  chans := fun tag i hi => by simp [makeConsumers] at hi
  sending := fun i delivery hmutex => by cases hmutex

theorem Valid.received_prefix (h : subs.Valid) {i : ℕ} {c : Consumer δ}
    (hc : subs.consumers[i]? = some c) : c.received <+: c.passed := by
  rw [(h.consumer i c hc).passed, List.append_assoc, Consumer.received]
  exact (List.take_prefix _ _).trans (List.prefix_append _ _)

/-- Before `close` is called, an output is closed when everything was handed on. -/
theorem Valid.drained (h : subs.Valid) (hclosed : subs.closed = false) {i : ℕ} {c : Consumer δ}
    (hc : subs.consumers[i]? = some c) (houtput : c.output.isClosed = true) :
    c.input.isClosed = true ∧ c.output.sent = c.passed ∧
      (c.capacity = 0 → c.received = c.passed) := by
  have hvalid := h.consumer i c hc
  have hreturned : c.point = .returned := by
    by_contra hpoint
    rw [hvalid.outputOpen hpoint] at houtput
    cases houtput
  rw [hclosed] at hvalid
  rcases hvalid.ended (by simp [hreturned]) (by simp [hreturned]) with hfalse | ⟨hinput, hqueue⟩
  · cases hfalse
  · -- a `send` in progress keeps the input open
    have hpending : subs.pending i = [] := by
      rw [pending]
      split
      · rename_i j delivery hmutex
        obtain ⟨d, hd, hopen⟩ := h.sending j delivery hmutex
        rw [if_neg]
        rintro rfl
        rw [hc] at hd
        cases hd
        rw [hinput] at hopen
        cases hopen
      · rfl
    have hsent : c.output.sent = c.passed := by
      simpa [hqueue, hpending] using hvalid.passed.symm
    refine ⟨hinput, hsent, fun hcapacity => ?_⟩
    have hall : c.output.sent.length ≤ c.taken := by
      simpa [hcapacity] using hvalid.capacity
    rw [Consumer.received, List.take_of_length_le hall, hsent]

/-- A `send` that waits is not kept waiting by the goroutine it sends to. -/
theorem Valid.accept_isSome (h : subs.Valid) (hclosed : subs.closed = false) {i : ℕ}
    {delivery : δ} (hmutex : subs.mutex = some (.send i delivery)) :
    (subs.next .accept).isSome = true := by
  obtain ⟨c, hc, hopen⟩ := h.sending i delivery hmutex
  have haccepting : c.accepting = true :=
    Consumer.Valid.accepting (hclosed ▸ h.consumer i c hc) hopen
  simp [next, Consumers.accept, hmutex, hc, hopen, haccepting]

end Consumers

end Amqp091

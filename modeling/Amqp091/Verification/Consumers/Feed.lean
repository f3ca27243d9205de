import Amqp091.Verification.Consumers.History
import Amqp091.Verification.Content.Delivery

/-! # From the server to the channel of a consumer

The reader of a connection dispatches on a channel while consumers come and go there. -/

namespace Amqp091

open ByteCodec Channels Positions Transition

/-! ## What a consumer misses -/

namespace Consumers

variable {δ : Type} {subs subs' : Consumers δ} {i : ℕ} {tag : Bytes} {log : List δ}

/-- Since consumer `i` was registered, `log` arrived for its tag: it was given all of it as
long as it is registered, and nothing after that. -/
def Fed (subs : Consumers δ) (i : ℕ) (tag : Bytes) (log : List δ) : Prop :=
  ∃ capacity passed missed, subs.history[i]? = some (tag, capacity, passed) ∧
    log = passed ++ missed ∧ (subs.chans.lookup tag = some i → missed = [])

theorem Fed.next (hvalid : subs.Valid) (h : subs.Fed i tag log) {a : Action δ}
    (hnext : subs.next a = some subs') : subs'.Fed i tag (log ++ a.deliveryFor tag) := by
  obtain ⟨capacity, passed, missed, hentry, rfl, hregistered⟩ := h
  have hi : i < subs.consumers.length :=
    length_history subs ▸ (List.getElem?_eq_some_iff.mp hentry).1
  have hentry' := history_next hvalid hnext hentry
  by_cases hname : subs.chans.lookup tag = some i
  · rw [if_pos hname] at hentry'
    refine ⟨capacity, _, [], hentry', ?_, fun _ => rfl⟩
    rw [hregistered hname, List.append_nil, List.append_nil]
  · rw [if_neg hname, List.append_nil] at hentry'
    refine ⟨capacity, passed, _, hentry', List.append_assoc _ _ _, fun hname' => ?_⟩
    exact absurd ((lookup_next hi hnext).mp hname').1 hname

end Consumers

/-! ## The reader next to the consumers -/

namespace DeliveryFeed

/-- The deliveries for a consumer tag. -/
def deliveriesTo (id : UInt16) (tag : Bytes) (outs : List Dispatched) : List Delivery :=
  outs.flatMap fun out => ((consumersCall id out).map (·.deliveryFor tag)).getD []

variable {id : UInt16} {s s' : DeliveryFeed}

/-- What a step does: `own` is the call of another goroutine or a step of one, in `passed` the
reader calls the consumers, in `other` it has something else to do. -/
inductive Step (id : UInt16) (s s' : DeliveryFeed) : Prop
  | own (call : Consumers.Action Delivery) (hnext : s.subs.next call = some s'.subs)
      (hnot : ∀ tag, call.deliveryFor tag = []) (hincoming : s.incoming = s'.incoming)
  | passed (out : Dispatched) (call : Consumers.Action Delivery)
      (hcall : consumersCall id out = some call) (hnext : s.subs.next call = some s'.subs)
      (hincoming : s.incoming = out :: s'.incoming)
  | other (out : Dispatched) (hcall : consumersCall id out = none) (hsubs : s'.subs = s.subs)
      (hincoming : s.incoming = out :: s'.incoming)

theorem step_of_next {a : Action} (h : next id s a = some s') : Step id s s' := by
  cases a with
  | dispatch =>
      simp only [next] at h
      split at h
      · cases h
      · cases h
      · rename_i out incoming hincoming _
        split at h
        · rename_i call hcall
          obtain ⟨subs, hsubs, rfl⟩ := Option.map_eq_some_iff.mp h
          exact .passed out call hcall hsubs hincoming
        · rename_i hcall
          cases h
          exact .other out hcall rfl hincoming
  | consumers call =>
      cases call with
      | send => cases h
      | _ =>
          obtain ⟨subs, hsubs, rfl⟩ := Option.map_eq_some_iff.mp h
          exact .own _ hsubs (fun _ => rfl) rfl

theorem Step.valid (h : Step id s s') (hvalid : s.subs.Valid) : s'.subs.Valid := by
  cases h with
  | own call hnext => exact hvalid.step hnext
  | passed out call hcall hnext => exact hvalid.step hnext
  | other out hcall hsubs =>
      rw [hsubs]
      exact hvalid

/-- The messages `outs` were dispatched since consumer `i` was registered. -/
structure Since (id : UInt16) (all : List Dispatched) (i : ℕ) (tag : Bytes)
    (s : DeliveryFeed) : Prop where
  valid : s.subs.Valid
  fed : ∃ outs, all = outs ++ s.incoming ∧ s.subs.Fed i tag (deliveriesTo id tag outs)

theorem Since.step {all : List Dispatched} {i : ℕ} {tag : Bytes} (h : Since id all i tag s)
    (hstep : Step id s s') : Since id all i tag s' := by
  refine ⟨hstep.valid h.valid, ?_⟩
  obtain ⟨outs, hall, hfed⟩ := h.fed
  cases hstep with
  | own call hnext hnot hincoming =>
      have hnew := hfed.next h.valid hnext
      rw [hnot, List.append_nil] at hnew
      exact ⟨outs, hincoming ▸ hall, hnew⟩
  | passed out call hcall hnext hincoming =>
      refine ⟨outs ++ [out], by simp [hall, hincoming], ?_⟩
      have hnew := hfed.next h.valid hnext
      simpa [deliveriesTo, hcall] using hnew
  | other out hcall hsubs hincoming =>
      refine ⟨outs ++ [out], by simp [hall, hincoming], ?_⟩
      rw [hsubs]
      simpa [deliveriesTo, hcall] using hfed

end DeliveryFeed

end Amqp091

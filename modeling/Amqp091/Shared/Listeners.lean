import Amqp091.Shared.Chan
import Amqp091.Shared.Positions
import Mathlib.Logic.Function.Basic

/-! # Listeners

Channels that were registered to be notified, in one slice for each kind of notification.
A slice holds positions in the list of all listeners. -/

namespace Channels

open Positions

/-- `late` listeners were closed when they registered. -/
structure Listener (κ ν : Type) where
  kind : κ
  late : Bool
  chan : Chan ν
  deriving DecidableEq, Repr

structure Listeners (κ ν : Type) where
  all : List (Listener κ ν)
  slice : κ → List ℕ

variable {κ ν : Type}

def Listener.send (v : ν) (x : Listener κ ν) : Listener κ ν := { x with chan := x.chan.send v }

def Listener.close (x : Listener κ ν) : Listener κ ν := { x with chan := x.chan.close }

namespace Listeners

def empty : Listeners κ ν := ⟨[], fun _ => []⟩

def register [DecidableEq κ] (l : Listeners κ ν) (k : κ) : Listeners κ ν where
  all := l.all ++ [⟨k, false, {}⟩]
  slice := Function.update l.slice k (l.slice k ++ [l.all.length])

/-- A listener that is closed at once. -/
def registerLate (l : Listeners κ ν) (k : κ) : Listeners κ ν :=
  { l with all := l.all ++ [⟨k, true, Chan.close {}⟩] }

/-- Changes the listeners at the given positions, one after the other. -/
def modifyAll (l : Listeners κ ν) (f : Listener κ ν → Listener κ ν) (is : List ℕ) :
    Listeners κ ν :=
  { l with all := is.foldl (fun all i => all.modify i f) l.all }

def sendAll (l : Listeners κ ν) (is : List ℕ) (v : ν) : Listeners κ ν :=
  l.modifyAll (Listener.send v) is

/-- Sends to all listeners of a slice if there is something to send. -/
def sendOption (l : Listeners κ ν) (k : κ) : Option ν → Listeners κ ν
  | some v => l.sendAll (l.slice k) v
  | none => l

def closeAll (l : Listeners κ ν) (is : List ℕ) : Listeners κ ν :=
  l.modifyAll Listener.close is

def clear [DecidableEq κ] (l : Listeners κ ν) (k : κ) : Listeners κ ν :=
  { l with slice := Function.update l.slice k [] }

/-- Closes the listeners of a slice and empties it. -/
def closeSlice [DecidableEq κ] (l : Listeners κ ν) (k : κ) : Listeners κ ν :=
  (l.closeAll (l.slice k)).clear k

/-- The slices hold distinct positions of open listeners of their kind, and all other
listeners are closed. -/
structure Sound (l : Listeners κ ν) : Prop where
  nodup : ∀ k, (l.slice k).Nodup
  active : ∀ k, ∀ i ∈ l.slice k,
    ∃ x, l.all[i]? = some x ∧ x.kind = k ∧ x.chan.isClosed = false
  settled : ∀ i x, l.all[i]? = some x → i ∈ l.slice x.kind ∨ x.chan.isClosed = true

/-- What holds of every listener. -/
def Each (P : Listener κ ν → Prop) (l : Listeners κ ν) : Prop := ∀ x ∈ l.all, P x

variable {l : Listeners κ ν} {f : Listener κ ν → Listener κ ν} {P : Listener κ ν → Prop}

theorem sound_empty : (empty : Listeners κ ν).Sound where
  nodup := fun _ => List.nodup_nil
  active := fun _ _ hi => absurd hi List.not_mem_nil
  settled := fun i x hx => by simp [empty] at hx

theorem Sound.of_eq {l' : Listeners κ ν} (h : l.Sound) (hall : l'.all = l.all)
    (hslice : ∀ k, l'.slice k = l.slice k) : l'.Sound := by
  obtain ⟨all, slice⟩ := l'
  cases hall
  cases funext hslice
  exact h

theorem each_empty : Each P (empty : Listeners κ ν) := fun _ hx => absurd hx List.not_mem_nil

/-! ## Changing several listeners -/

@[simp] theorem modifyAll_slice (is : List ℕ) : (l.modifyAll f is).slice = l.slice := rfl

@[simp] theorem modifyAll_nil : l.modifyAll f [] = l := rfl

theorem modifyAll_cons (i : ℕ) (is : List ℕ) :
    l.modifyAll f (i :: is) = ({ l with all := l.all.modify i f } : Listeners κ ν).modifyAll f is :=
  rfl

/-- With distinct positions each listener is changed once. -/
theorem getElem?_modifyAll {is : List ℕ} (hnodup : is.Nodup) (i : ℕ) :
    (l.modifyAll f is).all[i]? = l.all[i]?.map fun x => if i ∈ is then f x else x := by
  induction is generalizing l with
  | nil => simp
  | cons j is ih =>
      obtain ⟨hj, hnodup⟩ := List.nodup_cons.mp hnodup
      rw [modifyAll_cons, ih hnodup, List.getElem?_modify]
      by_cases hij : j = i
      · subst hij
        simp [hj, Function.comp_def]
      · have hne : i ≠ j := fun h => hij h.symm
        simp [hij, hne]

theorem mem_modifyAll {is : List ℕ} (hnodup : is.Nodup) {y : Listener κ ν}
    (hy : y ∈ (l.modifyAll f is).all) :
    ∃ i x, l.all[i]? = some x ∧ y = if i ∈ is then f x else x := by
  obtain ⟨i, hi⟩ := List.mem_iff_getElem?.mp hy
  rw [getElem?_modifyAll hnodup] at hi
  obtain ⟨x, hx, rfl⟩ := Option.map_eq_some_iff.mp hi
  exact ⟨i, x, hx, rfl⟩

/-- A change that keeps the kind and closes nothing. -/
theorem Sound.modifyAll (h : l.Sound) {is : List ℕ} (hnodup : is.Nodup)
    (hf : ∀ x, (f x).kind = x.kind ∧ (f x).chan.isClosed = x.chan.isClosed) :
    (l.modifyAll f is).Sound where
  nodup := h.nodup
  active := by
    intro k i hi
    obtain ⟨x, hx, hkind, hopen⟩ := h.active k i hi
    refine ⟨if i ∈ is then f x else x, ?_, ?_, ?_⟩
    · rw [getElem?_modifyAll hnodup, hx]
      rfl
    · split
      · rw [(hf x).1, hkind]
      · exact hkind
    · split
      · rw [(hf x).2, hopen]
      · exact hopen
  settled := by
    intro i y hy
    rw [getElem?_modifyAll hnodup] at hy
    obtain ⟨x, hx, rfl⟩ := Option.map_eq_some_iff.mp hy
    split
    · rw [(hf x).1, (hf x).2]
      exact h.settled i x hx
    · exact h.settled i x hx

theorem Each.modifyAll (h : Each P l) {is : List ℕ} (hnodup : is.Nodup)
    (hf : ∀ i x, l.all[i]? = some x → i ∈ is → P x → P (f x)) : Each P (l.modifyAll f is) := by
  intro y hy
  obtain ⟨i, x, hx, rfl⟩ := mem_modifyAll hnodup hy
  have hP := h x (List.mem_of_getElem? hx)
  split
  · exact hf i x hx ‹_› hP
  · exact hP

/-! ## Notifying and closing -/

theorem Sound.active_eq (h : l.Sound) {k : κ} {i : ℕ} (hi : i ∈ l.slice k) {x : Listener κ ν}
    (hx : l.all[i]? = some x) : x.kind = k ∧ x.chan.isClosed = false := by
  obtain ⟨y, hy, hkind, hopen⟩ := h.active k i hi
  rw [hx] at hy
  cases hy
  exact ⟨hkind, hopen⟩

theorem Sound.sendAll (h : l.Sound) {is : List ℕ} (hnodup : is.Nodup) (v : ν) :
    (l.sendAll is v).Sound :=
  h.modifyAll hnodup fun _ => ⟨rfl, Chan.isClosed_send _ _⟩

theorem Each.sendAll (h : Each P l) (hsound : l.Sound) {k : κ} {is : List ℕ}
    (hnodup : is.Nodup) (his : ∀ i ∈ is, i ∈ l.slice k) {v : ν}
    (hP : ∀ x, x.kind = k → x.chan.isClosed = false → P x → P (x.send v)) :
    Each P (l.sendAll is v) := by
  refine h.modifyAll hnodup fun i x hx hi => ?_
  obtain ⟨hkind, hopen⟩ := hsound.active_eq (his i hi) hx
  exact hP x hkind hopen

/-- Sending to a whole slice reaches the open listeners of its kind and no others. -/
theorem Each.sendSlice {Q : Listener κ ν → Prop} (h : Each P l) (hsound : l.Sound) {k : κ} {v : ν}
    (hopen : ∀ x, x.kind = k → P x → x.chan.isClosed = false)
    (hsend : ∀ x, x.kind = k → P x → Q (x.send v)) (hother : ∀ x, x.kind ≠ k → P x → Q x) :
    Each Q (l.sendAll (l.slice k) v) := by
  intro y hy
  obtain ⟨i, x, hx, rfl⟩ := mem_modifyAll (hsound.nodup k) hy
  have hP := h x (List.mem_of_getElem? hx)
  split
  · rename_i hi
    exact hsend x (hsound.active_eq hi hx).1 hP
  · rename_i hi
    refine hother x (fun hkind => ?_) hP
    rcases hsound.settled i x hx with hmem | hclosed
    · exact hi (hkind ▸ hmem)
    · rw [hopen x hkind hP] at hclosed
      cases hclosed

theorem Sound.sendOption (h : l.Sound) (k : κ) (v : Option ν) : (l.sendOption k v).Sound := by
  cases v with
  | none => exact h
  | some v => exact h.sendAll (h.nodup _) _

theorem sendOption_slice (k : κ) (v : Option ν) : (l.sendOption k v).slice = l.slice := by
  cases v <;> rfl

theorem Sound.kind_eq (h : l.Sound) {k k' : κ} {i : ℕ} (hi : i ∈ l.slice k)
    (hi' : i ∈ l.slice k') : k = k' := by
  obtain ⟨x, hx, hkind, -⟩ := h.active k i hi
  exact hkind.symm.trans (h.active_eq hi' hx).1

/-- Closing some listeners and taking them out of the slices. -/
theorem Sound.closeAll (h : l.Sound) {is : List ℕ} (hnodup : is.Nodup) {slice : κ → List ℕ}
    (hslice : ∀ k i, i ∈ slice k ↔ i ∈ l.slice k ∧ i ∉ is) (hslices : ∀ k, (slice k).Nodup) :
    ({ l.closeAll is with slice := slice } : Listeners κ ν).Sound where
  nodup := hslices
  active := by
    intro k i hi
    obtain ⟨hi, hnot⟩ := (hslice k i).mp hi
    obtain ⟨x, hx, hkind, hopen⟩ := h.active k i hi
    refine ⟨x, ?_, hkind, hopen⟩
    rw [Listeners.closeAll, getElem?_modifyAll hnodup, hx]
    simp [hnot]
  settled := by
    intro i y hy
    rw [Listeners.closeAll, getElem?_modifyAll hnodup] at hy
    obtain ⟨x, hx, rfl⟩ := Option.map_eq_some_iff.mp hy
    split
    · exact .inr rfl
    · rename_i hnot
      exact (h.settled i x hx).imp_left fun hi => (hslice _ i).mpr ⟨hi, hnot⟩

section

variable [DecidableEq κ]

theorem closeSlice_slice (k k' : κ) :
    (l.closeSlice k).slice k' = if k' = k then [] else l.slice k' :=
  Function.update_apply _ _ _ _

theorem register_slice (k k' : κ) :
    (l.register k).slice k' = if k' = k then l.slice k ++ [l.all.length] else l.slice k' :=
  Function.update_apply _ _ _ _

theorem Sound.closeSlice (h : l.Sound) (k : κ) : (l.closeSlice k).Sound := by
  refine h.closeAll (h.nodup k) (fun k' j => ?_) (fun k' => ?_)
  · rw [Function.update_apply]
    split
    · rename_i heq
      simp [heq]
    · rename_i hne
      exact ⟨fun hj => ⟨hj, fun hk => hne (h.kind_eq hj hk)⟩, And.left⟩
  · rw [Function.update_apply]
    split
    · exact List.nodup_nil
    · exact h.nodup k'

theorem Each.closeSlice (h : Each P l) (hsound : l.Sound) {k : κ}
    (hP : ∀ x, x.kind = k → x.chan.isClosed = false → P x → P x.close) :
    Each P (l.closeSlice k) := by
  refine h.modifyAll (hsound.nodup k) fun i x hx hi => ?_
  obtain ⟨hkind, hopen⟩ := hsound.active_eq hi hx
  exact hP x hkind hopen

/-- Closing the first listener of a slice. -/
theorem Sound.closeHead (h : l.Sound) {k : κ} {i : ℕ} {rest : List ℕ}
    (hk : l.slice k = i :: rest) :
    ({ l.closeAll [i] with slice := Function.update l.slice k rest } : Listeners κ ν).Sound := by
  obtain ⟨hi, hrest⟩ := List.nodup_cons.mp (hk ▸ h.nodup k)
  refine h.closeAll (List.nodup_cons.mpr ⟨List.not_mem_nil, List.nodup_nil⟩) (fun k' j => ?_)
    (fun k' => ?_)
  · rw [Function.update_apply, List.mem_singleton]
    split
    · rename_i heq
      rw [heq, hk, List.mem_cons]
      exact ⟨fun hj => ⟨.inr hj, fun hji => hi (hji ▸ hj)⟩, fun hj => hj.1.resolve_left hj.2⟩
    · rename_i hne
      refine ⟨fun hj => ⟨hj, fun hji => hne (h.kind_eq hj ?_)⟩, And.left⟩
      rw [hk, hji]
      exact List.mem_cons_self
  · rw [Function.update_apply]
    split
    · exact hrest
    · exact h.nodup k'

/-! ## Registering -/

theorem Sound.register (h : l.Sound) (k : κ) : (l.register k).Sound where
  nodup := by
    intro k'
    rw [register_slice]
    split
    · rw [List.nodup_append]
      refine ⟨h.nodup k, by simp, ?_⟩
      rintro i hi j hj rfl
      obtain ⟨x, hx, -⟩ := h.active k i hi
      rw [List.mem_singleton.mp hj] at hx
      simp at hx
    · exact h.nodup k'
  active := by
    intro k' i hi
    have hold : i ∈ l.slice k' → ∃ x, (l.register k).all[i]? = some x ∧ x.kind = k' ∧
        x.chan.isClosed = false := by
      intro hi
      obtain ⟨x, hx, hkind, hopen⟩ := h.active k' i hi
      refine ⟨x, ?_, hkind, hopen⟩
      rw [Listeners.register, List.getElem?_append_left (List.getElem?_eq_some_iff.mp hx).1, hx]
    rw [register_slice] at hi
    split at hi
    · rename_i heq
      subst heq
      rcases List.mem_append.mp hi with hi | hi
      · exact hold hi
      · rw [List.mem_singleton.mp hi]
        exact ⟨⟨k', false, {}⟩, List.getElem?_concat_length, rfl, rfl⟩
    · exact hold hi
  settled := by
    intro i x hx
    have hmono : ∀ k', i ∈ l.slice k' → i ∈ (l.register k).slice k' := by
      intro k' hi
      rw [register_slice]
      split
      · rename_i heq
        subst heq
        exact List.mem_append_left _ hi
      · exact hi
    rcases getElem?_concat_cases hx with hx | ⟨rfl, rfl⟩
    · exact (h.settled i x hx).imp_left (hmono x.kind)
    · left
      simp [Listeners.register]

theorem Each.register (h : Each P l) {k : κ} (hP : P ⟨k, false, {}⟩) : Each P (l.register k) := by
  intro x hx
  rcases List.mem_append.mp hx with hx | hx
  · exact h x hx
  · rw [List.mem_singleton.mp hx]
    exact hP

end

theorem Sound.registerLate (h : l.Sound) (k : κ) : (l.registerLate k).Sound where
  nodup := h.nodup
  active := by
    intro k' i hi
    obtain ⟨x, hx, hkind, hopen⟩ := h.active k' i hi
    refine ⟨x, ?_, hkind, hopen⟩
    rw [Listeners.registerLate, List.getElem?_append_left (List.getElem?_eq_some_iff.mp hx).1, hx]
  settled := by
    intro i x hx
    rcases getElem?_concat_cases hx with hx | ⟨-, rfl⟩
    · exact h.settled i x hx
    · exact .inr rfl

theorem Each.registerLate (h : Each P l) {k : κ} (hP : P ⟨k, true, Chan.close {}⟩) :
    Each P (l.registerLate k) := by
  intro x hx
  rcases List.mem_append.mp hx with hx | hx
  · exact h x hx
  · rw [List.mem_singleton.mp hx]
    exact hP

end Listeners

/-! ## Shutting down

The listeners of one kind are sent an error, if there is one, and then all listeners are closed,
kind by kind. A listener that comes later is closed at once. -/

/-- How far a shutdown is: the error it was called with, whether that was sent, whether the
shutdown is over, and which slices it has closed. -/
structure ShutdownProgress (κ ε : Type) where
  error : Option (Option ε)
  told : Bool
  ended : Bool
  closed : κ → Bool

variable {ε : Type}

/-- The error that has been sent. -/
def ShutdownProgress.sent (p : ShutdownProgress κ ε) : Option ε :=
  if p.told then p.error.join else none

theorem ShutdownProgress.sent_eq_none {p : ShutdownProgress κ ε}
    (h : ∀ e, p.error ≠ some (some e)) : p.sent = none := by
  rw [sent]
  split
  · rcases herror : p.error with _ | _ | e
    · rfl
    · rfl
    · exact absurd herror (h e)
  · rfl

variable {closes : κ} {note : ε → ν} {p q : ShutdownProgress κ ε} {x : Listener κ ν}

/-- A listener was used as a channel may be, and one of the kind `closes` was sent the error of
the shutdown, unless it came too late. Before the shutdown comes to its slice it is open. -/
structure Listener.Good (closes : κ) (note : ε → ν) (p : ShutdownProgress κ ε) (x : Listener κ ν) :
    Prop where
  safe : x.chan.Safe
  sent : x.kind = closes → x.chan.sent = if x.late then [] else (p.sent.map note).toList
  early : p.ended = false → x.late = false
  unclosed : p.closed x.kind = false → x.chan.isClosed = false

namespace Listener

theorem Good.registered (htold : p.told = false) (k : κ) : Good closes note p ⟨k, false, {}⟩ where
  safe := Chan.safe_empty
  sent := by simp [ShutdownProgress.sent, htold]
  early := fun _ => rfl
  unclosed := fun _ => rfl

theorem Good.registeredLate {k : κ} (hended : p.ended = true) (hclosed : p.closed k = true) :
    Good closes note p ⟨k, true, Chan.close {}⟩ where
  safe := Chan.safe_empty.close rfl
  sent := fun _ => rfl
  early := by simp [hended]
  unclosed := by simp [hclosed]

theorem Good.send (h : Good closes note p x) (hkind : x.kind ≠ closes)
    (hopen : x.chan.isClosed = false) (v : ν) : Good closes note p (x.send v) where
  safe := h.safe.send hopen
  sent := fun hcloses => absurd hcloses hkind
  early := h.early
  unclosed := fun hclosed => (Chan.isClosed_send _ _).trans (h.unclosed hclosed)

theorem Good.close (h : Good closes note p x) (hclosed : p.closed x.kind = true)
    (hopen : x.chan.isClosed = false) : Good closes note p x.close where
  safe := h.safe.close hopen
  sent := h.sent
  early := h.early
  unclosed := by
    intro hnot
    rw [show p.closed x.kind = false from hnot] at hclosed
    cases hclosed

/-- The shutdown goes on and sends the listener nothing. -/
theorem Good.mono (h : Good closes note p x) (hsent : x.kind = closes → q.sent = p.sent)
    (hended : q.ended = false → p.ended = false)
    (hclosed : ∀ k, q.closed k = false → p.closed k = false) : Good closes note q x where
  safe := h.safe
  sent := by
    intro hkind
    rw [hsent hkind]
    exact h.sent hkind
  early := fun hq => h.early (hended hq)
  unclosed := fun hq => h.unclosed (hclosed _ hq)

/-- The shutdown sends the listener its error. -/
theorem Good.told (h : Good closes note p x) (hkind : x.kind = closes) {e : ε}
    (hp : p.sent = none) (hq : q.sent = some e) (hended : p.ended = false)
    (hclosed : ∀ k, p.closed k = false) : Good closes note q (x.send (note e)) := by
  have hlate := h.early hended
  have hopen := h.unclosed (hclosed _)
  have hsent := h.sent hkind
  refine ⟨h.safe.send hopen, ?_, fun _ => hlate, fun _ => (Chan.isClosed_send _ _).trans hopen⟩
  intro _
  rw [Listener.send, Chan.send_of_open hopen, hsent, hlate, hp, hq]
  rfl

end Listener

namespace Listeners

variable {l : Listeners κ ν}

/-- The step of the shutdown that sends the error. -/
theorem Each.told (h : l.Each (Listener.Good closes note p)) (hsound : l.Sound)
    (hp : p.sent = none) (hended : p.ended = false) (hclosed : ∀ k, p.closed k = false) :
    (l.sendOption closes (q.sent.map note)).Each (Listener.Good closes note q) := by
  have hrest : ∀ x, (x.kind = closes → q.sent = none) → Listener.Good closes note p x →
      Listener.Good closes note q x := by
    intro x hnone hx
    apply hx.mono
    · intro hkind
      rw [hnone hkind, hp]
    · exact fun _ => hended
    · exact fun k _ => hclosed k
  cases hq : q.sent with
  | none => exact fun x hx => hrest x (fun _ => hq) (h x hx)
  | some e =>
      refine h.sendSlice hsound ?_ ?_ ?_
      · exact fun x _ hx => hx.unclosed (hclosed _)
      · exact fun x hkind hx => hx.told hkind hp hq hended hclosed
      · exact fun x hkind => hrest x fun hcloses => absurd hcloses hkind

/-- Closing a slice that the shutdown has come to. -/
theorem Each.closed [DecidableEq κ] (h : l.Each (Listener.Good closes note p)) (hsound : l.Sound)
    {k : κ} (hclosed : p.closed k = true) :
    (l.closeSlice k).Sound ∧ (l.closeSlice k).Each (Listener.Good closes note p) := by
  constructor
  · exact hsound.closeSlice k
  · apply h.closeSlice hsound
    intro x hkind hopen hx
    exact hx.close (hkind ▸ hclosed) hopen

end Listeners

end Channels

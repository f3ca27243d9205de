import Amqp091.Shared.Positions
import Amqp091.Shared.Transition
import Mathlib.Logic.Function.Basic

/-! # Mutexes that are taken in ascending order

Threads as far as their mutexes are concerned, in any interleaving. Threads that take the
mutexes in ascending order of a rank never wait for each other in a circle. -/

namespace Concurrency

open Positions

/-- What code does with mutexes. `work` is anything else, it may take any time. -/
inductive LockProg (μ : Type) where
  | work
  | locked (m : μ) (body : LockProg μ)
  | seq (p q : LockProg μ)
  | either (p q : LockProg μ)
  | loop (body : LockProg μ)

/-- What a thread has to do next: run code, or unlock a mutex at the end of its section. -/
inductive LockTask (μ : Type) where
  | run (p : LockProg μ)
  | unlock (m : μ)

structure LockSystem (μ : Type) where
  threads : List (List (LockTask μ))
  holder : μ → Option ℕ

/-- `choice` decides between alternatives and whether a loop goes on. -/
inductive LockAction (μ : Type) where
  | spawn (p : LockProg μ)
  | step (t : ℕ) (choice : Bool)

variable {μ : Type}

namespace LockProg

variable (rank : μ → ℕ)

/-- Mutexes of a rank of at least `b`, and in ascending order inside of each other. -/
def Ordered : ℕ → LockProg μ → Prop
  | _, .work => True
  | b, .locked m body => b ≤ rank m ∧ Ordered (rank m + 1) body
  | b, .seq p q => Ordered b p ∧ Ordered b q
  | b, .either p q => Ordered b p ∧ Ordered b q
  | b, .loop body => Ordered b body

/-- The programs of a list one after the other. -/
def sequence (ps : List (LockProg μ)) : LockProg μ := ps.foldr .seq .work

variable {rank}

theorem ordered_sequence {b : ℕ} {ps : List (LockProg μ)} (h : ∀ p ∈ ps, p.Ordered rank b) :
    (sequence ps).Ordered rank b := by
  induction ps with
  | nil => trivial
  | cons p ps ih =>
      obtain ⟨hp, hps⟩ := List.forall_mem_cons.mp h
      exact ⟨hp, ih hps⟩

end LockProg

namespace LockSystem

section

variable [DecidableEq μ]

def empty : LockSystem μ where
  threads := []
  holder := fun _ => none

/-- One step of a thread. A mutex that is held cannot be locked. -/
def stepThread (s : LockSystem μ) (t : ℕ) (choice : Bool) :
    List (LockTask μ) → Option (LockSystem μ)
  | [] => none
  | .run .work :: tasks => some { s with threads := s.threads.set t tasks }
  | .run (.seq p q) :: tasks =>
      some { s with threads := s.threads.set t (.run p :: .run q :: tasks) }
  | .run (.either p q) :: tasks =>
      some { s with threads := s.threads.set t (.run (if choice then p else q) :: tasks) }
  | .run (.loop body) :: tasks =>
      let tasks := if choice then .run body :: .run (.loop body) :: tasks else tasks
      some { s with threads := s.threads.set t tasks }
  | .run (.locked m body) :: tasks =>
      if s.holder m = none then
        some { s with
          threads := s.threads.set t (.run body :: .unlock m :: tasks)
          holder := Function.update s.holder m (some t) }
      else none
  | .unlock m :: tasks =>
      some { s with
        threads := s.threads.set t tasks
        holder := Function.update s.holder m none }

def next (s : LockSystem μ) : LockAction μ → Option (LockSystem μ)
  | .spawn p => some { s with threads := s.threads ++ [[.run p]] }
  | .step t choice => (s.threads[t]?).bind (s.stepThread t choice)

end

/-- The mutex that a thread wants to lock while it is held. -/
def waits (s : LockSystem μ) (t : ℕ) : Option μ :=
  match s.threads[t]? with
  | some (.run (.locked m _) :: _) => if (s.holder m).isSome then some m else none
  | _ => none

/-- From a thread to the holder of the mutex it waits for, and so on: this ends at a thread
that waits for none. A thread in a circle has no such end. -/
inductive WaitEnds (s : LockSystem μ) : ℕ → Prop
  | runs {t : ℕ} (h : s.waits t = none) : WaitEnds s t
  | waits {t u : ℕ} {m : μ} (hwaits : s.waits t = some m) (hholder : s.holder m = some u)
      (hends : WaitEnds s u) : WaitEnds s t

/-! ## The mutexes of a thread -/

section

variable (rank : μ → ℕ)

/-- One more than the rank of the mutex that was locked last. -/
def bound : List (LockTask μ) → ℕ
  | [] => 0
  | .run _ :: tasks => bound tasks
  | .unlock m :: _ => rank m + 1

/-- The mutexes that a thread holds were locked in ascending order, and what it has to do
goes on like that. -/
def Nested : List (LockTask μ) → Prop
  | [] => True
  | .run p :: tasks => p.Ordered rank (bound rank tasks) ∧ Nested tasks
  | .unlock m :: tasks => bound rank tasks ≤ rank m ∧ Nested tasks

variable {rank}

theorem Nested.rank_lt {tasks : List (LockTask μ)} (h : Nested rank tasks) {m : μ}
    (hm : .unlock m ∈ tasks) : rank m < bound rank tasks := by
  induction tasks with
  | nil => simp at hm
  | cons task tasks ih =>
      cases task with
      | run p => exact ih h.2 (by simpa using hm)
      | unlock m' =>
          rcases List.mem_cons.mp hm with heq | hm
          · cases heq
            exact Nat.lt_succ_self _
          · exact Nat.lt_of_lt_of_le (ih h.2 hm) (Nat.le_trans h.1 (Nat.le_succ _))

end

/-! ## Runs -/

variable {rank : μ → ℕ} {s s' : LockSystem μ}

/-- A mutex is held by the thread that has to unlock it. -/
structure Valid (rank : μ → ℕ) (s : LockSystem μ) : Prop where
  nested : ∀ (t : ℕ) (tasks : List (LockTask μ)), s.threads[t]? = some tasks → Nested rank tasks
  held : ∀ (m : μ) (t : ℕ), s.holder m = some t ↔
    ∃ tasks, s.threads[t]? = some tasks ∧ .unlock m ∈ tasks

theorem Valid.spawn (h : s.Valid rank) {p : LockProg μ} (hp : p.Ordered rank 0) :
    Valid rank { s with threads := s.threads ++ [[.run p]] } := by
  constructor
  · intro t tasks ht
    rcases getElem?_concat_cases ht with ht | ⟨-, rfl⟩
    · exact h.nested t tasks ht
    · exact ⟨hp, trivial⟩
  · intro m t
    rw [h.held]
    constructor
    · rintro ⟨tasks, ht, hm⟩
      exact ⟨tasks, (List.getElem?_append_left (List.getElem?_eq_some_iff.mp ht).1).trans ht, hm⟩
    · rintro ⟨tasks, ht, hm⟩
      rcases getElem?_concat_cases ht with ht | ⟨-, rfl⟩
      · exact ⟨tasks, ht, hm⟩
      · simp at hm

/-- What a thread holds in the list with its new tasks. -/
theorem exists_set_iff {threads : List (List (LockTask μ))} {t t' : ℕ}
    {tasks tasks' : List (LockTask μ)} (ht : threads[t]? = some tasks) {m : μ} :
    (∃ ks, (threads.set t tasks')[t']? = some ks ∧ .unlock m ∈ ks) ↔
      if t' = t then .unlock m ∈ tasks' else ∃ ks, threads[t']? = some ks ∧ .unlock m ∈ ks := by
  have hlt := (List.getElem?_eq_some_iff.mp ht).1
  by_cases heq : t' = t
  · subst heq
    simp [List.getElem?_set_self hlt]
  · simp [heq, List.getElem?_set_ne (Ne.symm heq)]

theorem nested_set (h : s.Valid rank) {t : ℕ} {tasks' : List (LockTask μ)}
    (hnested : Nested rank tasks') (t' : ℕ) (ks : List (LockTask μ))
    (hks : (s.threads.set t tasks')[t']? = some ks) : Nested rank ks := by
  rcases getElem?_set_cases hks with ⟨-, rfl⟩ | ⟨-, hks⟩
  · exact hnested
  · exact h.nested t' ks hks

/-- A thread goes on with the mutexes it has. -/
theorem Valid.move (h : s.Valid rank) {t : ℕ} {tasks tasks' : List (LockTask μ)}
    (ht : s.threads[t]? = some tasks) (hnested : Nested rank tasks')
    (hsame : ∀ m, .unlock m ∈ tasks' ↔ .unlock m ∈ tasks) :
    Valid rank { s with threads := s.threads.set t tasks' } := by
  refine ⟨nested_set h hnested, fun m t' => ?_⟩
  rw [exists_set_iff ht, h.held]
  split
  · rename_i heq
    subst heq
    simp [ht, hsame]
  · rfl

theorem valid_empty : (empty : LockSystem μ).Valid rank where
  nested := by simp [empty]
  held := by simp [empty]

/-! ## Nobody waits in a circle -/

theorem waits_eq_some {t : ℕ} {m : μ} (h : s.waits t = some m) :
    ∃ body tasks, s.threads[t]? = some (.run (.locked m body) :: tasks) := by
  rw [waits] at h
  split at h
  · rename_i body tasks ht
    obtain ⟨-, ⟨⟩⟩ := Option.ite_none_right_eq_some.mp h
    exact ⟨body, tasks, ht⟩
  · cases h

/-- A thread that holds a mutex waits only for one of a higher rank. -/
theorem Valid.rank_lt (h : s.Valid rank) {t : ℕ} {m m' : μ} (hholder : s.holder m = some t)
    (hwaits : s.waits t = some m') : rank m < rank m' := by
  obtain ⟨body, tasks, ht⟩ := waits_eq_some hwaits
  obtain ⟨tasks', ht', hmem⟩ := (h.held m t).mp hholder
  rw [ht] at ht'
  cases ht'
  obtain ⟨⟨hle, -⟩, hnested⟩ := h.nested t _ ht
  exact Nat.lt_of_lt_of_le (hnested.rank_lt (by simpa using hmem)) hle

/-- Whoever waits for a mutex waits in the end for a thread that does not. -/
theorem Valid.waitEnds (h : s.Valid rank) {top : ℕ} (htop : ∀ m, rank m < top) (t : ℕ) :
    s.WaitEnds t := by
  have hchain : ∀ (n t : ℕ) (m : μ), top - rank m = n → s.waits t = some m →
      s.WaitEnds t := by
    intro n
    induction n using Nat.strongRecOn with
    | _ n ih =>
        intro t m hn hwaits
        have hsome : (s.holder m).isSome = true := by
          rw [waits] at hwaits
          split at hwaits
          · obtain ⟨hsome, ⟨⟩⟩ := Option.ite_none_right_eq_some.mp hwaits
            exact hsome
          · cases hwaits
        obtain ⟨u, hu⟩ := Option.isSome_iff_exists.mp hsome
        refine .waits hwaits hu ?_
        cases hnext : s.waits u with
        | none => exact .runs hnext
        | some m' =>
            have hlt := h.rank_lt hu hnext
            have hbound := htop m'
            exact ih (top - rank m') (by omega) u m' rfl hnext
  cases hwaits : s.waits t with
  | none => exact .runs hwaits
  | some m => exact hchain _ t m rfl hwaits

/-! ## Steps -/

variable [DecidableEq μ]

theorem Valid.lock (h : s.Valid rank) {t : ℕ} {m : μ} {body : LockProg μ}
    {tasks : List (LockTask μ)} (ht : s.threads[t]? = some (.run (.locked m body) :: tasks))
    (hfree : s.holder m = none) :
    Valid rank { s with
      threads := s.threads.set t (.run body :: .unlock m :: tasks)
      holder := Function.update s.holder m (some t) } := by
  obtain ⟨⟨hle, hbody⟩, htasks⟩ := h.nested t _ ht
  refine ⟨nested_set h ⟨hbody, hle, htasks⟩, fun m' t' => ?_⟩
  rw [exists_set_iff ht]
  by_cases hm : m' = m
  · subst hm
    have hnobody : ¬ ∃ ks, s.threads[t']? = some ks ∧ .unlock m' ∈ ks := by
      rw [← h.held, hfree]
      simp
    by_cases heq : t' = t
    · simp [heq]
    · simp [heq, Ne.symm heq, hnobody]
  · have hheld := h.held m' t'
    simp only [Function.update_of_ne hm]
    rw [hheld]
    split
    · rename_i heq
      subst heq
      simp [ht, hm]
    · rfl

theorem Valid.unlock (h : s.Valid rank) {t : ℕ} {m : μ} {tasks : List (LockTask μ)}
    (ht : s.threads[t]? = some (.unlock m :: tasks)) :
    Valid rank { s with
      threads := s.threads.set t tasks
      holder := Function.update s.holder m none } := by
  obtain ⟨hle, htasks⟩ := h.nested t _ ht
  have hholder : s.holder m = some t := (h.held m t).mpr ⟨_, ht, List.mem_cons_self⟩
  refine ⟨nested_set h htasks, fun m' t' => ?_⟩
  rw [exists_set_iff ht]
  by_cases hm : m' = m
  · subst hm
    -- the mutex was locked once, and by nobody else
    have hgone : .unlock m' ∉ tasks := fun hmem =>
      absurd (htasks.rank_lt hmem) (Nat.not_lt.mpr hle)
    have hothers : t' ≠ t → ¬ ∃ ks, s.threads[t']? = some ks ∧ .unlock m' ∈ ks := by
      intro hne hks
      rw [← h.held, hholder] at hks
      exact hne (Option.some.inj hks).symm
    by_cases heq : t' = t
    · simp [heq, hgone]
    · simp [heq, hothers heq]
  · have hheld := h.held m' t'
    simp only [Function.update_of_ne hm]
    rw [hheld]
    split
    · rename_i heq
      subst heq
      simp [ht, hm]
    · rfl

/-- Every thread takes the mutexes in order. -/
theorem Valid.next {a : LockAction μ} (h : s.Valid rank)
    (hspawn : ∀ p, a = .spawn p → p.Ordered rank 0) (hnext : s.next a = some s') :
    s'.Valid rank := by
  cases a with
  | spawn p =>
      cases hnext
      exact h.spawn (hspawn p rfl)
  | step t choice =>
      obtain ⟨tasks, ht, hstep⟩ := Option.bind_eq_some_iff.mp hnext
      have hnested := h.nested t tasks ht
      cases tasks with
      | nil => cases hstep
      | cons task tasks =>
          cases task with
          | unlock m =>
              cases hstep
              exact h.unlock ht
          | run p =>
              obtain ⟨hp, htasks⟩ := hnested
              cases p with
              | work =>
                  cases hstep
                  exact h.move ht htasks (by simp)
              | seq p q =>
                  cases hstep
                  exact h.move ht ⟨hp.1, hp.2, htasks⟩ (by simp)
              | either p q =>
                  cases hstep
                  cases choice
                  · exact h.move ht ⟨hp.2, htasks⟩ (by simp)
                  · exact h.move ht ⟨hp.1, htasks⟩ (by simp)
              | loop body =>
                  cases hstep
                  cases choice
                  · exact h.move ht htasks (by simp)
                  · exact h.move ht ⟨hp, hp, htasks⟩ (by simp)
              | locked m body =>
                  obtain ⟨hfree, ⟨⟩⟩ := Option.ite_none_right_eq_some.mp hstep
                  exact h.lock ht hfree

/-- A thread that does not wait and is not finished can go on. -/
theorem next_isSome {t : ℕ} {task : LockTask μ} {tasks : List (LockTask μ)} (choice : Bool)
    (ht : s.threads[t]? = some (task :: tasks)) (hwaits : s.waits t = none) :
    (s.next (.step t choice)).isSome = true := by
  cases task with
  | unlock m => simp [LockSystem.next, ht, stepThread]
  | run p =>
      cases p with
      | locked m body =>
          have hfree : s.holder m = none := by simpa [waits, ht] using hwaits
          simp [LockSystem.next, ht, stepThread, hfree]
      | _ => simp [LockSystem.next, ht, stepThread]

/-- As long as some thread is not finished, one of them can go on. -/
theorem Valid.progress (h : s.Valid rank) {top : ℕ} (htop : ∀ m, rank m < top) {t : ℕ}
    {task : LockTask μ} {tasks : List (LockTask μ)} (ht : s.threads[t]? = some (task :: tasks)) :
    ∃ u, ∀ choice, (s.next (.step u choice)).isSome = true := by
  have hends := h.waitEnds htop t
  induction hends generalizing task tasks with
  | runs hwaits => exact ⟨_, fun choice => next_isSome choice ht hwaits⟩
  | waits hwaits hholder _ ih =>
      obtain ⟨ks, hks, hmem⟩ := (h.held _ _).mp hholder
      cases ks with
      | nil => simp at hmem
      | cons task' tasks' => exact ih hks

end LockSystem

end Concurrency

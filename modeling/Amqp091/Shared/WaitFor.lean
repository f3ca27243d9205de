import Mathlib.Logic.Basic

/-! # Wait-for graphs

Threads that hold mutexes and wait for them, and threads that are suspended until something
else happens. -/

namespace Concurrency

variable {τ μ : Type}

structure WaitGraph (τ μ : Type) where
  waits : τ → Option μ
  holder : μ → Option τ
  suspended : τ → Prop

namespace WaitGraph

variable {g : WaitGraph τ μ} {t : τ}

/-- A thread that cannot go on before a suspended one does: it is suspended, or it waits for a
mutex that such a thread holds. -/
inductive Blocked (g : WaitGraph τ μ) : τ → Prop
  | suspended {t : τ} (h : g.suspended t) : Blocked g t
  | waits {t u : τ} {m : μ} (hwaits : g.waits t = some m) (hholder : g.holder m = some u)
      (hblocked : Blocked g u) : Blocked g t

theorem not_blocked_of_running (hwaits : g.waits t = none) (hsuspended : ¬g.suspended t) :
    ¬g.Blocked t := by
  intro h
  cases h with
  | suspended h => exact hsuspended h
  | waits hm => simp [hwaits] at hm

end WaitGraph

end Concurrency

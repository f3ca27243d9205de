import Mathlib.Data.List.Basic

/-! # Runs of transition systems

A system is a partial transition function over actions; `none` means that the action is
not enabled. Runs may be restricted to actions that meet a condition on the state they
are taken in. -/

namespace Transition

variable {σ α : Type}

/-- `Run next guard s as s'`: the actions `as`, each allowed where it is taken, lead from
`s` to `s'`. -/
inductive Run (next : σ → α → Option σ) (guard : σ → α → Prop) : σ → List α → σ → Prop
  | nil (s : σ) : Run next guard s [] s
  | cons {s m s' : σ} {a : α} {as : List α} (hguard : guard s a) (hnext : next s a = some m)
      (hrest : Run next guard m as s') : Run next guard s (a :: as) s'

variable {next : σ → α → Option σ} {guard : σ → α → Prop} {s s' : σ} {as : List α}

/-- What every allowed step preserves holds at the end of a run. -/
theorem Run.invariant {P : σ → Prop} (h : Run next guard s as s') (hinit : P s)
    (hstep : ∀ s a s', P s → guard s a → next s a = some s' → P s') : P s' := by
  induction h with
  | nil s => exact hinit
  | cons hguard hnext _ ih => exact ih (hstep _ _ _ hinit hguard hnext)

/-- The same for a property of the state and of the actions that have led there. -/
theorem Run.history {P : List α → σ → Prop} (h : Run next guard s as s') (hinit : P [] s)
    (hstep : ∀ past s a s', P past s → guard s a → next s a = some s' → P (past ++ [a]) s') :
    P as s' := by
  have hgeneral : ∀ past, P past s → P (past ++ as) s' := by
    clear hinit
    induction h with
    | nil s =>
        intro past hpast
        rwa [List.append_nil]
    | cons hguard hnext _ ih =>
        intro past hpast
        rw [List.append_cons]
        exact ih _ (hstep _ _ _ _ hpast hguard hnext)
  exact hgeneral [] hinit

theorem Run.append {m : σ} {bs : List α} (h : Run next guard s as m)
    (h' : Run next guard m bs s') : Run next guard s (as ++ bs) s' := by
  induction h with
  | nil => exact h'
  | cons hguard hnext _ ih => exact .cons hguard hnext (ih h')

theorem Run.append_iff {bs : List α} :
    Run next guard s (as ++ bs) s' ↔ ∃ m, Run next guard s as m ∧ Run next guard m bs s' := by
  constructor
  · intro h
    induction as generalizing s with
    | nil => exact ⟨s, .nil s, h⟩
    | cons a as ih =>
        cases h with
        | cons hguard hnext hrest =>
            obtain ⟨m, hfirst, hsecond⟩ := ih hrest
            exact ⟨m, .cons hguard hnext hfirst, hsecond⟩
  · rintro ⟨m, hfirst, hsecond⟩
    exact hfirst.append hsecond

theorem Run.nil_iff : Run next guard s [] s' ↔ s' = s := by
  constructor
  · intro h
    cases h
    rfl
  · rintro rfl
    exact .nil s'

theorem Run.cons_iff {a : α} :
    Run next guard s (a :: as) s' ↔
      guard s a ∧ ∃ m, next s a = some m ∧ Run next guard m as s' := by
  constructor
  · intro h
    cases h with
    | cons hguard hnext hrest => exact ⟨hguard, _, hnext, hrest⟩
  · rintro ⟨hguard, m, hnext, hrest⟩
    exact .cons hguard hnext hrest

/-- A run met the condition at all of its steps if breaking it, in a state that has what
all steps preserve, leaves a mark that no step takes away and that the last state does not
have. -/
theorem Run.guarded {Inv Bad : σ → Prop} (h : Run next (fun _ _ => True) s as s')
    (hinit : Inv s) (hinv : ∀ s a s', Inv s → next s a = some s' → Inv s')
    (hmark : ∀ s a s', Inv s → next s a = some s' → ¬ guard s a → Bad s')
    (hkeep : ∀ s a s', next s a = some s' → Bad s → Bad s') (hgood : ¬ Bad s') :
    Run next guard s as s' := by
  induction h with
  | nil s => exact .nil s
  | cons _ hnext hrest ih =>
      refine .cons ?_ hnext (ih (hinv _ _ _ hinit hnext) hgood)
      by_contra hguard
      exact hgood (hrest.invariant (hmark _ _ _ hinit hnext hguard)
        fun s a s' hbad _ hstep => hkeep s a s' hstep hbad)

/-- A run is no longer than what its steps take away from a bound. -/
theorem Run.length_le {Inv : σ → Prop} {bound : σ → ℕ} (h : Run next guard s as s')
    (hinit : Inv s) (hinv : ∀ s a s', Inv s → guard s a → next s a = some s' → Inv s')
    (hless : ∀ s a s', Inv s → guard s a → next s a = some s' → bound s' < bound s) :
    as.length + bound s' ≤ bound s := by
  induction h with
  | nil s => simp
  | cons hguard hnext _ ih =>
      have hlength := ih (hinv _ _ _ hinit hguard hnext)
      have hstep := hless _ _ _ hinit hguard hnext
      simp only [List.length_cons]
      omega

/-- Takes the actions one after the other, as long as each is allowed and enabled. -/
def exec (next : σ → α → Option σ) (guard : σ → α → Prop) [∀ s a, Decidable (guard s a)] :
    σ → List α → Option σ
  | s, [] => some s
  | s, a :: as => if guard s a then (next s a).bind fun m => exec next guard m as else none

theorem Run.of_exec [∀ s a, Decidable (guard s a)] (h : exec next guard s as = some s') :
    Run next guard s as s' := by
  induction as generalizing s with
  | nil =>
      cases h
      exact .nil _
  | cons a as ih =>
      rw [exec] at h
      split at h
      · obtain ⟨m, hnext, hrest⟩ := Option.bind_eq_some_iff.mp h
        exact .cons ‹_› hnext (ih hrest)
      · cases h

/-! ## Runs as another system sees them -/

section Trace

variable {τ β : Type} {next' : τ → β → Option τ} {guard' : τ → β → Prop} {view : σ → τ}
  {does : σ → α → Option β}

/-- Both systems take the same actions. -/
theorem Run.map {next' : τ → α → Option τ} (view : σ → τ) (h : Run next guard s as s')
    (hstep : ∀ s a s', next s a = some s' → next' (view s) a = some (view s')) :
    Run next' (fun _ _ => True) (view s) as (view s') := by
  induction h with
  | nil s => exact .nil _
  | cons _ hnext _ ih => exact .cons trivial (hstep _ _ _ hnext) ih

/-- What the actions of a run do in another system, each at most one action there. -/
def trace (next : σ → α → Option σ) (does : σ → α → Option β) : σ → List α → List β
  | _, [] => []
  | s, a :: as => (does s a).toList ++ (next s a).elim [] fun m => trace next does m as

/-- If every step is one of the other system, or changes nothing that is seen there, so is
every run. -/
theorem Run.traced {Inv : σ → Prop} (h : Run next guard s as s') (hinit : Inv s)
    (hinv : ∀ s a s', Inv s → guard s a → next s a = some s' → Inv s')
    (hstep : ∀ s a s', a ∈ as → Inv s → guard s a → next s a = some s' →
      Run next' guard' (view s) (does s a).toList (view s')) :
    Run next' guard' (view s) (trace next does s as) (view s') := by
  induction h with
  | nil s => exact .nil _
  | cons hguard hnext _ ih =>
      have hfirst := hstep _ _ _ List.mem_cons_self hinit hguard hnext
      have hrest := ih (hinv _ _ _ hinit hguard hnext)
        fun s a s' ha => hstep s a s' (List.mem_cons_of_mem _ ha)
      rw [trace, hnext]
      exact hfirst.append hrest

theorem countP_trace_le {p : α → Bool} {q : β → Bool}
    (h : ∀ s a b, does s a = some b → q b = true → p a = true) (s : σ) (as : List α) :
    (trace next does s as).countP q ≤ as.countP p := by
  induction as generalizing s with
  | nil => exact Nat.le_refl _
  | cons a as ih =>
      have hfirst : (does s a).toList.countP q ≤ if p a then 1 else 0 := by
        cases hdoes : does s a with
        | none => simp
        | some b =>
            by_cases hq : q b = true
            · simp [hq, h s a b hdoes hq]
            · simp [hq]
      have hrest : ((next s a).elim [] fun m => trace next does m as).countP q ≤ as.countP p := by
        cases next s a with
        | none => simp
        | some m => exact ih m
      rw [trace, List.countP_append, List.countP_cons, Nat.add_comm]
      exact Nat.add_le_add hrest hfirst

end Trace

end Transition

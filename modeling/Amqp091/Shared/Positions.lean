import Mathlib.Algebra.GroupWithZero.Nat
import Mathlib.Data.List.Basic

/-! # Positions in a list that grows or changes at one place -/

namespace Positions

variable {α β : Type} {l : List α} {x y : α} {i j : ℕ}

/-- What stands in a list with a new last element. -/
theorem getElem?_concat_cases (h : (l ++ [x])[i]? = some y) :
    l[i]? = some y ∨ i = l.length ∧ y = x := by
  rw [List.getElem?_append] at h
  split at h
  · exact .inl h
  · next hi =>
    obtain ⟨hlt, rfl⟩ := List.getElem?_eq_some_iff.mp h
    rw [List.length_singleton] at hlt
    exact .inr ⟨by omega, by simp⟩

/-- What stands in a list with one element replaced. -/
theorem getElem?_set_cases (h : (l.set i x)[j]? = some y) :
    j = i ∧ y = x ∨ j ≠ i ∧ l[j]? = some y := by
  rw [List.getElem?_set] at h
  split at h
  · next hij =>
    obtain ⟨-, heq⟩ := Option.ite_none_right_eq_some.mp h
    cases heq
    exact .inl ⟨hij.symm, rfl⟩
  · next hij => exact .inr ⟨fun heq => hij heq.symm, h⟩

theorem map_modify_eq {f : α → α} {g : α → β} (hf : ∀ x, g (f x) = g x) :
    (l.modify i f).map g = l.map g := by
  apply List.ext_getElem?
  intro j
  simp only [List.getElem?_map, List.getElem?_modify]
  cases l[j]? with
  | none => rfl
  | some x =>
      by_cases hij : i = j
      · simp [hij, hf]
      · simp [hij]

theorem map_set_eq {g : α → β} (hx : l[i]? = some x) (hy : g y = g x) :
    (l.set i y).map g = l.map g := by
  apply List.ext_getElem?
  intro j
  rw [List.getElem?_map, List.getElem?_map, List.getElem?_set]
  split
  · next hij =>
    subst hij
    rw [if_pos (List.getElem?_eq_some_iff.mp hx).1, hx, Option.map_some, Option.map_some, hy]
  · rfl

/-- A sum over a list of which one element is replaced. -/
theorem sum_map_set {g : α → ℕ} (hx : l[i]? = some x) (y : α) :
    ((l.set i y).map g).sum + g x = (l.map g).sum + g y := by
  induction l generalizing i with
  | nil => simp at hx
  | cons z l ih =>
      cases i with
      | zero =>
          simp only [List.getElem?_cons_zero, Option.some.injEq] at hx
          subst hx
          simp only [List.set_cons_zero, List.map_cons, List.sum_cons]
          omega
      | succ i =>
          have hrest := ih (by simpa using hx)
          simp only [List.set_cons_succ, List.map_cons, List.sum_cons]
          omega

end Positions

import Mathlib.Tactic

/-! Lists in which the element of one place is another one. -/
namespace Linkage

variable {α β : Type} {xs : List α} {i : Nat} {x x' : α}

theorem set_of_getElem? (h : xs[i]? = some x) : xs.set i x = xs := by
  obtain ⟨hi, rfl⟩ := List.getElem?_eq_some_iff.mp h
  exact List.set_getElem_self hi

theorem map_set_of_same (f : α → β) (h : xs[i]? = some x) (hf : f x' = f x) :
    (xs.set i x').map f = xs.map f := by
  have hmapped : (xs.map f)[i]? = some (f x) := by rw [List.getElem?_map, h, Option.map_some]
  rw [List.map_set, hf, set_of_getElem? hmapped]

theorem countP_set_add (p : α → Bool) (h : xs[i]? = some x) (x' : α) :
    (xs.set i x').countP p + (if p x then 1 else 0) = xs.countP p + if p x' then 1 else 0 := by
  obtain ⟨hi, rfl⟩ := List.getElem?_eq_some_iff.mp h
  rw [List.countP_set hi]
  by_cases hp : p xs[i] = true
  · have hpos : 0 < xs.countP p := List.countP_pos_iff.mpr ⟨xs[i], List.getElem_mem hi, hp⟩
    simp only [hp, if_true]
    omega
  · simp only [hp, if_false, Bool.false_eq_true]
    omega

theorem modify_middle (f : α → α) (before : List α) (x : α) (after : List α) :
    (before ++ x :: after).modify before.length f = before ++ f x :: after := by
  induction before with
  | nil => rfl
  | cons y before ih => exact congrArg (y :: ·) ih

/-- An element more makes no difference where it is what is taken for a missing one. -/
theorem getD_concat_default (xs : List α) (x : α) (i : Nat) : (xs ++ [x]).getD i x = xs.getD i x := by
  simp only [List.getD_eq_getElem?_getD, List.getElem?_append]
  split
  · rfl
  · next hi =>
    rw [List.getElem?_eq_none (Nat.le_of_not_lt hi), List.getElem?_singleton]
    split <;> rfl

end Linkage

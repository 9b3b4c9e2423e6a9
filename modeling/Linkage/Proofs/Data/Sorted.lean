import Linkage.Data.Sorted
import Mathlib.Tactic
import Mathlib.Data.String.Basic

/-! A sorted list without repetition is known by its strings. -/
namespace Linkage

@[simp] theorem mem_insertDistinct {x y : String} {ys : List String} :
    y ∈ insertDistinct x ys ↔ y = x ∨ y ∈ ys := by
  induction ys with
  | nil => simp [insertDistinct]
  | cons z zs ih =>
    unfold insertDistinct
    split
    · simp
    · split
      · next heq => simp [heq]
      · simp only [List.mem_cons, ih]
        tauto

@[simp] theorem mem_sortDistinct {y : String} {xs : List String} :
    y ∈ sortDistinct xs ↔ y ∈ xs := by
  induction xs with
  | nil => simp [sortDistinct]
  | cons x xs ih => simp [sortDistinct, ih]

theorem pairwise_insertDistinct {x : String} {ys : List String} (h : ys.Pairwise (· < ·)) :
    (insertDistinct x ys).Pairwise (· < ·) := by
  induction ys with
  | nil => exact List.pairwise_singleton _ x
  | cons z zs ih =>
    obtain ⟨hz, hzs⟩ := List.pairwise_cons.mp h
    unfold insertDistinct
    split
    · next hlt =>
      refine List.pairwise_cons.mpr ⟨fun y hy => ?_, h⟩
      rcases List.mem_cons.mp hy with rfl | hy
      · exact hlt
      · exact hlt.trans (hz y hy)
    · next hle =>
      split
      · exact h
      · next hne =>
        refine List.pairwise_cons.mpr ⟨fun y hy => ?_, ih hzs⟩
        rcases mem_insertDistinct.mp hy with rfl | hy
        · exact lt_of_le_of_ne (not_lt.mp hle) (Ne.symm hne)
        · exact hz y hy

theorem pairwise_sortDistinct (xs : List String) : (sortDistinct xs).Pairwise (· < ·) := by
  induction xs with
  | nil => exact List.Pairwise.nil
  | cons x xs ih => exact pairwise_insertDistinct ih

theorem nodup_sortDistinct (xs : List String) : (sortDistinct xs).Nodup :=
  (pairwise_sortDistinct xs).imp ne_of_lt

/-- The order in which strings come in and how often does not matter. -/
theorem sortDistinct_eq_iff {xs ys : List String} :
    sortDistinct xs = sortDistinct ys ↔ ∀ x, x ∈ xs ↔ x ∈ ys := by
  constructor
  · intro h x
    rw [← mem_sortDistinct, h, mem_sortDistinct]
  · intro h
    have hperm : (sortDistinct xs).Perm (sortDistinct ys) := by
      rw [List.perm_ext_iff_of_nodup (nodup_sortDistinct xs) (nodup_sortDistinct ys)]
      simpa using h
    exact hperm.eq_of_pairwise' (pairwise_sortDistinct xs) (pairwise_sortDistinct ys)

end Linkage

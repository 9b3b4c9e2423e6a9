import Linkage.Text.Blank
import Mathlib.Data.List.TakeDrop
import Mathlib.Data.List.TakeWhile
import Mathlib.Tactic

/-! White space around a text. -/
namespace Linkage

theorem exists_eq_trim (cs : List Char) :
    ∃ before after, cs = before ++ trimEnd (trimStart cs) ++ after ∧
      ∀ c ∈ before ++ after, isBlank c = true := by
  let rest := trimStart cs
  have hstart : cs = cs.takeWhile isBlank ++ rest := List.takeWhile_append_dropWhile.symm
  have hend : rest = trimEnd rest ++ (rest.reverse.takeWhile isBlank).reverse := by
    rw [trimEnd, ← List.reverse_append, List.takeWhile_append_dropWhile, List.reverse_reverse]
  refine ⟨cs.takeWhile isBlank, (rest.reverse.takeWhile isBlank).reverse, ?_, ?_⟩
  · rw [List.append_assoc, ← hend]
    exact hstart
  · intro c hc
    rcases List.mem_append.mp hc with hbefore | hafter
    · exact List.mem_takeWhile_imp hbefore
    · exact List.mem_takeWhile_imp (List.mem_reverse.mp hafter)

theorem trim_eq_of_blank {before core after : List Char}
    (hblank : ∀ c ∈ before ++ after, isBlank c = true) (hcore : ∀ c ∈ core, isBlank c = false)
    (hne : core ≠ []) : trimEnd (trimStart (before ++ core ++ after)) = core := by
  have hfront (cs rest : List Char) (hcs : ∀ c ∈ cs, isBlank c = false) (h : cs ≠ []) :
      (cs ++ rest).dropWhile isBlank = cs ++ rest := by
    cases cs with
    | nil => exact absurd rfl h
    | cons c cs => exact List.dropWhile_cons_of_neg (by simp [hcs c List.mem_cons_self])
  have hbefore : ∀ c ∈ before, isBlank c = true := fun c hc =>
    hblank c (List.mem_append_left _ hc)
  have hafter : ∀ c ∈ after.reverse, isBlank c = true := fun c hc =>
    hblank c (List.mem_append_right _ (List.mem_reverse.mp hc))
  have hreversed : ∀ c ∈ core.reverse, isBlank c = false := fun c hc =>
    hcore c (List.mem_reverse.mp hc)
  have hstart : trimStart (before ++ core ++ after) = core ++ after := by
    rw [trimStart, List.append_assoc, List.dropWhile_append_of_pos hbefore]
    exact hfront core after hcore hne
  have hend : (core.reverse ++ []).dropWhile isBlank = core.reverse ++ [] :=
    hfront core.reverse [] hreversed (by simpa using hne)
  rw [List.append_nil] at hend
  rw [hstart, trimEnd, List.reverse_append, List.dropWhile_append_of_pos hafter, hend,
    List.reverse_reverse]

end Linkage

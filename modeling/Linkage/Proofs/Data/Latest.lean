import Mathlib.Tactic

/-! Lists in which of elements with one key the last one counts. -/
namespace Linkage

variable {α κ : Type} {key : α → κ} {as : List α} {a b : α}

/-- Behind the element there is none with its key. -/
def LatestOf (key : α → κ) (as : List α) (a : α) : Prop :=
  ∃ front back, as = front ++ a :: back ∧ ∀ b ∈ back, key b ≠ key a

theorem LatestOf.mem (h : LatestOf key as a) : a ∈ as := by
  obtain ⟨front, back, rfl, -⟩ := h
  simp

theorem not_latestOf_nil (a : α) : ¬ LatestOf key [] a := fun h => List.not_mem_nil h.mem

theorem latestOf_concat :
    LatestOf key (as ++ [b]) a ↔ a = b ∨ LatestOf key as a ∧ key a ≠ key b := by
  constructor
  · rintro ⟨front, back, heq, hback⟩
    rcases List.eq_nil_or_concat' back with rfl | ⟨back, c, rfl⟩
    · exact Or.inl (List.singleton_inj.mp (List.append_inj_right' heq rfl)).symm
    · rw [← List.cons_append, ← List.append_assoc] at heq
      obtain ⟨rfl, hlast⟩ := List.append_inj' heq rfl
      obtain rfl := List.singleton_inj.mp hlast
      exact Or.inr ⟨⟨front, back, rfl, fun c hc => hback c (List.mem_append_left _ hc)⟩,
        (hback b (by simp)).symm⟩
  · rintro (rfl | ⟨⟨front, back, rfl, hback⟩, hne⟩)
    · exact ⟨as, [], rfl, by simp⟩
    · refine ⟨front, back ++ [b], by simp, fun c hc => ?_⟩
      rcases List.mem_append.mp hc with hc | hc
      · exact hback c hc
      · rw [List.mem_singleton.mp hc]
        exact hne.symm

/-- Of the elements with one key there is one that counts. -/
theorem exists_latestOf (h : a ∈ as) : ∃ b, LatestOf key as b ∧ key b = key a := by
  induction as using List.reverseRecOn with
  | nil => cases h
  | append_singleton as c ih =>
    by_cases hsame : key a = key c
    · exact ⟨c, latestOf_concat.mpr (Or.inl rfl), hsame.symm⟩
    · rcases List.mem_append.mp h with h | h
      · obtain ⟨b, hb, heq⟩ := ih h
        exact ⟨b, latestOf_concat.mpr (Or.inr ⟨hb, heq ▸ hsame⟩), heq⟩
      · exact absurd (congrArg key (List.mem_singleton.mp h)) hsame

/-- A search from behind finds the element that counts. -/
theorem find?_reverse_eq_some_iff [DecidableEq κ] {k : κ} :
    as.reverse.find? (fun a => key a == k) = some a ↔ LatestOf key as a ∧ key a = k := by
  rw [List.find?_eq_some_iff_append, beq_iff_eq]
  constructor
  · rintro ⟨rfl, back, front, heq, hback⟩
    have hsplit : as = front.reverse ++ a :: back.reverse := by
      rw [← List.reverse_reverse as, heq]
      simp
    refine ⟨⟨front.reverse, back.reverse, hsplit, fun b hb => ?_⟩, rfl⟩
    simpa using hback b (List.mem_reverse.mp hb)
  · rintro ⟨⟨front, back, rfl, hback⟩, rfl⟩
    refine ⟨rfl, back.reverse, front.reverse, by simp, fun b hb => ?_⟩
    simpa using hback b (List.mem_reverse.mp hb)

end Linkage

import Linkage.Hierarchy.Basic
import Mathlib.Tactic

/-! What stands in a tree of supertypes. -/
namespace Linkage
namespace Hierarchy

theorem sizeOf_lt_of_mem_supertypes {k h : Hierarchy} (hk : k ∈ h.supertypes) :
    sizeOf k < sizeOf h := by
  cases h with
  | resolved name isInterface superclass interfaces =>
    rcases List.mem_append.mp hk with hk | hk
    · rw [Option.mem_toList.mp hk]
      simp
      omega
    · have hlt := List.sizeOf_lt_of_mem hk
      simp
      omega
  | unresolved name => simp [supertypes] at hk
  | cyclePoint name => simp [supertypes] at hk

/-- Trees are finite: what holds of a tree when it holds of its supertypes holds of all trees. -/
theorem inductionOnSupertypes {motive : Hierarchy → Prop}
    (step : ∀ h, (∀ k ∈ h.supertypes, motive k) → motive h) (h : Hierarchy) : motive h :=
  step h fun k hk =>
    have := sizeOf_lt_of_mem_supertypes hk
    inductionOnSupertypes step k
termination_by sizeOf h

theorem above_eq (h : Hierarchy) : h.above = h.supertypes.flatMap nodes := by
  rw [above, nodes_eq, List.tail_cons]

theorem self_mem_nodes (h : Hierarchy) : h ∈ h.nodes := by
  rw [nodes_eq]
  exact List.mem_cons_self

theorem mem_nodes {n h : Hierarchy} : n ∈ h.nodes ↔ n = h ∨ n ∈ h.above := by
  rw [nodes_eq, above_eq, List.mem_cons]

theorem mem_above {n h : Hierarchy} : n ∈ h.above ↔ ∃ k ∈ h.supertypes, n ∈ k.nodes := by
  rw [above_eq, List.mem_flatMap]

theorem nodes_trans {n k h : Hierarchy} (hn : n ∈ k.nodes) (hk : k ∈ h.nodes) : n ∈ h.nodes := by
  induction h using inductionOnSupertypes with
  | step h ih =>
    rcases mem_nodes.mp hk with rfl | hk
    · exact hn
    · obtain ⟨s, hs, hk⟩ := mem_above.mp hk
      exact mem_nodes.mpr (Or.inr (mem_above.mpr ⟨s, hs, ih s hs hk⟩))

end Hierarchy
end Linkage

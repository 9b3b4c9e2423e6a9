import Linkage.Host.Version
import Mathlib.Tactic

/-! Versions of hosts are in a total order, in which those with the same parts are one. -/
namespace Linkage

namespace VersionPart

private theorem transCmp_nat : Std.TransCmp (Ord.compare : Nat → Nat → Ordering) := inferInstance

private theorem lawfulEqCmp_nat : Std.LawfulEqCmp (Ord.compare : Nat → Nat → Ordering) :=
  inferInstance

instance : Std.TransCmp compare where
  eq_swap {a b} := by
    cases a <;> cases b
    · exact transCmp_nat.eq_swap
    all_goals rfl
  isLE_trans {a b c} hab hbc := by
    cases c with
    | any => cases a <;> rfl
    | number n =>
      cases b with
      | any => exact absurd hbc Bool.false_ne_true
      | number m =>
        cases a with
        | any => exact absurd hab Bool.false_ne_true
        | number k => exact transCmp_nat.isLE_trans hab hbc

instance : Std.LawfulEqCmp compare where
  compare_self {a} := by
    cases a with
    | number n => exact lawfulEqCmp_nat.compare_self
    | any => rfl
  eq_of_compare {a b} h := by
    cases a <;> cases b
    · exact congrArg number (lawfulEqCmp_nat.eq_of_compare h)
    · exact absurd h (by simp [compare])
    · exact absurd h (by simp [compare])
    · rfl

end VersionPart

namespace HostVersion

instance : Std.TransCmp compare where
  eq_swap :=
    (inferInstance : Std.TransCmp (List.compareLex VersionPart.compare)).eq_swap
  isLE_trans huv hvw :=
    (inferInstance : Std.TransCmp (List.compareLex VersionPart.compare)).isLE_trans huv hvw

theorem compare_eq_iff {v w : HostVersion} : v.compare w = .eq ↔ v.parts = w.parts := by
  have h : Std.LawfulEqCmp (List.compareLex VersionPart.compare) := inferInstance
  exact h.compare_eq_iff_eq

end HostVersion

end Linkage

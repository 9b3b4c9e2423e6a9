import Linkage.Plugin.Version
import Mathlib.Data.String.Basic
import Mathlib.Tactic

/-! Versions of plugins are in a total preorder. It is lexicographic, with a mark for the end of a
version that stands between texts and numbers. -/
namespace Linkage.PluginVersion

/-- What a version has at a place: a part, or its end. -/
abbrev Mark := Option Part

namespace Mark

/-- Texts are older than the end of a version, and numbers are newer. -/
def rank : Mark → Nat
  | some (.text _) => 0
  | none => 1
  | some (.number _) => 2

def number : Mark → Nat
  | some (.number n) => n
  | _ => 0

def text : Mark → String
  | some (.text t) => t
  | _ => ""

/-- Marks of one rank are in the order of their numbers, or of their texts. -/
def compare : Mark → Mark → Ordering :=
  compareLex (compareOn rank) (compareLex (compareOn number) (compareOn text))

instance : Std.TransCmp compare := by
  unfold compare
  infer_instance

theorem compare_eq_iff {m n : Mark} : compare m n = .eq ↔ m = n := by
  have hkeys : compare m n = .eq ↔ m.rank = n.rank ∧ m.number = n.number ∧ m.text = n.text := by
    simp [compare, compareLex_eq_eq, compareOn]
  rw [hkeys]
  constructor
  · rintro ⟨hrank, hnumber, htext⟩
    -- the rank tells the three kinds of marks apart, and each kind has one key of its own
    rcases m with _ | (k | s) <;> rcases n with _ | (l | t) <;> simp_all [rank, number, text]
  · rintro rfl
    exact ⟨rfl, rfl, rfl⟩

instance : Std.LawfulEqCmp compare where
  compare_self := compare_eq_iff.mpr rfl
  eq_of_compare := compare_eq_iff.mp

/-- Parts are marks in the order of parts. -/
theorem compare_some (p q : Part) : compare (some p) (some q) = p.compare q := by
  cases p with
  | number k =>
    cases q with
    | number l => simp [compare, compareLex, compareOn, rank, number, text, Part.compare]
    | text t => rfl
  | text s =>
    cases q with
    | number l => rfl
    | text t => simp [compare, compareLex, compareOn, rank, number, text, Part.compare]

end Mark

/-- The parts of a version and then its end. -/
def marks (ps : List Part) : List Mark := ps.map some ++ [none]

theorem marks_inj {ps qs : List Part} : marks ps = marks qs ↔ ps = qs := by
  constructor
  · intro h
    have hparts : ps.map some = qs.map some := List.append_cancel_right h
    exact List.map_injective_iff.mpr (Option.some_injective Part) hparts
  · exact congrArg marks

/-- Where one version ends, the mark of its end is compared with what the other goes on with. -/
theorem compareParts_eq (ps qs : List Part) :
    compareParts ps qs = List.compareLex Mark.compare (marks ps) (marks qs) := by
  fun_induction compareParts ps qs with
  | case1 => rfl
  | case2 n qs => rfl
  | case3 t qs => rfl
  | case4 n ps => rfl
  | case5 t ps => rfl
  | case6 p ps q qs ih =>
    have hhead : Mark.compare (some p) (some q) = p.compare q := Mark.compare_some p q
    change (p.compare q).then (compareParts ps qs)
      = List.compareLex Mark.compare (some p :: marks ps) (some q :: marks qs)
    rw [List.compareLex_cons_cons, hhead, ih]

theorem compare_eq_compareLex (a b : String) :
    compare a b = List.compareLex Mark.compare (marks (parts a)) (marks (parts b)) :=
  compareParts_eq (parts a) (parts b)

/-- Versions with the same parts are one, however they are written. -/
theorem compare_eq_iff {a b : String} : compare a b = .eq ↔ parts a = parts b := by
  have hlawful : Std.LawfulEqCmp (List.compareLex Mark.compare) := inferInstance
  rw [compare_eq_compareLex, hlawful.compare_eq_iff_eq, marks_inj]

instance : Std.TransCmp compare where
  eq_swap {a b} := by
    have horiented : Std.OrientedCmp (List.compareLex Mark.compare) := inferInstance
    rw [compare_eq_compareLex a b, compare_eq_compareLex b a]
    exact horiented.eq_swap
  isLE_trans {a b c} hab hbc := by
    have htrans : Std.TransCmp (List.compareLex Mark.compare) := inferInstance
    rw [compare_eq_compareLex] at hab hbc ⊢
    exact htrans.isLE_trans hab hbc

theorem le_iff {a b : String} : le a b = true ↔ (compare a b).isLE = true := by
  unfold le
  cases compare a b <;> decide

theorem le_trans {a b c : String} (hab : le a b = true) (hbc : le b c = true) : le a c = true := by
  rw [le_iff] at hab hbc ⊢
  exact Std.TransCmp.isLE_trans hab hbc

theorem le_total (a b : String) : (le a b || le b a) = true := by
  have hswap : compare a b = (compare b a).swap := Std.OrientedCmp.eq_swap
  unfold le
  rw [hswap]
  cases compare b a <;> decide

/-- Versions are in a total preorder: each is as old as itself, two are compared the other way round
with the opposite answer, and what is not newer than what is not newer is not newer. Versions that are
as old as each other are so to all others; these are those with the same parts. The order is that of
the lists of their marks. -/
theorem compare_total_preorder (a b c : String) :
    compare a a = .eq
      ∧ compare a b = (compare b a).swap
      ∧ (le a b = true ∨ le b a = true)
      ∧ (le a b = true → le b c = true → le a c = true)
      ∧ (compare a b = .eq → compare a c = compare b c ∧ compare c a = compare c b)
      ∧ (compare a b = .eq ↔ parts a = parts b)
      ∧ compare a b = List.compareLex Mark.compare (marks (parts a)) (marks (parts b)) := by
  refine ⟨compare_eq_iff.mpr rfl, Std.OrientedCmp.eq_swap, ?_, le_trans, ?_, compare_eq_iff,
    compare_eq_compareLex a b⟩
  · have htotal := le_total a b
    rwa [Bool.or_eq_true] at htotal
  · intro heq
    exact ⟨Std.TransCmp.congr_left heq, Std.TransCmp.congr_right heq⟩

/-- A text makes a version older than where it ends, and a number newer; zeros in front of a number
and its sign do not count. -/
theorem compare_total_preorder_qualified :
    (le "1.0-rc" "1.0" = true ∧ le "1.0" "1.0.1" = true ∧ le "1.0-rc" "1.0.1" = true)
      ∧ compare "1.0" "1.+00" = .eq ∧ compare "1.0" "1.0-rc" = compare "1.+00" "1.0-rc" := by
  have hqualified : le "1.0-rc" "1.0" = true := by decide
  have hlonger : le "1.0" "1.0.1" = true := by decide
  have hsame : compare "1.0" "1.+00" = .eq := by decide
  obtain ⟨-, -, -, htrans, -⟩ := compare_total_preorder "1.0-rc" "1.0" "1.0.1"
  obtain ⟨-, -, -, -, hcongr, -⟩ := compare_total_preorder "1.0" "1.+00" "1.0-rc"
  exact ⟨⟨hqualified, hlonger, htrans hqualified hlonger⟩, hsame, (hcongr hsame).1⟩

end Linkage.PluginVersion

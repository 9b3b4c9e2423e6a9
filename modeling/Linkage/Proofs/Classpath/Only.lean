import Linkage.Proofs.Classpath.Lookup
import Linkage.Proofs.Data.Sorted

/-! A classpath that is cut down to what it has of one name. -/
namespace Linkage.Classpath

mutual
/-- The same sources with nothing but what they have of that name. -/
def only (name : String) : Classpath → Classpath
  | .empty => .empty
  | .models label classes => .models label (classes.filter (·.name == name))
  | .files label entries => .files label (entries.filter (·.1 == name))
  | .union members => .union (allOnly name members)

private def allOnly (name : String) : List Classpath → List Classpath
  | [] => []
  | m :: ms => m.only name :: allOnly name ms
end

theorem only_union (name : String) (members : List Classpath) :
    (union members).only name = .union (members.map (·.only name)) := by
  have hall (ms : List Classpath) : allOnly name ms = ms.map (·.only name) := by
    induction ms with
    | nil => simp [allOnly]
    | cons m ms ih => simp [allOnly, ih]
  rw [only, hall]

theorem listedNames_only (name : String) (cp : Classpath) :
    (cp.only name).listedNames = cp.listedNames.filter (· == name) := by
  induction cp using inductionOnMembers with
  | empty => rfl
  | models label classes =>
    rw [only, listedNames, listedNames, List.filter_map]
    rfl
  | files label entries =>
    rw [only, listedNames, listedNames, List.filter_map]
    rfl
  | union members ih =>
    rw [only_union, listedNames_union, listedNames_union, List.flatMap_map, List.filter_flatMap]
    exact List.flatMap_congr ih

theorem contains_only (name : String) (cp : Classpath) :
    (cp.only name).contains name = cp.contains name := by
  rw [Bool.eq_iff_iff, contains_iff, contains_iff, listedNames_only]
  simp

private theorem find?_filter_self {α : Type} (p : α → Bool) (as : List α) :
    (as.filter p).find? p = as.find? p := by
  rw [List.find?_filter]
  congr 1
  funext a
  simp

/-- What there is of the name is what there was. -/
theorem lookup_only (name : String) (cp : Classpath) :
    (cp.only name).lookup name = cp.lookup name := by
  induction cp using inductionOnMembers with
  | empty => rfl
  | models label classes =>
    rw [only, lookup, lookup, ← List.filter_reverse, find?_filter_self]
  | files label entries =>
    rw [only, lookup, lookup, ← List.filter_reverse, find?_filter_self]
  | union members ih =>
    have hfind : (members.map (·.only name)).find? (·.contains name)
        = (members.find? (·.contains name)).map (·.only name) := by
      rw [List.find?_map]
      congr 2
      funext m
      exact contains_only name m
    rw [only_union, lookup_union, lookup_union, hfind]
    cases hm : members.find? (·.contains name) with
    | none => rfl
    | some m => exact ih m (List.mem_of_find?_eq_some hm)

theorem classNames_only {name : String} {cp : Classpath} (h : name ∈ cp.classNames) :
    (cp.only name).classNames = [name] := by
  have hsingle : sortDistinct [name] = [name] := rfl
  unfold classNames at h ⊢
  rw [mem_sortDistinct] at h
  rw [← hsingle, sortDistinct_eq_iff, listedNames_only]
  intro x
  rw [List.mem_filter, List.mem_singleton, beq_iff_eq]
  exact ⟨fun hx => hx.2, fun hx => ⟨hx ▸ h, hx⟩⟩

end Linkage.Classpath

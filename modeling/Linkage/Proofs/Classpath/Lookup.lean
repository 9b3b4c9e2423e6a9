import Linkage.Classpath.Basic
import Mathlib.Tactic

/-! What can be found on a classpath is listed there, and has the name it is found under. -/
namespace Linkage.Classpath

theorem inductionOnMembers {motive : Classpath → Prop} (empty : motive .empty)
    (models : ∀ label classes, motive (.models label classes))
    (files : ∀ label entries, motive (.files label entries))
    (union : ∀ members, (∀ m ∈ members, motive m) → motive (.union members)) (cp : Classpath) :
    motive cp :=
  match cp with
  | .empty => empty
  | .models label classes => models label classes
  | .files label entries => files label entries
  | .union members => union members fun m _ => inductionOnMembers empty models files union m

theorem contains_iff {cp : Classpath} {name : String} :
    cp.contains name = true ↔ name ∈ cp.listedNames := by
  induction cp using inductionOnMembers with
  | empty => simp [contains, listedNames]
  | models label classes => simp [contains, listedNames]
  | files label entries => simp [contains, listedNames]
  | union members ih =>
    rw [contains_union, listedNames_union, List.any_eq_true, List.mem_flatMap]
    exact exists_congr fun m => and_congr_right fun hm => ih m hm

/-- What is not there is not found. -/
theorem lookup_of_not_contains {cp : Classpath} {name : String} (h : cp.contains name = false) :
    cp.lookup name = .notFound := by
  have hlisted : name ∉ cp.listedNames := by
    rw [← contains_iff, h]
    exact Bool.false_ne_true
  cases cp with
  | empty => rw [lookup]
  | models label classes =>
    have hnone : classes.reverse.find? (·.name == name) = none := by
      simpa [listedNames] using hlisted
    rw [lookup, hnone]
  | files label entries =>
    have hnone : entries.reverse.find? (·.1 == name) = none := by
      rw [List.find?_eq_none]
      intro e he hname
      have hmem : e.1 ∈ entries.map Prod.fst := List.mem_map_of_mem (List.mem_reverse.mp he)
      rw [beq_iff_eq.mp hname] at hmem
      rw [listedNames] at hlisted
      exact hlisted hmem
    rw [lookup, hnone]
  | union members =>
    have hnone : members.find? (·.contains name) = none := by
      rw [contains_union] at h
      simpa using h
    rw [lookup_union, hnone]
    rfl

theorem decodeNamed_ne_notFound (name : String) (bytes : List UInt8) :
    decodeNamed name bytes ≠ .notFound := by
  unfold decodeNamed
  split
  · simp
  · split <;> simp

/-- What is there is found, or it is not sound. -/
theorem lookup_eq_notFound_iff {cp : Classpath} {name : String} :
    cp.lookup name = .notFound ↔ cp.contains name = false := by
  refine ⟨fun h => ?_, lookup_of_not_contains⟩
  induction cp using inductionOnMembers with
  | empty => rfl
  | models label classes =>
    rw [lookup] at h
    split at h
    · cases h
    · next hnone => simpa [contains] using hnone
  | files label entries =>
    rw [lookup] at h
    split at h
    · exact absurd h (decodeNamed_ne_notFound _ _)
    · next hnone => simpa [contains] using hnone
  | union members ih =>
    rw [lookup_union] at h
    cases hfind : members.find? (·.contains name) with
    | none =>
      rw [contains_union]
      simpa using hfind
    | some m =>
      rw [hfind] at h
      have hnot := ih m (List.mem_of_find?_eq_some hfind) h
      have hcontains : m.contains name = true := List.find?_some hfind
      rw [hnot] at hcontains
      cases hcontains

/-- A class is found under its own name. -/
theorem name_of_lookup {cp : Classpath} {name : String} {c : ClassFile}
    (h : cp.lookup name = .found c) : c.name = name := by
  induction cp using inductionOnMembers with
  | empty => simp [lookup] at h
  | models label classes =>
    rw [lookup] at h
    split at h
    · next d hd =>
      cases h
      simpa using List.find?_some hd
    · cases h
  | files label entries =>
    rw [lookup] at h
    split at h
    · unfold decodeNamed at h
      split at h
      · cases h
      · split at h
        · next hname =>
          cases h
          exact hname
        · cases h
    · cases h
  | union members ih =>
    rw [lookup_union] at h
    cases hfind : members.find? (·.contains name) with
    | none => simp [hfind] at h
    | some m =>
      rw [hfind] at h
      exact ih m (List.mem_of_find?_eq_some hfind) h

theorem class?_eq_some {cp : Classpath} {name : String} {c : ClassFile} :
    cp.class? name = some c ↔ cp.lookup name = .found c := by
  unfold class? Lookup.class?
  split
  · next h => simp [h]
  · next h => simpa using h c

theorem mem_listedNames_of_class? {cp : Classpath} {name : String} {c : ClassFile}
    (h : cp.class? name = some c) : name ∈ cp.listedNames := by
  rw [← contains_iff]
  by_contra hnot
  have hnone := lookup_of_not_contains (Bool.eq_false_of_not_eq_true hnot)
  rw [class?_eq_some, hnone] at h
  exact absurd h (by simp)

/-- What the plugin has, the classpath has from there. -/
def StartsWith (cp plugin : Classpath) : Prop :=
  ∀ name, plugin.contains name = true → cp.lookup name = plugin.lookup name

theorem startsWith_union (plugin : Classpath) (others : List Classpath) :
    (union (plugin :: others)).StartsWith plugin := by
  intro name hname
  rw [lookup_union, List.find?_cons_of_pos hname]
  rfl

theorem StartsWith.class? {cp plugin : Classpath} (h : cp.StartsWith plugin) {name : String}
    {c : ClassFile} (hc : plugin.class? name = some c) : cp.class? name = some c := by
  have hcontains := contains_iff.mpr (mem_listedNames_of_class? hc)
  rw [class?_eq_some] at hc ⊢
  rw [h name hcontains, hc]

end Linkage.Classpath

import Linkage.Proofs.Data.Search
import Linkage.Proofs.Hierarchy.Exploration

/-! What stands above a class: its superclasses, its interfaces, and all its supertypes. -/
namespace Linkage.Classpath

open Relation (ReflTransGen TransGen)

variable {cp : Classpath}

/-- A declaration of `d` names `i` as a direct interface. -/
def ExtendsInterface (cp : Classpath) (d i : String) : Prop := i ∈ cp.interfacesOf d

/-- `chain` is a class and the superclasses above it, up to one that has no superclass or whose
superclass cannot be found. -/
inductive SuperclassChain (cp : Classpath) : ClassFile → List ClassFile → Prop
  | top {c : ClassFile} (hsuper : c.superName.bind cp.class? = none) : SuperclassChain cp c [c]
  | above {c d : ClassFile} {chain : List ClassFile} (hsuper : c.superName.bind cp.class? = some d)
      (hchain : SuperclassChain cp d chain) : SuperclassChain cp c (c :: chain)

theorem name_of_class? {name : String} {c : ClassFile} (h : cp.class? name = some c) :
    c.name = name :=
  name_of_lookup (class?_eq_some.mp h)

theorem class?_name {name : String} {c : ClassFile} (h : cp.class? name = some c) :
    cp.class? c.name = some c := by
  rw [name_of_class? h, h]

theorem class?_of_not_listed {name : String} (h : name ∉ cp.listedNames) : cp.class? name = none := by
  cases hclass : cp.class? name with
  | none => rfl
  | some c => exact absurd (mem_listedNames_of_class? hclass) h

theorem supertypesOf_of_not_listed {name : String} (h : name ∉ cp.listedNames) :
    cp.supertypesOf name = [] := by
  rw [supertypesOf, class?_of_not_listed h]
  rfl

theorem interfacesOf_of_not_listed {name : String} (h : name ∉ cp.listedNames) :
    cp.interfacesOf name = [] := by
  rw [interfacesOf, class?_of_not_listed h]
  rfl

theorem extends_super {c : ClassFile} (hfound : cp.class? c.name = some c) {s : String}
    (hsuper : c.superName = some s) : cp.Extends c.name s := by
  unfold Extends supertypesOf
  rw [hfound]
  simp [ClassFile.supertypes, hsuper]

/-- A class above which there is no cycle never comes back on its chain of superclasses, which the
classes that were `seen` on the way bound. -/
private theorem superclassesFrom_spec (hacyclic : cp.Acyclic) {depth : Nat} {seen : List String}
    (hnodup : seen.Nodup) (hlisted : seen ⊆ cp.listedNames)
    (hdepth : cp.size < depth + seen.length) {c : ClassFile} (hfound : cp.class? c.name = some c)
    (hseen : ∀ n ∈ seen, ReflTransGen cp.Extends n c.name) :
    cp.SuperclassChain c (c :: cp.superclassesFrom depth seen c.superName) := by
  induction depth generalizing seen c with
  | zero =>
    -- more classes would have been seen than there are
    have hlength := (hnodup.subperm hlisted).length_le
    unfold size at hdepth
    omega
  | succ depth ih =>
    unfold superclassesFrom
    cases hsuper : c.superName with
    | none => exact .top (by rw [hsuper]; rfl)
    | some s =>
      have hstep := extends_super hfound hsuper
      have hnew : s ∉ seen := fun hmem => hacyclic s (TransGen.tail' (hseen s hmem) hstep)
      simp only [if_neg hnew]
      cases hclass : cp.class? s with
      | none => exact .top (by rw [hsuper]; exact hclass)
      | some d =>
        obtain rfl := name_of_class? hclass
        refine .above (by rw [hsuper]; exact hclass) (ih (hnodup.cons hnew) ?_ ?_ hclass ?_)
        · exact List.cons_subset.mpr ⟨mem_listedNames_of_class? hclass, hlisted⟩
        · rw [List.length_cons]
          omega
        · intro n hn
          rcases List.mem_cons.mp hn with rfl | hn
          · exact .refl
          · exact (hseen n hn).tail hstep

theorem superclassChain_spec (hacyclic : cp.Acyclic) {c : ClassFile}
    (hfound : cp.class? c.name = some c) : cp.SuperclassChain c (cp.superclassChain c) := by
  refine superclassesFrom_spec hacyclic (List.nodup_singleton _) ?_ (Nat.lt_succ_self _) hfound ?_
  · exact List.cons_subset.mpr ⟨mem_listedNames_of_class? hfound, List.nil_subset _⟩
  · intro n hn
    rw [List.mem_singleton.mp hn]

theorem SuperclassChain.unique {c : ClassFile} {chain chain' : List ClassFile}
    (h : cp.SuperclassChain c chain) (h' : cp.SuperclassChain c chain') : chain = chain' := by
  induction h generalizing chain' with
  | top hsuper =>
    cases h' with
    | top => rfl
    | above hsuper' =>
      rw [hsuper] at hsuper'
      cases hsuper'
  | above hsuper _ ih =>
    cases h' with
    | top hsuper' =>
      rw [hsuper] at hsuper'
      cases hsuper'
    | above hsuper' hchain' =>
      rw [hsuper] at hsuper'
      cases hsuper'
      rw [ih hchain']

theorem SuperclassChain.mem_self {c : ClassFile} {chain : List ClassFile}
    (h : cp.SuperclassChain c chain) : c ∈ chain := by
  cases h <;> exact List.mem_cons_self

theorem SuperclassChain.exists_rest {c d : ClassFile} {chain : List ClassFile}
    (h : cp.SuperclassChain c chain) (hsuper : c.superName.bind cp.class? = some d) :
    ∃ rest, chain = c :: rest ∧ cp.SuperclassChain d rest := by
  cases h with
  | top hnone =>
    rw [hsuper] at hnone
    cases hnone
  | above hsuper' hrest =>
    rw [hsuper] at hsuper'
    cases hsuper'
    exact ⟨_, rfl, hrest⟩

/-- A class has one chain, which is the one that is searched. -/
theorem superclassChain_iff (hacyclic : cp.Acyclic) {c : ClassFile}
    (hfound : cp.class? c.name = some c) {chain : List ClassFile} :
    cp.SuperclassChain c chain ↔ chain = cp.superclassChain c := by
  have hspec := superclassChain_spec hacyclic hfound
  constructor
  · exact fun h => h.unique hspec
  · rintro rfl
    exact hspec

/-- Interfaces above classes are found along the declarations that lead to them. -/
theorem mem_superinterfaces {classes : List ClassFile} {i : ClassFile} :
    i ∈ cp.superinterfaces classes
      ↔ cp.class? i.name = some i
        ∧ ∃ c ∈ classes, ∃ d ∈ c.interfaces, ReflTransGen cp.ExtendsInterface d i.name := by
  unfold superinterfaces
  simp only [List.mem_filterMap, List.mem_flatMap,
    Search.mem_breadthFirst_iff (fun _ => interfacesOf_of_not_listed) (Nat.lt_succ_self cp.size)]
  constructor
  · rintro ⟨n, ⟨d, ⟨c, hc, hd⟩, hpath⟩, hclass⟩
    obtain rfl := name_of_class? hclass
    exact ⟨hclass, c, hc, d, hd, hpath⟩
  · rintro ⟨hclass, c, hc, d, hd, hpath⟩
    exact ⟨i.name, ⟨d, ⟨c, hc, hd⟩, hpath⟩, hclass⟩

/-- An interface is listed once, however many ways lead to it. -/
theorem nodup_superinterfaces (classes : List ClassFile) :
    ((cp.superinterfaces classes).map (·.name)).Nodup := by
  unfold superinterfaces
  have hnames (ns : List String) : ((ns.filterMap cp.class?).map (·.name)).Sublist ns := by
    induction ns with
    | nil => exact List.Sublist.refl _
    | cons n ns ih =>
      cases hclass : cp.class? n with
      | none =>
        rw [List.filterMap_cons_none hclass]
        exact ih.cons n
      | some c =>
        rw [List.filterMap_cons_some hclass, List.map_cons, name_of_class? hclass]
        exact ih.cons_cons n
  exact (Search.nodup_breadthFirst _ _ _).sublist (hnames _)

theorem isSubtypeOf_iff {name ancestor : String} :
    cp.isSubtypeOf name ancestor = true ↔ ReflTransGen cp.Extends name ancestor := by
  unfold isSubtypeOf
  rw [List.contains_iff_mem,
    Search.mem_breadthFirst_iff (fun _ => supertypesOf_of_not_listed) (Nat.lt_succ_self cp.size)]
  simp only [List.mem_singleton, exists_eq_left]
  rfl

/-- Where no class stands above itself, different classes one of which is below the other are
strictly so. -/
theorem isSubtypeOf_iff_of_ne (hacyclic : cp.Acyclic) {name ancestor : String} :
    (name != ancestor && cp.isSubtypeOf name ancestor) = true
      ↔ TransGen cp.Extends name ancestor := by
  rw [Bool.and_eq_true, bne_iff_ne, isSubtypeOf_iff, Relation.reflTransGen_iff_eq_or_transGen]
  constructor
  · rintro ⟨hne, heq | hpath⟩
    · exact absurd heq.symm hne
    · exact hpath
  · intro hpath
    refine ⟨?_, Or.inr hpath⟩
    rintro rfl
    exact hacyclic _ hpath

end Linkage.Classpath

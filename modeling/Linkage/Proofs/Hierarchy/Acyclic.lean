import Linkage.Proofs.Hierarchy.Memo

/-! Where no class stands above itself, each class has one tree. -/
namespace Linkage

open Relation (TransGen ReflTransGen)

/-- Classes are in order when each has a higher rank than its supertypes. -/
theorem Classpath.acyclic_of_rank {cp : Classpath} (rank : String → Nat)
    (h : ∀ d ∈ cp.listedNames, ∀ s ∈ cp.supertypesOf d, rank s < rank d) : cp.Acyclic := by
  have hedge {d s : String} (hs : cp.Extends d s) : rank s < rank d := by
    cases hclass : cp.class? d with
    | none =>
      unfold Extends supertypesOf at hs
      rw [hclass] at hs
      simp at hs
    | some c => exact h d (mem_listedNames_of_class? hclass) s hs
  have hpath {d s : String} (hs : TransGen cp.Extends d s) : rank s < rank d := by
    induction hs with
    | single hs => exact hedge hs
    | tail _ hs ih => exact (hedge hs).trans ih
  exact fun name hname => Nat.lt_irrefl _ (hpath hname)

namespace Hierarchy

variable {cp : Classpath} {memo memo' : Memo}

/-- The kept tree of a class that does not stand above itself is not cut. -/
theorem Sound.kept_of_acyclic (h : Sound cp memo) {d : String} {tree k : Hierarchy}
    (hd : memo.lookup d = some tree) (hk : k ∈ tree.supertypes)
    (hacyclic : ¬ TransGen cp.Extends d d) : memo.lookup k.name = some k := by
  rcases h.kept d tree hd k hk with ⟨-, hcycle⟩ | hkept
  · exact absurd (hcycle.head (h.extends hd hk)) hacyclic
  · exact hkept

theorem Sound.leads_of_acyclic (h : Sound cp memo) {d s : String} (hedge : cp.Extends d s)
    (hacyclic : ¬ TransGen cp.Extends d d) : Leads cp memo d s := by
  refine ⟨hedge, fun tree hd => ?_⟩
  obtain ⟨k, hk, rfl⟩ := h.exists_supertype hd hedge
  refine ⟨k, hk, rfl, fun hcut => ?_⟩
  exact h.noCuts _ _ ((h.kept_of_acyclic hd hk hacyclic).trans (congrArg some hcut))

/-- Earlier queries do not matter for a class with no cycle above it. -/
theorem unresolvedSupertypes_answerAfter_of_acyclic {name : String}
    (hacyclic : ∀ d, ReflTransGen cp.Extends name d → ¬ TransGen cp.Extends d d)
    (earlier : List String) :
    (answerAfter cp earlier name).unresolvedSupertypes
      = (answerAfter cp [] name).unresolvedSupertypes := by
  have hleads {m : String} (hpath : TransGen cp.Extends name m) :
      TransGen (Leads cp (memoAfter cp earlier)) name m := by
    induction hpath with
    | single hedge =>
      have hname := hacyclic name ReflTransGen.refl
      exact TransGen.single ((sound_memoAfter cp earlier).leads_of_acyclic hedge hname)
    | tail hpath hedge ih =>
      have hd := hacyclic _ hpath.to_reflTransGen
      exact ih.tail ((sound_memoAfter cp earlier).leads_of_acyclic hedge hd)
  rw [unresolvedSupertypes_eq_iff]
  intro m
  simp only [mem_unresolvedSupertypes_answerAfter, leads_memoAfter_nil]
  refine and_congr_right fun _ => ⟨fun hpath => ?_, hleads⟩
  exact hpath.lift id fun _ _ hedge => hedge.1

private theorem eq_of_names {ks ks' : List Hierarchy}
    (h : ∀ k ∈ ks, ∀ k' ∈ ks', k.name = k'.name → k = k')
    (hnames : ks.map name = ks'.map name) : ks = ks' := by
  induction ks generalizing ks' with
  | nil => exact (List.map_eq_nil_iff.mp hnames.symm).symm
  | cons k ks ih =>
    cases ks' with
    | nil => simp at hnames
    | cons k' ks' =>
      rw [List.map_cons, List.map_cons, List.cons.injEq] at hnames
      rw [h k List.mem_cons_self k' List.mem_cons_self hnames.1, ih (fun i hi i' hi' =>
        h i (List.mem_cons_of_mem k hi) i' (List.mem_cons_of_mem k' hi')) hnames.2]

/-- Two memos cannot keep different trees of one class. -/
theorem Sound.agree (hacyclic : cp.Acyclic) (h : Sound cp memo) (h' : Sound cp memo') {d : String}
    {tree tree' : Hierarchy} (hd : memo.lookup d = some tree) (hd' : memo'.lookup d = some tree') :
    tree = tree' := by
  induction tree using inductionOnSupertypes generalizing d tree' with
  | step tree ih =>
    cases hclass : cp.class? d with
    | none => rw [h.missing d tree hd hclass, h'.missing d tree' hd' hclass]
    | some c =>
      have hkids : ∀ k ∈ tree.supertypes, ∀ k' ∈ tree'.supertypes, k.name = k'.name → k = k' := by
        intro k hk k' hk' hname
        have hkept := h.kept_of_acyclic hd hk (hacyclic d)
        have hkept' := h'.kept_of_acyclic hd' hk' (hacyclic d)
        rw [← hname] at hkept'
        exact ih k hk hkept hkept'
      obtain ⟨superclass, interfaces, rfl, hsuper, hinterfaces⟩ := h.found d tree c hd hclass
      obtain ⟨superclass', interfaces', rfl, hsuper', hinterfaces'⟩ :=
        h'.found d tree' c hd' hclass
      have hsupers : superclass = superclass' := by
        have hnames := hsuper.trans hsuper'.symm
        cases superclass with
        | none => exact (Option.map_eq_none_iff.mp hnames.symm).symm
        | some k =>
          obtain ⟨k', rfl, hname⟩ := Option.map_eq_some_iff.mp hnames.symm
          rw [hkids k List.mem_cons_self k' List.mem_cons_self hname.symm]
      have hrest : interfaces = interfaces' := by
        refine eq_of_names (fun k hk k' hk' => ?_) (hinterfaces.trans hinterfaces'.symm)
        exact hkids k (List.mem_append_right _ hk) k' (List.mem_append_right _ hk')
      rw [hsupers, hrest]

/-- Each class has one tree, whatever was asked for before. -/
theorem exists_tree (hacyclic : cp.Acyclic) (name : String) : ∃ tree, ∀ memo, Sound cp memo →
    ((resolve cp name).run memo).1 = tree ∧ Sound cp ((resolve cp name).run memo).2 := by
  obtain ⟨hsound, htree⟩ := (explore_resolve cp name []).answer (sound_nil cp)
  refine ⟨((resolve cp name).run []).1, fun memo h => ?_⟩
  obtain ⟨hsound', htree'⟩ := (explore_resolve cp name memo).answer h
  exact ⟨hsound'.agree hacyclic hsound htree' htree, hsound'⟩

end Hierarchy
end Linkage

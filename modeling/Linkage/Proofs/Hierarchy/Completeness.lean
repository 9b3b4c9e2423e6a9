import Linkage.Proofs.Hierarchy.Memo

/-! A new builder looks into every class above the one that is asked for, once, and comes to an end
whatever cycles there are. -/
namespace Linkage.Hierarchy

open Relation (TransGen ReflTransGen)

/-- A builder with the classes it is looking into as a part of its state. -/
structure Builder where
  memo : Memo := []
  visiting : List String := []

namespace Builder

/-- Keeps a hierarchy. -/
def keep (h : Hierarchy) : StateT Builder Option Hierarchy := do
  modify fun b => { b with memo := (h.name, h) :: b.memo }
  return h

/-- The hierarchy of a class, or nothing if `depth` calls within each other are not enough. -/
def visit (cp : Classpath) : (depth : Nat) → (name : String) → StateT Builder Option Hierarchy
  | 0, _ => failure
  | depth + 1, name => do
    if let some known := (← get).memo.lookup name then return known
    if name ∈ (← get).visiting then return .cyclePoint name
    match cp.class? name with
    | none => keep (.unresolved name)
    | some c =>
      modify fun b => { b with visiting := name :: b.visiting }
      let superclass ← c.superName.mapM (visit cp depth)
      let interfaces ← c.interfaces.mapM (visit cp depth)
      modify fun b => { b with visiting := b.visiting.filter (· ≠ name) }
      keep (.resolved name c.isInterface superclass interfaces)

variable {cp : Classpath} {visiting : List String}

/-- A builder that is looking into `visiting` does on its memo what `g` does, and is looking into
the same classes afterwards. -/
def Mirrors {α : Type} (visiting : List String) (f : StateT Builder Option α) (g : StateM Memo α) :
    Prop :=
  ∀ memo, f.run ⟨memo, visiting⟩ = some ((g.run memo).1, ⟨(g.run memo).2, visiting⟩)

namespace Mirrors

variable {α β : Type}

protected theorem pure (a : α) : Mirrors visiting (Pure.pure a) (Pure.pure a) := fun _ => rfl

protected theorem bind {f : StateT Builder Option α} {g : StateM Memo α}
    {f' : α → StateT Builder Option β} {g' : α → StateM Memo β} (first : Mirrors visiting f g)
    (second : ∀ a, Mirrors visiting (f' a) (g' a)) : Mirrors visiting (f >>= f') (g >>= g') := by
  intro memo
  rw [StateT.run_bind, first]
  exact second _ _

protected theorem mapM {f : α → StateT Builder Option β} {g : α → StateM Memo β}
    (h : ∀ a, Mirrors visiting (f a) (g a)) (as : List α) :
    Mirrors visiting (as.mapM f) (as.mapM g) := by
  induction as with
  | nil => exact Mirrors.pure []
  | cons a as ih =>
    rw [List.mapM_cons, List.mapM_cons]
    exact (h a).bind fun b => ih.bind fun bs => Mirrors.pure (b :: bs)

protected theorem mapM_option {f : α → StateT Builder Option β} {g : α → StateM Memo β}
    (h : ∀ a, Mirrors visiting (f a) (g a)) (a? : Option α) :
    Mirrors visiting (a?.mapM f) (a?.mapM g) := by
  cases a? with
  | none => exact Mirrors.pure none
  | some a => exact (h a).bind fun b => Mirrors.pure (some b)

end Mirrors

/-- As many calls within each other as there are names, and one, are always enough. -/
theorem mirrors_visit {depth : Nat} (hnodup : visiting.Nodup) (hlisted : visiting ⊆ cp.listedNames)
    (hdepth : cp.size < depth + visiting.length) (name : String) :
    Mirrors visiting (visit cp depth name) (resolveFrom cp depth visiting name) := by
  induction depth generalizing visiting name with
  | zero =>
    have hlength := (hnodup.subperm hlisted).length_le
    unfold Classpath.size at hdepth
    omega
  | succ depth ih =>
    intro memo
    unfold visit
    cases hknown : memo.lookup name with
    | some tree =>
      rw [resolveFrom_known hknown]
      simp only [StateT.run_bind, StateT.run_get, pure_bind, hknown]
      rfl
    | none =>
      by_cases hvisiting : name ∈ visiting
      · rw [resolveFrom_visiting hknown hvisiting]
        simp only [StateT.run_bind, StateT.run_get, pure_bind, hknown, hvisiting, if_true]
        rfl
      · cases hclass : cp.class? name with
        | none =>
          rw [resolveFrom_missing hknown hvisiting hclass]
          simp only [StateT.run_bind, StateT.run_get, pure_bind, hknown, hvisiting, if_false]
          rfl
        | some c =>
          have hinner := ih (hnodup.cons hvisiting)
            (List.cons_subset.mpr ⟨Classpath.mem_listedNames_of_class? hclass, hlisted⟩)
            (by rw [List.length_cons]; omega)
          have hsupers := Mirrors.mapM_option hinner c.superName
          have hinterfaces := Mirrors.mapM hinner c.interfaces
          rw [resolveFrom_found hknown hvisiting hclass]
          have hleave : (name :: visiting).filter (· ≠ name) = visiting := by
            rw [List.filter_cons_of_neg (by simp), List.filter_eq_self]
            simpa using fun v hv => ne_of_mem_of_not_mem hv hvisiting
          simp only [StateT.run_bind, StateT.run_get, pure_bind, hknown, hvisiting, if_false,
            StateT.run_modify]
          rw [hsupers, Option.bind_eq_bind, Option.bind_some, hinterfaces, Option.bind_eq_bind,
            Option.bind_some, hleave]
          rfl

theorem visit_run (cp : Classpath) (name : String) :
    (visit cp (cp.size + 2) name).run {}
      = some (((resolve cp name).run []).1, ⟨((resolve cp name).run []).2, []⟩) :=
  mirrors_visit List.nodup_nil (List.nil_subset _) (by simp) name []

end Builder

variable {cp : Classpath} {memo memo' : Memo}

theorem nodup_insert {name : String} (tree : Hierarchy) (hnew : memo.lookup name = none)
    (h : (memo.map Prod.fst).Nodup) : (((name, tree) :: memo).map Prod.fst).Nodup := by
  refine List.nodup_cons.mpr ⟨fun hmem => ?_, h⟩
  obtain ⟨entry, hentry, heq⟩ := List.mem_map.mp hmem
  have hne := List.lookup_eq_none_iff.mp hnew entry hentry
  simp [heq] at hne

/-- No class is kept twice. -/
theorem Explore.nodup {visiting todo : List String} {answers : List Hierarchy}
    (h : Explore cp visiting todo memo answers memo') (hmemo : (memo.map Prod.fst).Nodup) :
    (memo'.map Prod.fst).Nodup := by
  induction h with
  | nil => exact hmemo
  | known _ _ ih => exact ih hmemo
  | closes _ _ _ ih => exact ih hmemo
  | missing hnew _ _ _ ih => exact ih (nodup_insert _ hnew hmemo)
  | expands hnew _ _ _ inner _ ihInner ih =>
    have hbetween := inner.lookup_visiting List.mem_cons_self hnew
    exact ih (nodup_insert _ hbetween (ihInner hmemo))

/-- Everything in a kept tree stands above its class, or is that class. -/
theorem Sound.reaches_of_mem_nodes (h : Sound cp memo) {d : String} {tree n : Hierarchy}
    (hd : memo.lookup d = some tree) (hn : n ∈ tree.nodes) :
    ReflTransGen cp.Extends d n.name := by
  induction tree using inductionOnSupertypes generalizing d with
  | step tree ih =>
    rcases mem_nodes.mp hn with rfl | hn
    · rw [h.named d n hd]
    · obtain ⟨k, hk, hnk⟩ := mem_above.mp hn
      have hedge := h.extends hd hk
      rcases h.kept d tree hd k hk with ⟨hcut, -⟩ | hkept
      · rw [hcut, nodes_eq] at hnk
        obtain rfl := List.mem_singleton.mp hnk
        exact ReflTransGen.single hedge
      · exact (ih k hk hkept hnk).head hedge

/-- A kept tree is cut at classes that stand above themselves. -/
theorem Sound.cycle_of_mem_above (h : Sound cp memo) {d s : String} {tree : Hierarchy}
    (hd : memo.lookup d = some tree) (hs : .cyclePoint s ∈ tree.above) :
    ReflTransGen cp.Extends d s ∧ TransGen cp.Extends s s := by
  induction tree using inductionOnSupertypes generalizing d with
  | step tree ih =>
    obtain ⟨k, hk, hsk⟩ := mem_above.mp hs
    have hedge := h.extends hd hk
    rcases h.kept d tree hd k hk with ⟨hcut, hcycle⟩ | hkept
    · rw [hcut, nodes_eq] at hsk
      obtain rfl : k.name = s := (Hierarchy.cyclePoint.inj (List.mem_singleton.mp hsk)).symm
      exact ⟨ReflTransGen.single hedge, hcycle.tail hedge⟩
    · rcases mem_nodes.mp hsk with rfl | hsk
      · exact absurd hkept (h.noCuts _ _)
      · obtain ⟨hpath, hcycle⟩ := ih k hk hkept hsk
        exact ⟨hpath.head hedge, hcycle⟩

/-- Where a tree is not cut, the trees of supertypes are smaller. -/
theorem Sound.smaller (h : Sound cp memo) {d s : String} {tree : Hierarchy}
    (hd : memo.lookup d = some tree) (huncut : ∀ n, .cyclePoint n ∉ tree.above)
    (hedge : cp.Extends d s) :
    ∃ k, memo.lookup s = some k ∧ sizeOf k < sizeOf tree ∧ ∀ n, .cyclePoint n ∉ k.above := by
  obtain ⟨k, hk, rfl⟩ := h.exists_supertype hd hedge
  have habove {n : Hierarchy} (hn : n ∈ k.nodes) : n ∈ tree.above := mem_above.mpr ⟨k, hk, hn⟩
  rcases h.kept d tree hd k hk with ⟨hcut, -⟩ | hkept
  · exact absurd (habove (self_mem_nodes k)) (hcut ▸ huncut k.name)
  · exact ⟨k, hkept, sizeOf_lt_of_mem_supertypes hk, fun n hn =>
      huncut n (habove (mem_nodes.mpr (Or.inr hn)))⟩

/-- From a tree without cuts no cycle is reached. -/
theorem Sound.acyclic_of_uncut (h : Sound cp memo) {d n : String} {tree : Hierarchy}
    (hd : memo.lookup d = some tree) (huncut : ∀ n, .cyclePoint n ∉ tree.above)
    (hpath : ReflTransGen cp.Extends d n) : ¬ TransGen cp.Extends n n := by
  obtain ⟨t, ht, huncut⟩ : ∃ t, memo.lookup n = some t ∧ ∀ n, .cyclePoint n ∉ t.above := by
    induction hpath with
    | refl => exact ⟨tree, hd, huncut⟩
    | tail _ hedge ih =>
      obtain ⟨t, ht, huncut⟩ := ih
      obtain ⟨k, hk, -, huncut⟩ := h.smaller ht huncut hedge
      exact ⟨k, hk, huncut⟩
  intro hcycle
  have hdescent {s : String} (hs : TransGen cp.Extends n s) :
      ∃ k, memo.lookup s = some k ∧ sizeOf k < sizeOf t ∧ ∀ n, .cyclePoint n ∉ k.above := by
    induction hs with
    | single hedge => exact h.smaller ht huncut hedge
    | tail _ hedge ih =>
      obtain ⟨k, hk, hlt, huncut⟩ := ih
      obtain ⟨k', hk', hlt', huncut'⟩ := h.smaller hk huncut hedge
      exact ⟨k', hk', hlt'.trans hlt, huncut'⟩
  obtain ⟨k, hk, hlt, -⟩ := hdescent hcycle
  obtain rfl := Option.some.inj (hk.symm.trans ht)
  exact Nat.lt_irrefl _ hlt

theorem cyclePoints_eq_zero {tree : Hierarchy} :
    tree.cyclePoints = 0 ↔ ∀ s, .cyclePoint s ∉ tree.above := by
  unfold cyclePoints
  rw [List.length_eq_zero_iff, List.filter_eq_nil_iff]
  constructor
  · intro h s hs
    exact h _ hs rfl
  · intro h k hk hcut
    split at hcut
    · next s => exact h s hk
    · cases hcut

/-- All that a tree and the memo behind it tell of the classes above `name`. -/
structure Complete (cp : Classpath) (name : String) (tree : Hierarchy) (memo : Memo) : Prop where
  /-- No class is kept twice. -/
  once : (memo.map Prod.fst).Nodup
  reached : ∀ n, n ∈ memo.map Prod.fst ↔ ReflTransGen cp.Extends name n
  ascending : tree.unresolvedSupertypes.Pairwise (· < ·)
  unresolved : ∀ n, n ∈ tree.unresolvedSupertypes ↔
    n ≠ name ∧ ReflTransGen cp.Extends name n ∧ ∀ c, cp.lookup n ≠ .found c
  cyclic : tree.cyclePoints = 0 ↔
    ¬ ∃ n, ReflTransGen cp.Extends name n ∧ TransGen cp.Extends n n

theorem mem_keys_iff {d : String} :
    d ∈ memo.map Prod.fst ↔ ∃ tree, memo.lookup d = some tree := by
  rw [← Option.isSome_iff_exists, List.lookup_isSome_iff, List.mem_map]
  simp only [beq_iff_eq, eq_comm (a := d)]

/-- The names that an exploration keeps are those that declarations lead to. -/
theorem Explore.mem_keys {name : String} {tree : Hierarchy}
    (h : Explore cp [] [name] [] [tree] memo) (d : String) :
    d ∈ memo.map Prod.fst ↔ ReflTransGen cp.Extends name d := by
  obtain ⟨hsound, htree⟩ := h.answer (sound_nil cp)
  rw [mem_keys_iff]
  constructor
  · rintro ⟨t, ht⟩
    obtain ⟨k, hk, hmem⟩ := h.mem_nodes_of_new ht rfl
    rw [List.mem_singleton.mp hk] at hmem
    rw [← hsound.named d t ht]
    exact hsound.reaches_of_mem_nodes htree hmem
  · intro hpath
    obtain ⟨t, ht, -⟩ : ∃ t, memo.lookup d = some t ∧ t ∈ tree.nodes := by
      induction hpath with
      | refl => exact ⟨tree, htree, self_mem_nodes tree⟩
      | tail _ hedge ih =>
        obtain ⟨t, ht, hmem⟩ := ih
        rw [← leads_nil] at hedge
        exact h.exists_of_leads (sound_nil cp) ht hmem rfl hedge
    exact ⟨t, ht⟩

theorem Explore.complete {name : String} {tree : Hierarchy}
    (h : Explore cp [] [name] [] [tree] memo) : Complete cp name tree memo := by
  obtain ⟨hsound, htree⟩ := h.answer (sound_nil cp)
  constructor
  · exact h.nodup List.nodup_nil
  · exact h.mem_keys
  · exact pairwise_sortDistinct _
  · intro n
    have hmissing : cp.class? n = none ↔ ∀ c, cp.lookup n ≠ .found c := by
      simp only [Option.eq_none_iff_forall_ne_some, ne_eq, Classpath.class?_eq_some]
    rw [h.mem_unresolvedSupertypes (sound_nil cp), leads_nil, hmissing]
    constructor
    · rintro ⟨hlookup, hpath⟩
      refine ⟨?_, hpath.to_reflTransGen, hlookup⟩
      rintro rfl
      obtain ⟨s, hedge, -⟩ := TransGen.head'_iff.mp hpath
      unfold Classpath.Extends Classpath.supertypesOf at hedge
      rw [hmissing.mpr hlookup] at hedge
      simp at hedge
    · rintro ⟨hne, hpath, hlookup⟩
      refine ⟨hlookup, ?_⟩
      rcases Relation.reflTransGen_iff_eq_or_transGen.mp hpath with rfl | hpath
      · exact absurd rfl hne
      · exact hpath
  · rw [cyclePoints_eq_zero]
    constructor
    · rintro huncut ⟨n, hpath, hcycle⟩
      exact hsound.acyclic_of_uncut htree huncut hpath hcycle
    · exact fun hacyclic s hs => hacyclic ⟨s, hsound.cycle_of_mem_above htree hs⟩

/-- A new builder comes to an end, looks into nothing any more, and has everything above the class
it was asked for. -/
theorem resolve_complete (cp : Classpath) (name : String) : ∃ tree memo,
    (Builder.visit cp (cp.size + 2) name).run {} = some (tree, ⟨memo, []⟩)
      ∧ (resolve cp name).run [] = (tree, memo) ∧ Complete cp name tree memo :=
  ⟨_, _, Builder.visit_run cp name, rfl, (explore_resolve cp name []).complete⟩

end Linkage.Hierarchy

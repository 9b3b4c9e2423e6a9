import Linkage.Hierarchy.Builder
import Linkage.Resolution.Members
import Linkage.Proofs.Classpath.Lookup
import Linkage.Proofs.Hierarchy.Nodes

/-! How hierarchies are explored: which trees are kept, and where they are cut. -/
namespace Linkage

/-- A declaration of the class `d` names `s` as a direct supertype. -/
def Classpath.Extends (cp : Classpath) (d s : String) : Prop := s ∈ cp.supertypesOf d

/-- No class stands above itself. -/
def Classpath.Acyclic (cp : Classpath) : Prop :=
  ∀ name, ¬ Relation.TransGen cp.Extends name name

namespace Hierarchy

variable {cp : Classpath}

/-- With the classes `visiting` on the way, the names `todo` are answered by `answers`, while `memo`
grows to `memo'`. -/
inductive Explore (cp : Classpath) :
    (visiting todo : List String) → (memo : Memo) → (answers : List Hierarchy) → (memo' : Memo) →
      Prop
  | nil {visiting : List String} {memo : Memo} : Explore cp visiting [] memo [] memo
  | known {visiting todo : List String} {memo memo' : Memo} {answers : List Hierarchy}
      {name : String} {tree : Hierarchy} (hknown : memo.lookup name = some tree)
      (rest : Explore cp visiting todo memo answers memo') :
      Explore cp visiting (name :: todo) memo (tree :: answers) memo'
  | closes {visiting todo : List String} {memo memo' : Memo} {answers : List Hierarchy}
      {name : String} (hnew : memo.lookup name = none) (hvisiting : name ∈ visiting)
      (rest : Explore cp visiting todo memo answers memo') :
      Explore cp visiting (name :: todo) memo (.cyclePoint name :: answers) memo'
  | missing {visiting todo : List String} {memo memo' : Memo} {answers : List Hierarchy}
      {name : String} (hnew : memo.lookup name = none) (hvisiting : name ∉ visiting)
      (hclass : cp.class? name = none)
      (rest : Explore cp visiting todo ((name, .unresolved name) :: memo) answers memo') :
      Explore cp visiting (name :: todo) memo (.unresolved name :: answers) memo'
  | expands {visiting todo : List String} {memo between memo' : Memo} {answers : List Hierarchy}
      {name : String} {c : ClassFile} {superclass : Option Hierarchy} {interfaces : List Hierarchy}
      (hnew : memo.lookup name = none) (hvisiting : name ∉ visiting)
      (hclass : cp.class? name = some c) (hsuper : superclass.isSome = c.superName.isSome)
      (inner : Explore cp (name :: visiting) c.supertypes memo (superclass.toList ++ interfaces)
        between)
      (rest : Explore cp visiting todo
        ((name, .resolved name c.isInterface superclass interfaces) :: between) answers memo') :
      Explore cp visiting (name :: todo) memo
        (.resolved name c.isInterface superclass interfaces :: answers) memo'

theorem Explore.append {visiting front back : List String} {memo between memo' : Memo}
    {answers more : List Hierarchy} (first : Explore cp visiting front memo answers between)
    (second : Explore cp visiting back between more memo') :
    Explore cp visiting (front ++ back) memo (answers ++ more) memo' := by
  induction first with
  | nil => exact second
  | known hknown _ ih => exact .known hknown (ih second)
  | closes hnew hvisiting _ ih => exact .closes hnew hvisiting (ih second)
  | missing hnew hvisiting hclass _ ih => exact .missing hnew hvisiting hclass (ih second)
  | expands hnew hvisiting hclass hsuper inner _ _ ih =>
    exact .expands hnew hvisiting hclass hsuper inner (ih second)

theorem lookup_cons_of_mem {visiting : List String} {memo : Memo} {v name : String}
    {new : Hierarchy} (hv : v ∈ visiting) (hname : name ∉ visiting) :
    List.lookup v ((name, new) :: memo) = memo.lookup v := by
  rw [List.lookup_cons, beq_false_of_ne (ne_of_mem_of_not_mem hv hname)]

/-- Nothing is kept of a class while it is on the way. -/
theorem Explore.lookup_visiting {visiting todo : List String} {memo memo' : Memo}
    {answers : List Hierarchy} (h : Explore cp visiting todo memo answers memo') {v : String}
    (hv : v ∈ visiting) (hnone : memo.lookup v = none) : memo'.lookup v = none := by
  induction h with
  | nil => exact hnone
  | known _ _ ih => exact ih hv hnone
  | closes _ _ _ ih => exact ih hv hnone
  | missing _ hvisiting _ _ ih =>
    exact ih hv ((lookup_cons_of_mem hv hvisiting).trans hnone)
  | expands _ hvisiting _ _ _ _ ihInner ih =>
    have hbetween := ihInner (List.mem_cons_of_mem _ hv) hnone
    exact ih hv ((lookup_cons_of_mem hv hvisiting).trans hbetween)

theorem lookup_cons_of_lookup {memo : Memo} {d name : String} {tree new : Hierarchy}
    (hnew : memo.lookup name = none) (h : memo.lookup d = some tree) :
    List.lookup d ((name, new) :: memo) = some tree := by
  have hne : d ≠ name := by
    rintro rfl
    rw [hnew] at h
    exact Option.some_ne_none _ h.symm
  rwa [List.lookup_cons, beq_false_of_ne hne]

theorem lookup_cons_cases {memo : Memo} {d name : String} {tree new : Hierarchy}
    (h : List.lookup d ((name, new) :: memo) = some tree) :
    (d = name ∧ tree = new) ∨ memo.lookup d = some tree := by
  rw [List.lookup_cons] at h
  by_cases hd : d = name
  · rw [beq_iff_eq.mpr hd] at h
    exact Or.inl ⟨hd, (Option.some.inj h).symm⟩
  · rw [beq_false_of_ne hd] at h
    exact Or.inr h

/-- What is kept is not changed any more. -/
theorem Explore.lookup_mono {visiting todo : List String} {memo memo' : Memo}
    {answers : List Hierarchy} (h : Explore cp visiting todo memo answers memo') {d : String}
    {tree : Hierarchy} (hd : memo.lookup d = some tree) : memo'.lookup d = some tree := by
  induction h with
  | nil => exact hd
  | known _ _ ih => exact ih hd
  | closes _ _ _ ih => exact ih hd
  | missing hnew _ _ _ ih => exact ih (lookup_cons_of_lookup hnew hd)
  | expands hnew _ _ _ inner _ ihInner ih =>
    have hbetween := inner.lookup_visiting List.mem_cons_self hnew
    exact ih (lookup_cons_of_lookup hbetween (ihInner hd))

/-- An answer cuts the tree at a class on the way, or is what is kept from now on. -/
def Answers (visiting : List String) (memo : Memo) (k : Hierarchy) : Prop :=
  (k = .cyclePoint k.name ∧ k.name ∈ visiting) ∨ memo.lookup k.name = some k

/-- What the trees that are kept look like: the names are right, and each supertype is a cut or
kept, too. A class is only cut off from one that stands above itself. -/
structure Sound (cp : Classpath) (memo : Memo) : Prop where
  named : ∀ d tree, memo.lookup d = some tree → tree.name = d
  missing : ∀ d tree, memo.lookup d = some tree → cp.class? d = none → tree = .unresolved d
  found : ∀ d tree c, memo.lookup d = some tree → cp.class? d = some c →
    ∃ superclass interfaces, tree = .resolved d c.isInterface superclass interfaces
      ∧ superclass.map Hierarchy.name = c.superName ∧ interfaces.map Hierarchy.name = c.interfaces
  kept : ∀ d tree, memo.lookup d = some tree → ∀ k ∈ tree.supertypes,
    (k = .cyclePoint k.name ∧ Relation.TransGen cp.Extends k.name d) ∨ memo.lookup k.name = some k

theorem sound_nil (cp : Classpath) : Sound cp [] where
  named _ _ h := by simp at h
  missing _ _ h := by simp at h
  found _ _ _ h := by simp at h
  kept _ _ h := by simp at h

/-- A tree can be kept when it has the right names and each supertype is a cut or kept. -/
theorem Sound.insert {memo : Memo} (h : Sound cp memo) {name : String}
    (hnew : memo.lookup name = none) (tree : Hierarchy) (hname : tree.name = name)
    (hmissing : cp.class? name = none → tree = .unresolved name)
    (hfound : ∀ c, cp.class? name = some c →
      ∃ superclass interfaces, tree = .resolved name c.isInterface superclass interfaces
        ∧ superclass.map Hierarchy.name = c.superName
        ∧ interfaces.map Hierarchy.name = c.interfaces)
    (hkept : ∀ k ∈ tree.supertypes,
      (k = .cyclePoint k.name ∧ Relation.TransGen cp.Extends k.name name)
        ∨ memo.lookup k.name = some k) :
    Sound cp ((name, tree) :: memo) := by
  constructor
  · intro d t hd
    rcases lookup_cons_cases hd with ⟨rfl, rfl⟩ | hd
    · exact hname
    · exact h.named d t hd
  · intro d t hd
    rcases lookup_cons_cases hd with ⟨rfl, rfl⟩ | hd
    · exact hmissing
    · exact h.missing d t hd
  · intro d t c hd
    rcases lookup_cons_cases hd with ⟨rfl, rfl⟩ | hd
    · exact hfound c
    · exact h.found d t c hd
  · intro d t hd k hk
    have hold : (k = .cyclePoint k.name ∧ Relation.TransGen cp.Extends k.name d)
        ∨ memo.lookup k.name = some k := by
      rcases lookup_cons_cases hd with ⟨rfl, rfl⟩ | hd
      · exact hkept k hk
      · exact h.kept d t hd k hk
    exact hold.imp_right (lookup_cons_of_lookup hnew)

theorem extends_of_class {d s : String} {c : ClassFile} (hclass : cp.class? d = some c) :
    cp.Extends d s ↔ s ∈ c.supertypes := by
  unfold Classpath.Extends Classpath.supertypesOf
  rw [hclass]
  rfl

private theorem names_of_supertypes {c : ClassFile} {superclass : Option Hierarchy}
    {interfaces : List Hierarchy} (hsuper : superclass.isSome = c.superName.isSome)
    (hnames : (superclass.toList ++ interfaces).map name = c.supertypes) :
    superclass.map name = c.superName ∧ interfaces.map name = c.interfaces := by
  unfold ClassFile.supertypes at hnames
  cases superclass <;> cases hname : c.superName <;> simp_all

/-- The names that were asked for are those of the answers. -/
structure Answered (visiting : List String) (memo : Memo) (todo : List String)
    (answers : List Hierarchy) : Prop where
  names : answers.map name = todo
  answers : ∀ k ∈ answers, Answers visiting memo k

theorem Answered.cons {visiting : List String} {memo : Memo} {todo : List String}
    {answers : List Hierarchy} (h : Answered visiting memo todo answers) {k : Hierarchy}
    (hk : Answers visiting memo k) : Answered visiting memo (k.name :: todo) (k :: answers) where
  names := by rw [List.map_cons, h.names]
  answers := List.forall_mem_cons.mpr ⟨hk, h.answers⟩

/-- Exploring keeps a memo sound, and answers each name. -/
theorem Explore.sound {visiting todo : List String} {memo memo' : Memo} {answers : List Hierarchy}
    (h : Explore cp visiting todo memo answers memo')
    (hway : ∀ s ∈ todo, ∀ v ∈ visiting, Relation.TransGen cp.Extends v s) (hsound : Sound cp memo) :
    Sound cp memo' ∧ Answered visiting memo' todo answers := by
  induction h with
  | nil => exact ⟨hsound, rfl, by simp⟩
  | known hknown rest ih =>
    obtain rfl := hsound.named _ _ hknown
    obtain ⟨-, hrestWay⟩ := List.forall_mem_cons.mp hway
    obtain ⟨hsound', hrest⟩ := ih hrestWay hsound
    exact ⟨hsound', hrest.cons (Or.inr (rest.lookup_mono hknown))⟩
  | closes hnew hvisiting rest ih =>
    obtain ⟨-, hrestWay⟩ := List.forall_mem_cons.mp hway
    obtain ⟨hsound', hrest⟩ := ih hrestWay hsound
    exact ⟨hsound', hrest.cons (k := .cyclePoint _) (Or.inl ⟨rfl, hvisiting⟩)⟩
  | missing hnew hvisiting hclass rest ih =>
    obtain ⟨-, hrestWay⟩ := List.forall_mem_cons.mp hway
    have hinsert := hsound.insert hnew (.unresolved _) rfl (fun _ => rfl)
      (fun c hc => absurd hc (by simp [hclass])) (by simp [supertypes])
    obtain ⟨hsound', hrest⟩ := ih hrestWay hinsert
    have hkept := rest.lookup_mono List.lookup_cons_self
    exact ⟨hsound', hrest.cons (k := .unresolved _) (Or.inr hkept)⟩
  | @expands visiting todo memo between memo' answers name c superclass interfaces hnew hvisiting
      hclass hsuper inner rest ihInner ih =>
    obtain ⟨hname, hrestWay⟩ := List.forall_mem_cons.mp hway
    have hinnerWay : ∀ s ∈ c.supertypes, ∀ v ∈ name :: visiting,
        Relation.TransGen cp.Extends v s := by
      intro s hs
      have hedge := (extends_of_class hclass).mpr hs
      exact List.forall_mem_cons.mpr
        ⟨Relation.TransGen.single hedge, fun v hv => (hname v hv).tail hedge⟩
    obtain ⟨hbetween, hnames, hanswers⟩ := ihInner hinnerWay hsound
    have hunknown := inner.lookup_visiting List.mem_cons_self hnew
    have hkept : ∀ k ∈ superclass.toList ++ interfaces,
        (k = .cyclePoint k.name ∧ Relation.TransGen cp.Extends k.name name)
          ∨ between.lookup k.name = some k := by
      intro k hk
      rcases hanswers k hk with ⟨hcut, hvisited⟩ | hknown
      · refine Or.inl ⟨hcut, ?_⟩
        rcases List.mem_cons.mp hvisited with heq | hvisited
        · have hmem : k.name ∈ c.supertypes := hnames ▸ List.mem_map_of_mem hk
          rw [heq] at hmem ⊢
          exact Relation.TransGen.single ((extends_of_class hclass).mpr hmem)
        · exact hname _ hvisited
      · exact Or.inr hknown
    have hfound (c' : ClassFile) (hc' : cp.class? name = some c') :
        ∃ superclass' interfaces', Hierarchy.resolved name c.isInterface superclass interfaces
            = .resolved name c'.isInterface superclass' interfaces'
          ∧ superclass'.map Hierarchy.name = c'.superName
          ∧ interfaces'.map Hierarchy.name = c'.interfaces := by
      obtain rfl := Option.some.inj (hclass.symm.trans hc')
      exact ⟨superclass, interfaces, rfl, names_of_supertypes hsuper hnames⟩
    have hinsert := hbetween.insert hunknown (.resolved name c.isInterface superclass interfaces)
      rfl (fun hnone => absurd hclass (by simp [hnone]))
      hfound hkept
    obtain ⟨hsound', hrest⟩ := ih hrestWay hinsert
    exact ⟨hsound', hrest.cons (k := .resolved name c.isInterface superclass interfaces)
      (Or.inr (rest.lookup_mono List.lookup_cons_self))⟩

/-- After a class was answered with `new`: what is kept in the end is newer still, is `new`, or was
kept before. -/
theorem Explore.new_cases {visiting todo : List String} {memo memo' : Memo}
    {answers : List Hierarchy} {name : String} {new : Hierarchy}
    (rest : Explore cp visiting todo ((name, new) :: memo) answers memo') {d : String}
    {tree : Hierarchy} (hd : memo'.lookup d = some tree) :
    List.lookup d ((name, new) :: memo) = none ∨ (d = name ∧ tree = new)
      ∨ memo.lookup d = some tree := by
  cases h : List.lookup d ((name, new) :: memo) with
  | none => exact Or.inl rfl
  | some t =>
    have heq : t = tree := Option.some.inj ((rest.lookup_mono h).symm.trans hd)
    exact Or.inr (lookup_cons_cases (heq ▸ h))

/-- What is new stands in one of the answers. -/
theorem Explore.mem_nodes_of_new {visiting todo : List String} {memo memo' : Memo}
    {answers : List Hierarchy} (h : Explore cp visiting todo memo answers memo') {d : String}
    {tree : Hierarchy} (hd : memo'.lookup d = some tree) (hnew : memo.lookup d = none) :
    ∃ k ∈ answers, tree ∈ k.nodes := by
  induction h generalizing tree with
  | nil => exact absurd hd (by simp [hnew])
  | known _ _ ih =>
    obtain ⟨k, hk, hmem⟩ := ih hd hnew
    exact ⟨k, List.mem_cons_of_mem _ hk, hmem⟩
  | closes _ _ _ ih =>
    obtain ⟨k, hk, hmem⟩ := ih hd hnew
    exact ⟨k, List.mem_cons_of_mem _ hk, hmem⟩
  | missing _ _ _ rest ih =>
    rcases rest.new_cases hd with hlater | ⟨-, rfl⟩ | hbefore
    · obtain ⟨k, hk, hmem⟩ := ih hd hlater
      exact ⟨k, List.mem_cons_of_mem _ hk, hmem⟩
    · exact ⟨_, List.mem_cons_self, self_mem_nodes _⟩
    · exact absurd hbefore (by simp [hnew])
  | expands _ _ _ _ inner rest ihInner ih =>
    rcases rest.new_cases hd with hlater | ⟨-, rfl⟩ | hbefore
    · obtain ⟨k, hk, hmem⟩ := ih hd hlater
      exact ⟨k, List.mem_cons_of_mem _ hk, hmem⟩
    · exact ⟨_, List.mem_cons_self, self_mem_nodes _⟩
    · obtain ⟨k, hk, hmem⟩ := ihInner hbefore hnew
      exact ⟨_, List.mem_cons_self, mem_nodes.mpr (Or.inr (mem_above.mpr ⟨k, hk, hmem⟩))⟩

/-- No tree that is kept is a cut itself. -/
def NoCuts (memo : Memo) : Prop := ∀ d s, memo.lookup d ≠ some (.cyclePoint s)

theorem Sound.noCuts {memo : Memo} (h : Sound cp memo) : NoCuts memo := by
  intro d s hd
  cases hclass : cp.class? d with
  | none => exact absurd (h.missing d _ hd hclass) (by simp)
  | some c =>
    obtain ⟨superclass, interfaces, heq, -⟩ := h.found d _ c hd hclass
    exact absurd heq (by simp)

theorem NoCuts.insert {memo : Memo} (h : NoCuts memo) {name : String} {tree : Hierarchy}
    (htree : ∀ s, tree ≠ .cyclePoint s) : NoCuts ((name, tree) :: memo) := by
  intro d s hd
  rcases lookup_cons_cases hd with ⟨-, heq⟩ | hd
  · exact htree s heq.symm
  · exact h d s hd

theorem Explore.noCuts {visiting todo : List String} {memo memo' : Memo} {answers : List Hierarchy}
    (h : Explore cp visiting todo memo answers memo') (hmemo : NoCuts memo) :
    NoCuts memo' ∧ ∀ s, .cyclePoint s ∈ answers → s ∈ visiting := by
  induction h with
  | nil => exact ⟨hmemo, by simp⟩
  | known hknown _ ih =>
    obtain ⟨hmemo', hanswers⟩ := ih hmemo
    refine ⟨hmemo', fun s hs => ?_⟩
    rcases List.mem_cons.mp hs with heq | hs
    · exact absurd hknown (heq ▸ hmemo _ s)
    · exact hanswers s hs
  | closes _ hvisiting _ ih =>
    obtain ⟨hmemo', hanswers⟩ := ih hmemo
    refine ⟨hmemo', fun s hs => ?_⟩
    rcases List.mem_cons.mp hs with heq | hs
    · cases heq
      exact hvisiting
    · exact hanswers s hs
  | missing _ _ _ _ ih =>
    obtain ⟨hmemo', hanswers⟩ := ih (hmemo.insert (by simp))
    exact ⟨hmemo', fun s hs => hanswers s (by simpa using hs)⟩
  | expands _ _ _ _ _ _ ihInner ih =>
    obtain ⟨hmemo', hanswers⟩ := ih ((ihInner hmemo).1.insert (by simp))
    exact ⟨hmemo', fun s hs => hanswers s (by simpa using hs)⟩

theorem Explore.lookup_none {visiting todo : List String} {memo memo' : Memo}
    {answers : List Hierarchy} (h : Explore cp visiting todo memo answers memo') {d : String}
    (hd : memo'.lookup d = none) : memo.lookup d = none := by
  cases hmemo : memo.lookup d with
  | none => rfl
  | some tree => exact absurd (h.lookup_mono hmemo) (by simp [hd])

private theorem lookup_none_of_cons {memo : Memo} {d name : String} {new : Hierarchy}
    (h : List.lookup d ((name, new) :: memo) = none) : memo.lookup d = none := by
  by_cases hd : d = name
  · rw [List.lookup_cons, beq_iff_eq.mpr hd] at h
    exact absurd h (by simp)
  · rwa [List.lookup_cons, beq_false_of_ne hd] at h

/-- A tree is only cut off from a class that was not known before, and that is on the way or known
in the end. -/
theorem Explore.cut {visiting todo : List String} {memo memo' : Memo} {answers : List Hierarchy}
    (h : Explore cp visiting todo memo answers memo') (hmemo : NoCuts memo)
    (hunknown : ∀ v ∈ visiting, memo.lookup v = none) {d s : String} {tree : Hierarchy}
    (hd : memo'.lookup d = some tree) (hnew : memo.lookup d = none)
    (hcut : .cyclePoint s ∈ tree.supertypes) :
    memo.lookup s = none ∧ (s ∈ visiting ∨ ∃ t, memo'.lookup s = some t) := by
  induction h generalizing tree with
  | nil => exact absurd hd (by simp [hnew])
  | known _ _ ih => exact ih hmemo hunknown hd hnew hcut
  | closes _ _ _ ih => exact ih hmemo hunknown hd hnew hcut
  | missing hnewName hvisiting _ rest ih =>
    rcases rest.new_cases hd with hlater | ⟨-, rfl⟩ | hbefore
    · obtain ⟨hs, hend⟩ := ih (hmemo.insert (by simp))
        (fun v hv => (lookup_cons_of_mem hv hvisiting).trans (hunknown v hv)) hd hlater hcut
      exact ⟨lookup_none_of_cons hs, hend⟩
    · simp [supertypes] at hcut
    · exact absurd hbefore (by simp [hnew])
  | @expands visiting todo memo between memo' answers name c superclass interfaces hnewName
      hvisiting hclass hsuper inner rest ihInner ih =>
    obtain ⟨hbetween, hcuts⟩ := inner.noCuts hmemo
    have hunknownInner : ∀ v ∈ name :: visiting, memo.lookup v = none :=
      List.forall_mem_cons.mpr ⟨hnewName, hunknown⟩
    have hend : s ∈ name :: visiting ∨ (∃ t, between.lookup s = some t) →
        s ∈ visiting ∨ ∃ t, memo'.lookup s = some t := by
      rintro (hs | ⟨t, ht⟩)
      · rcases List.mem_cons.mp hs with rfl | hs
        · exact Or.inr ⟨_, rest.lookup_mono List.lookup_cons_self⟩
        · exact Or.inl hs
      · have hname := inner.lookup_visiting List.mem_cons_self hnewName
        exact Or.inr ⟨t, rest.lookup_mono (lookup_cons_of_lookup hname ht)⟩
    rcases rest.new_cases hd with hlater | ⟨-, rfl⟩ | hbefore
    · have hlaterUnknown (v : String) (hv : v ∈ visiting) :
          List.lookup v ((name, .resolved name c.isInterface superclass interfaces) :: between)
            = none := by
        rw [lookup_cons_of_mem hv hvisiting]
        exact inner.lookup_visiting (List.mem_cons_of_mem _ hv) (hunknown v hv)
      obtain ⟨hs, hend⟩ := ih (hbetween.insert (by simp)) hlaterUnknown hd hlater hcut
      exact ⟨inner.lookup_none (lookup_none_of_cons hs), hend⟩
    · have hs := hcuts s hcut
      exact ⟨hunknownInner s hs, hend (Or.inl hs)⟩
    · obtain ⟨hs, hinner⟩ := ihInner hmemo hunknownInner hbefore hnew hcut
      exact ⟨hs, hend hinner⟩

/-- Names that are looked into one after the other. -/
theorem explore_mapM {visiting : List String} {f : String → StateM Memo Hierarchy}
    (hf : ∀ name memo,
      Explore cp visiting [name] memo [((f name).run memo).1] ((f name).run memo).2)
    (names : List String) (memo : Memo) :
    Explore cp visiting names memo ((names.mapM f).run memo).1 ((names.mapM f).run memo).2 := by
  induction names generalizing memo with
  | nil => exact .nil
  | cons name names ih =>
    rw [List.mapM_cons]
    exact (hf name memo).append (ih _)

section Steps

variable {depth : Nat} {visiting : List String} {name : String} {memo : Memo}

theorem resolveFrom_known {tree : Hierarchy} (h : memo.lookup name = some tree) :
    (resolveFrom cp (depth + 1) visiting name).run memo = (tree, memo) := by
  unfold resolveFrom
  simp only [StateT.run_bind, StateT.run_get, pure_bind, h, StateT.run_pure]
  rfl

theorem resolveFrom_visiting (h : memo.lookup name = none) (hvisiting : name ∈ visiting) :
    (resolveFrom cp (depth + 1) visiting name).run memo = (.cyclePoint name, memo) := by
  unfold resolveFrom
  simp only [StateT.run_bind, StateT.run_get, pure_bind, h, hvisiting, if_true, StateT.run_pure]
  rfl

theorem resolveFrom_missing (h : memo.lookup name = none) (hvisiting : name ∉ visiting)
    (hclass : cp.class? name = none) :
    (resolveFrom cp (depth + 1) visiting name).run memo
      = (.unresolved name, (name, .unresolved name) :: memo) := by
  unfold resolveFrom
  simp only [StateT.run_bind, StateT.run_get, pure_bind, h, hvisiting, if_false, hclass]
  rfl

theorem resolveFrom_found (h : memo.lookup name = none) (hvisiting : name ∉ visiting)
    {c : ClassFile} (hclass : cp.class? name = some c) :
    (resolveFrom cp (depth + 1) visiting name).run memo =
      let supers :=
        ((c.superName.mapM (resolveFrom cp depth (name :: visiting))).run memo : _ × Memo)
      let interfaces :=
        ((c.interfaces.mapM (resolveFrom cp depth (name :: visiting))).run supers.2 : _ × Memo)
      let tree := .resolved name c.isInterface supers.1 interfaces.1
      (tree, (name, tree) :: interfaces.2) := by
  unfold resolveFrom
  simp only [StateT.run_bind, StateT.run_get, pure_bind, h, hvisiting, if_false, hclass]
  cases c.superName <;> rfl

end Steps

/-- The classes on the way are different and listed, so that `depth` is enough. -/
theorem explore_resolveFrom {depth : Nat} {visiting : List String} (hnodup : visiting.Nodup)
    (hlisted : visiting ⊆ cp.listedNames) (hdepth : cp.size + 2 ≤ depth + visiting.length)
    (name : String) (memo : Memo) :
    Explore cp visiting [name] memo [((resolveFrom cp depth visiting name).run memo).1]
      ((resolveFrom cp depth visiting name).run memo).2 := by
  induction depth generalizing visiting name memo with
  | zero =>
    have hlength := (hnodup.subperm hlisted).length_le
    unfold Classpath.size at hdepth
    omega
  | succ depth ih =>
    cases hknown : memo.lookup name with
    | some tree =>
      rw [resolveFrom_known hknown]
      exact .known hknown .nil
    | none =>
      by_cases hvisiting : name ∈ visiting
      · rw [resolveFrom_visiting hknown hvisiting]
        exact .closes hknown hvisiting .nil
      · cases hclass : cp.class? name with
        | none =>
          rw [resolveFrom_missing hknown hvisiting hclass]
          exact .missing hknown hvisiting hclass .nil
        | some c =>
          have hinner := ih (hnodup.cons hvisiting)
            (List.cons_subset.mpr ⟨Classpath.mem_listedNames_of_class? hclass, hlisted⟩)
            (by rw [List.length_cons]; omega)
          rw [resolveFrom_found hknown hvisiting hclass]
          cases hsuper : c.superName with
          | none =>
            refine .expands hknown hvisiting hclass ?_ ?_ .nil
            · rw [hsuper]
              rfl
            · rw [ClassFile.supertypes, hsuper]
              exact explore_mapM hinner c.interfaces memo
          | some s =>
            refine .expands hknown hvisiting hclass ?_ ?_ .nil
            · rw [hsuper]
              rfl
            · rw [ClassFile.supertypes, hsuper]
              exact (hinner s memo).append (explore_mapM hinner c.interfaces _)

end Hierarchy
end Linkage

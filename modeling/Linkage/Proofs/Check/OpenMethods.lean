import Linkage.Proofs.Check.Candidates
import Linkage.Proofs.Resolution.Carrying

/-! Which abstract methods a class leaves open. -/
namespace Linkage

/-- Name and descriptor, which tell one abstract method from another. -/
def MemberRef.signature (r : MemberRef) : String × String := (r.name, r.descriptor)

/-- The problem is that a method of this name and descriptor is left open by that class. -/
def Problem.isOpen (className name descriptor : String) (p : Problem) : Bool :=
  match p.type, p.reference with
  | .methodNotImplemented, .method ref =>
    p.location.className == className && ref.signature == (name, descriptor)
  | _, _ => false

theorem Problem.isOpen_iff {className name descriptor : String} {p : Problem} :
    p.isOpen className name descriptor = true ↔ p.type = .methodNotImplemented
      ∧ p.location.className = className
      ∧ ∃ owner, p.reference = .method ⟨owner, name, descriptor⟩ := by
  unfold isOpen
  split
  · next ref htype hreference =>
    obtain ⟨owner, name', descriptor'⟩ := ref
    simp [htype, hreference, MemberRef.signature]
  · next hneither =>
    refine iff_of_false Bool.false_ne_true ?_
    rintro ⟨htype, -, owner, hreference⟩
    exact hneither _ htype hreference

theorem Problem.isOpen_congr {className name descriptor : String} {p q : Problem}
    (h : p.identity = q.identity) :
    p.isOpen className name descriptor = q.isOpen className name descriptor := by
  have htype : p.type = q.type := congrArg ProblemIdentity.type h
  have hreference : p.reference = q.reference := congrArg ProblemIdentity.reference h
  have hlocation : p.location = q.location := congrArg ProblemIdentity.location h
  unfold isOpen
  rw [htype, hreference, hlocation]

namespace Check

open Relation (ReflTransGen TransGen)

variable {cp : Classpath} {c : ClassFile} {name descriptor : String}

section distinct

/-- Adds a method unless there is one of its name and descriptor. -/
def addDistinct (refs : List MemberRef) (r : MemberRef) : List MemberRef :=
  if refs.any fun q => q.name == r.name && q.descriptor == r.descriptor then refs
  else refs ++ [r]

theorem any_signature_iff {refs : List MemberRef} {r : MemberRef} :
    (refs.any fun q => q.name == r.name && q.descriptor == r.descriptor) = true
      ↔ r.signature ∈ refs.map MemberRef.signature := by
  simp [MemberRef.signature]

theorem mem_signatures_addDistinct {refs : List MemberRef} {r : MemberRef} {s : String × String} :
    s ∈ (addDistinct refs r).map MemberRef.signature
      ↔ s ∈ refs.map MemberRef.signature ∨ s = r.signature := by
  unfold addDistinct
  split
  · next hany =>
    rw [any_signature_iff] at hany
    constructor
    · exact Or.inl
    · rintro (hs | rfl)
      · exact hs
      · exact hany
  · rw [List.map_append, List.mem_append, List.map_singleton, List.mem_singleton]

theorem nodup_addDistinct {refs : List MemberRef} (h : (refs.map MemberRef.signature).Nodup)
    (r : MemberRef) : ((addDistinct refs r).map MemberRef.signature).Nodup := by
  unfold addDistinct
  split
  · exact h
  · next hany =>
    rw [any_signature_iff] at hany
    rw [List.map_append, List.map_singleton, ← List.concat_eq_append]
    exact h.concat hany

theorem mem_signatures_foldl (declared refs : List MemberRef) {s : String × String} :
    s ∈ (declared.foldl addDistinct refs).map MemberRef.signature
      ↔ s ∈ refs.map MemberRef.signature ∨ s ∈ declared.map MemberRef.signature := by
  induction declared generalizing refs with
  | nil => simp
  | cons r declared ih =>
    rw [List.foldl_cons, ih, mem_signatures_addDistinct, List.map_cons, List.mem_cons, or_assoc]

theorem nodup_foldl (declared : List MemberRef) {refs : List MemberRef}
    (h : (refs.map MemberRef.signature).Nodup) :
    ((declared.foldl addDistinct refs).map MemberRef.signature).Nodup := by
  induction declared generalizing refs with
  | nil => exact h
  | cons r declared ih => exact ih (nodup_addDistinct h r)

end distinct

/-- `x` declares the method abstract, and not for itself alone. -/
def DeclaresAbstract (x : ClassFile) (name descriptor : String) : Prop :=
  ∃ m ∈ x.methods, (m.name = name ∧ m.descriptor = descriptor) ∧ m.access.isAbstract = true
    ∧ m.access.isStatic = false ∧ m.access.isPrivate = false

/-- `i` is an interface above a chain of superclasses. -/
structure HasInterface (cp : Classpath) (chain : List ClassFile) (i : ClassFile) : Prop where
  found : cp.class? i.name = some i
  above : ∃ c ∈ chain, ∃ d ∈ c.interfaces, ReflTransGen cp.ExtendsInterface d i.name

/-- Such a declaration comes down to a class with this chain of superclasses: it is made on the
chain or in an interface above it. -/
def InheritsAbstract (cp : Classpath) (chain : List ClassFile) (name descriptor : String) : Prop :=
  ∃ x, (x ∈ chain ∨ HasInterface cp chain x) ∧ DeclaresAbstract x name descriptor

/-- Such a declaration is made in an interface above the chain, but that interface declares the
method for itself alone before. -/
def HidesAbstract (cp : Classpath) (chain : List ClassFile) (name descriptor : String) : Prop :=
  ∃ i m, HasInterface cp chain i ∧ DeclaresAbstract i name descriptor
    ∧ i.method? name descriptor = some m
    ∧ (m.access.isPrivate = true ∨ m.access.isStatic = true)

theorem nodup_abstractMethods (cp : Classpath) (c : ClassFile) :
    ((abstractMethods cp c).map MemberRef.signature).Nodup :=
  nodup_foldl _ List.nodup_nil

theorem hasInterface_iff {chain : List ClassFile} {i : ClassFile} :
    HasInterface cp chain i ↔ i ∈ cp.superinterfaces chain :=
  Iff.trans ⟨fun h => ⟨h.found, h.above⟩, fun h => ⟨h.1, h.2⟩⟩ Classpath.mem_superinterfaces.symm

theorem mem_abstractMethods :
    (name, descriptor) ∈ (abstractMethods cp c).map MemberRef.signature
      ↔ InheritsAbstract cp (cp.superclassChain c) name descriptor := by
  have hcollected : (name, descriptor) ∈ (abstractMethods cp c).map MemberRef.signature
      ↔ ∃ x ∈ cp.superclassChain c ++ cp.superinterfaces (cp.superclassChain c),
        DeclaresAbstract x name descriptor := by
    unfold abstractMethods
    change _ ∈ (List.foldl addDistinct [] _).map MemberRef.signature ↔ _
    rw [mem_signatures_foldl, List.map_nil, or_iff_right List.not_mem_nil, List.map_flatMap,
      List.mem_flatMap]
    refine exists_congr fun x => and_congr_right fun _ => ?_
    rw [List.map_map, List.mem_map]
    refine exists_congr fun m => ?_
    rw [List.mem_filter]
    simp [MemberRef.signature]
    tauto
  simp only [hcollected, InheritsAbstract, List.mem_append, hasInterface_iff]

theorem DeclaresAbstract.exists_method? {x : ClassFile} (h : DeclaresAbstract x name descriptor) :
    ∃ m, x.method? name descriptor = some m := by
  obtain ⟨m, hm, ⟨hname, hdescriptor⟩, -⟩ := h
  refine Option.isSome_iff_exists.mp (List.find?_isSome.mpr ⟨m, hm, ?_⟩)
  rw [hname, hdescriptor, beq_self_eq_true, beq_self_eq_true, Bool.and_self]

/-- What comes down to a class and still is not found must be hidden. -/
theorem InheritsAbstract.hides (hacyclic : cp.Acyclic) (hname : name ≠ "<init>" ∧ name ≠ "<clinit>")
    (h : InheritsAbstract cp (cp.superclassChain c) name descriptor)
    (hnone : cp.classMethod? c name descriptor = none) :
    HidesAbstract cp (cp.superclassChain c) name descriptor := by
  have hfollows : cp.FollowsClass (cp.superclassChain c) name descriptor none :=
    hnone ▸ Classpath.followsClass_classMethod? hacyclic hname
  obtain ⟨hchain, hoffers⟩ := not_or.mp (hfollows.isSome_iff.not.mp Bool.false_ne_true)
  obtain ⟨x, hplace, hdeclares⟩ := h
  obtain ⟨m, hm⟩ := hdeclares.exists_method?
  rcases hplace with hx | hx
  · exact absurd ⟨x, hx, Option.isSome_of_eq_some hm⟩ hchain
  · refine ⟨x, m, hx, hdeclares, hm, ?_⟩
    by_contra hopen
    rw [not_or, Bool.not_eq_true, Bool.not_eq_true] at hopen
    exact hoffers ⟨x, m, hx.found, hx.above, hm, hopen.1, hopen.2⟩

section chain

/-- The first declaration of the method on a chain of superclasses. -/
def firstDeclaration? (chain : List ClassFile) (name descriptor : String) :
    Option (ClassFile × Method) :=
  chain.findSome? (Classpath.declaredMethod? · name descriptor)

theorem classMethod?_of_declared (hname : name ≠ "<init>" ∧ name ≠ "<clinit>")
    {found : ClassFile × Method}
    (h : firstDeclaration? (cp.superclassChain c) name descriptor = some found) :
    cp.classMethod? c name descriptor = some found := by
  unfold firstDeclaration? at h
  unfold Classpath.classMethod?
  simp [hname.1, hname.2, h]

/-- A class with this chain of superclasses leaves the method open: an abstract declaration comes
down to it, and what a call would find is no body. A call finds nothing at all only if the abstract
declaration is hidden. -/
structure LeavesOpen (cp : Classpath) (chain : List ClassFile) (c : ClassFile)
    (name descriptor : String) : Prop where
  inherited : InheritsAbstract cp chain name descriptor
  bodiless : (∃ x m, firstDeclaration? chain name descriptor = some (x, m)
      ∧ m.access.isAbstract = true)
    ∨ firstDeclaration? chain name descriptor = none
      ∧ ((∃ i m, cp.classMethod? c name descriptor = some (i, m) ∧ m.access.isAbstract = true)
        ∨ cp.classMethod? c name descriptor = none ∧ HidesAbstract cp chain name descriptor)

theorem not_isImplemented_iff (hname : name ≠ "<init>" ∧ name ≠ "<clinit>") (owner : String) :
    (!isImplemented cp c ⟨owner, name, descriptor⟩) = true ↔
      (∃ x m, firstDeclaration? (cp.superclassChain c) name descriptor = some (x, m)
        ∧ m.access.isAbstract = true)
      ∨ firstDeclaration? (cp.superclassChain c) name descriptor = none
        ∧ ((∃ i m, cp.classMethod? c name descriptor = some (i, m) ∧ m.access.isAbstract = true)
          ∨ cp.classMethod? c name descriptor = none) := by
  unfold isImplemented
  dsimp only
  cases hfirst : firstDeclaration? (cp.superclassChain c) name descriptor with
  | some found =>
    obtain ⟨x, m⟩ := found
    rw [classMethod?_of_declared hname hfirst]
    simp
  | none =>
    cases cp.classMethod? c name descriptor with
    | none => simp
    | some found =>
      obtain ⟨i, m⟩ := found
      simp

/-- The methods that are collected and found to have no body are those left open. -/
theorem mem_open_iff (hacyclic : cp.Acyclic) (hname : name ≠ "<init>" ∧ name ≠ "<clinit>") :
    (name, descriptor) ∈ ((abstractMethods cp c).filter (!isImplemented cp c ·)).map
        MemberRef.signature
      ↔ LeavesOpen cp (cp.superclassChain c) c name descriptor := by
  constructor
  · intro h
    obtain ⟨⟨owner, name', descriptor'⟩, hr, hsignature⟩ := List.mem_map.mp h
    obtain ⟨rfl, rfl⟩ := Prod.mk.inj hsignature
    obtain ⟨hmem, hopen⟩ := List.mem_filter.mp hr
    have hinherited := mem_abstractMethods.mp (List.mem_map.mpr ⟨_, hmem, rfl⟩)
    refine ⟨hinherited, ((not_isImplemented_iff hname owner).mp hopen).imp_right ?_⟩
    exact And.imp_right (Or.imp_right fun hnone => ⟨hnone, hinherited.hides hacyclic hname hnone⟩)
  · intro h
    obtain ⟨⟨owner, name', descriptor'⟩, hmem, hsignature⟩ :=
      List.mem_map.mp (mem_abstractMethods.mpr h.inherited)
    obtain ⟨rfl, rfl⟩ := Prod.mk.inj hsignature
    have hopen := (not_isImplemented_iff hname owner).mpr
      (h.bodiless.imp_right (And.imp_right (Or.imp_right And.left)))
    exact List.mem_map.mpr ⟨_, List.mem_filter.mpr ⟨hmem, hopen⟩, rfl⟩

end chain

section problems

variable {env : Surroundings}

/-- The problems of abstract methods of a class, when nothing is known of hierarchies before. -/
def openMethods (env : Surroundings) (c : ClassFile) : List Problem :=
  ((ofAbstractMethods env c).run []).1

/-- They are the same whatever is known before. -/
theorem settles_openMethods (hacyclic : env.classpath.Acyclic) (c : ClassFile) :
    Settles env.classpath (· = openMethods env c) (ofAbstractMethods env c) := by
  obtain ⟨found, -, hsettled⟩ := settles_ofAbstractMethods hacyclic c
  exact ⟨found, (hsettled [] (Hierarchy.sound_nil _)).1.symm, hsettled⟩

/-- Something above the class cannot be found. -/
def HasMissing (cp : Classpath) (c : ClassFile) : Prop :=
  ∃ s, TransGen cp.Extends c.name s ∧ cp.class? s = none

theorem isEmpty_unresolvedSupertypes (cp : Classpath) (c : ClassFile) :
    ((Hierarchy.resolve cp c.name).run []).1.unresolvedSupertypes.isEmpty = true
      ↔ ¬HasMissing cp c := by
  have hmem (s : String) : s ∈ ((Hierarchy.resolve cp c.name).run []).1.unresolvedSupertypes
      ↔ cp.class? s = none ∧ TransGen cp.Extends c.name s := by
    rw [← Hierarchy.leads_nil]
    exact (Hierarchy.explore_resolve cp c.name []).mem_unresolvedSupertypes (Hierarchy.sound_nil cp)
  rw [List.isEmpty_iff, List.eq_nil_iff_forall_not_mem]
  simp only [hmem, HasMissing, not_exists, not_and]
  exact forall_congr' fun s =>
    ⟨fun h hpath hnone => h hnone hpath, fun h hnone hpath => h hpath hnone⟩

theorem openMethods_eq (env : Surroundings) (c : ClassFile) :
    openMethods env c =
      if c.isAbstract || c.isInterface then []
      else if !((Hierarchy.resolve env.classpath c.name).run []).1.unresolvedSupertypes.isEmpty then
        []
      else ((abstractMethods env.classpath c).filter (!isImplemented env.classpath c ·)).map
        fun ref => ⟨.methodNotImplemented ref, .type c.name⟩ := by
  unfold openMethods ofAbstractMethods
  split
  · rfl
  · rw [StateT.run_bind]
    change ((if _ then _ else _ : Finder (List Problem)).run _).1 = _
    split <;> rfl

theorem openMethods_of_missing {c : ClassFile} (h : HasMissing env.classpath c) :
    openMethods env c = [] := by
  have hunresolved := Bool.eq_false_iff.mpr ((isEmpty_unresolvedSupertypes _ c).not_left.mpr h)
  rw [openMethods_eq, hunresolved]
  split <;> rfl

theorem openMethods_of_found {c : ClassFile}
    (hconcrete : c.isAbstract = false ∧ c.isInterface = false) (h : ¬HasMissing env.classpath c) :
    openMethods env c
      = ((abstractMethods env.classpath c).filter (!isImplemented env.classpath c ·)).map
        fun ref => ⟨.methodNotImplemented ref, .type c.name⟩ := by
  rw [openMethods_eq, hconcrete.1, hconcrete.2, (isEmpty_unresolvedSupertypes _ c).mpr h]
  rfl

/-- No method is said to be open twice. -/
theorem length_filter_isOpen_le (env : Surroundings) (c : ClassFile)
    (className name descriptor : String) :
    ((openMethods env c).filter (·.isOpen className name descriptor)).length ≤ 1 := by
  rw [openMethods_eq]
  split
  · exact Nat.zero_le 1
  split
  · exact Nat.zero_le 1
  have hnodup : (((abstractMethods env.classpath c).filter (!isImplemented env.classpath c ·)).map
      MemberRef.signature).Nodup :=
    (nodup_abstractMethods env.classpath c).sublist (List.filter_sublist.map _)
  rw [List.filter_map, List.length_map, ← List.countP_eq_length_filter]
  refine le_trans ?_ (List.nodup_iff_count_le_one.mp hnodup (name, descriptor))
  rw [List.count, List.countP_map]
  refine List.countP_mono_left fun ref _ hopen => ?_
  exact ((Bool.and_eq_true _ _).mp hopen).2

/-- The methods said to be open are those left open. -/
theorem exists_isOpen_iff (hacyclic : env.classpath.Acyclic) {c : ClassFile}
    (hconcrete : c.isAbstract = false ∧ c.isInterface = false) (h : ¬HasMissing env.classpath c)
    (hname : name ≠ "<init>" ∧ name ≠ "<clinit>") :
    (∃ p ∈ openMethods env c, p.isOpen c.name name descriptor = true)
      ↔ LeavesOpen env.classpath (env.classpath.superclassChain c) c name descriptor := by
  rw [openMethods_of_found hconcrete h, ← mem_open_iff hacyclic hname]
  constructor
  · rintro ⟨p, hp, hopen⟩
    obtain ⟨ref, href, rfl⟩ := List.mem_map.mp hp
    have hsignature : ref.signature = (name, descriptor) :=
      beq_iff_eq.mp ((Bool.and_eq_true _ _).mp hopen).2
    exact List.mem_map.mpr ⟨ref, href, hsignature⟩
  · intro hmem
    obtain ⟨ref, href, hsignature⟩ := List.mem_map.mp hmem
    refine ⟨_, List.mem_map_of_mem href, ?_⟩
    exact (Bool.and_eq_true _ _).mpr ⟨beq_self_eq_true c.name, beq_iff_eq.mpr hsignature⟩

end problems

end Check
end Linkage

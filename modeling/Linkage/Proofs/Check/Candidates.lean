import Linkage.Check.Candidates
import Linkage.Proofs.Hierarchy.Acyclic

/-! The problems of a class are at the class and about what it refers to, and they are the same
whatever hierarchies are known. -/
namespace Linkage

/-- The class that is referred to, by itself or through a member. Methods that are left open or
overridden are not referred to. -/
def Problem.referredClass? (p : Problem) : Option String :=
  match p.type, p.reference with
  | .methodNotImplemented, _ | .overridingFinalMethod, _ => none
  | _, .type name => some name
  | _, .method ref | _, .field ref => some ref.owner

theorem Problem.referredClass?_congr {p q : Problem} (h : p.identity = q.identity) :
    p.referredClass? = q.referredClass? := by
  have htype : p.type = q.type := congrArg ProblemIdentity.type h
  have hreference : p.reference = q.reference := congrArg ProblemIdentity.reference h
  unfold referredClass?
  rw [htype, hreference]

/-- The class that an instruction refers to or to a member of, which may be an array. -/
def Instruction.referredName (i : Instruction) : String :=
  match i.reference with
  | .type name => name
  | .method ref | .field ref => ref.owner

theorem ClassName.element?_of_not_array {name : String} (h : ¬Check.isArray name) :
    ClassName.element? name = some name := by
  unfold Check.isArray at h
  unfold ClassName.element?
  split
  · next dims hname => simp [hname] at h
  · rfl

namespace Check

open Hierarchy (Sound)

variable {α β : Type} {cp : Classpath}

/-- From every sound memo the finder comes to the same answer, which has the property `P`, and to a
sound memo. -/
def Settles (cp : Classpath) (P : α → Prop) (f : Finder α) : Prop :=
  ∃ a, P a ∧ ∀ memo, Sound cp memo → (f.run memo).1 = a ∧ Sound cp (f.run memo).2

namespace Settles

variable {P : α → Prop} {Q : β → Prop}

protected theorem pure {a : α} (h : P a) : Settles cp P (Pure.pure a) :=
  ⟨a, h, fun _ hmemo => ⟨rfl, hmemo⟩⟩

protected theorem bind {f : Finder α} {next : α → Finder β} (hf : Settles cp P f)
    (hnext : ∀ a, P a → Settles cp Q (next a)) : Settles cp Q (f >>= next) := by
  obtain ⟨a, ha, hfirst⟩ := hf
  obtain ⟨b, hb, hsecond⟩ := hnext a ha
  refine ⟨b, hb, fun memo hmemo => ?_⟩
  obtain ⟨hanswer, hsound⟩ := hfirst memo hmemo
  have hrun : (f >>= next).run memo = (next a).run (f.run memo).2 := by
    rw [← hanswer]
    rfl
  rw [hrun]
  exact hsecond _ hsound

protected theorem mapM {f : β → Finder α} {xs : List β} (h : ∀ x, Settles cp P (f x)) :
    Settles cp (fun answers : List α => ∀ a ∈ answers, P a) (xs.mapM f) := by
  induction xs with
  | nil => exact Settles.pure (by simp)
  | cons x xs ih =>
    rw [List.mapM_cons]
    exact (h x).bind fun a ha => ih.bind fun _ has =>
      Settles.pure (List.forall_mem_cons.mpr ⟨ha, has⟩)

end Settles

theorem Settles.imp {P Q : α → Prop} {f : Finder α} (hf : Settles cp P f) (h : ∀ a, P a → Q a) :
    Settles cp Q f := by
  obtain ⟨a, ha, hsettled⟩ := hf
  exact ⟨a, h a ha, hsettled⟩

theorem settles_resolve (hacyclic : cp.Acyclic) (name : String) :
    Settles cp (fun _ => True) (Hierarchy.resolve cp name) := by
  obtain ⟨tree, htree⟩ := Hierarchy.exists_tree hacyclic name
  exact ⟨tree, trivial, htree⟩

/-- All problems are in that class. -/
def AllIn (name : String) (problems : List Problem) : Prop :=
  ∀ p ∈ problems, p.location.className = name

theorem AllIn.append {name : String} {front back : List Problem} (hfront : AllIn name front)
    (hback : AllIn name back) : AllIn name (front ++ back) :=
  List.forall_mem_append.mpr ⟨hfront, hback⟩

/-- The class in which members are looked for: arrays have none of their own, and what is external is
not looked into. -/
def Surroundings.owner? (env : Surroundings) (name : String) : Option ClassFile :=
  if isArray name || env.isExternal name then none else env.classpath.class? name

variable {env : Surroundings} {accessor : ClassFile} {location : Location}

/-- All problems are at the location and about references to this class, or about none. -/
def AllAbout (location : Location) (referred? : Option String) (problems : List Problem) : Prop :=
  ∀ p ∈ problems, p.location = location ∧ p.referredClass? = referred?

theorem AllAbout.allIn {referred? : Option String} {problems : List Problem}
    (h : AllAbout location referred? problems) : AllIn location.className problems :=
  fun p hp => congrArg Location.className (h p hp).1

theorem allAbout_nil (location : Location) (referred? : Option String) :
    AllAbout location referred? [] := by
  simp [AllAbout]

theorem allAbout_singleton {referred? : Option String} {finding : Finding}
    (h : (Problem.mk finding location).referredClass? = referred?) :
    AllAbout location referred? [⟨finding, location⟩] :=
  List.forall_mem_singleton.mpr ⟨rfl, h⟩

theorem allAbout_map {referred? : Option String} {f : α → Finding}
    (hf : ∀ a, (Problem.mk (f a) location).referredClass? = referred?) (as : List α) :
    AllAbout location referred? (as.map fun a => ⟨f a, location⟩) := by
  intro p hp
  obtain ⟨a, -, rfl⟩ := List.mem_map.mp hp
  exact ⟨rfl, hf a⟩

theorem allAbout_ofClassRef (env : Surroundings) (accessor : ClassFile) (location : Location)
    (name : String) (instruction : Option InstructionKind) :
    AllAbout location (ClassName.element? name)
      (ofClassRef env accessor location name instruction).1 := by
  unfold ofClassRef
  cases ClassName.element? name with
  | none => exact allAbout_nil location none
  | some element =>
    dsimp only
    split
    · exact allAbout_nil location _
    · split
      · exact allAbout_singleton rfl
      · rw [Option.toList_map]
        exact allAbout_map (fun _ => by rfl) _

theorem ofClassRef_snd (accessor : ClassFile) (location : Location) {name : String}
    (h : ¬isArray name) (instruction : Option InstructionKind) :
    (ofClassRef env accessor location name instruction).2 = env.owner? name := by
  unfold ofClassRef Surroundings.owner?
  rw [ClassName.element?_of_not_array h, Bool.eq_false_of_not_eq_true h]
  dsimp only
  cases env.isExternal name with
  | true => rfl
  | false => cases env.classpath.class? name <;> simp

section members

variable {M : Type} {owner : String} {kind : InstructionKind} {find? : ClassFile → Option M}
  {missing : Hierarchy → Finding} {restricted? : M → Option Finding}

/-- What is found about the member itself, if the owner's hierarchy is this one. -/
def memberFindings (env : Surroundings) (owner : String) (find? : ClassFile → Option M)
    (missing : Hierarchy → Finding) (restricted? : M → Option Finding) (hierarchy : Hierarchy) :
    List Finding :=
  match env.owner? owner with
  | none => []
  | some c =>
    match find? c with
    | none => [missing hierarchy]
    | some m => (restricted? m).toList

theorem settles_ofMemberRef (hacyclic : env.classpath.Acyclic) :
    Settles env.classpath
      (fun problems => ∃ hierarchy, problems
        = (ofClassRef env accessor location owner (some kind)).1
          ++ (memberFindings env owner find? missing restricted? hierarchy).map (⟨·, location⟩))
      (ofMemberRef env accessor location owner kind find? missing restricted?) := by
  unfold ofMemberRef memberFindings
  by_cases harray : isArray owner
  · have hnone : env.owner? owner = none := by simp [Surroundings.owner?, harray]
    rw [hnone]
    rcases ofClassRef env accessor location owner (some kind) with ⟨problems, _ | c⟩
    · exact Settles.pure ⟨.unresolved owner, by simp⟩
    · dsimp only
      rw [if_pos harray]
      exact Settles.pure ⟨.unresolved owner, by simp⟩
  · rw [← ofClassRef_snd accessor location harray (some kind)]
    rcases ofClassRef env accessor location owner (some kind) with ⟨problems, _ | c⟩
    · exact Settles.pure ⟨.unresolved owner, by simp⟩
    · dsimp only
      rw [if_neg harray]
      cases find? c with
      | none => exact (settles_resolve hacyclic owner).bind fun hierarchy _ =>
          Settles.pure ⟨hierarchy, rfl⟩
      | some m => exact Settles.pure ⟨.unresolved owner, by simp [Option.toList_map]⟩

/-- What is true of the problems with the owner, and of a member that is missing or out of reach, is
true of all problems of a reference to a member. -/
theorem forall_ofMemberRef (hacyclic : env.classpath.Acyclic) {P : Problem → Prop}
    (howner : ∀ p ∈ (ofClassRef env accessor location owner (some kind)).1, P p)
    (hmissing : ¬isArray owner → ∀ h, P ⟨missing h, location⟩)
    (hrestricted : ¬isArray owner → ∀ m, ∀ r ∈ restricted? m, P ⟨r, location⟩) :
    Settles env.classpath (fun problems => ∀ p ∈ problems, P p)
      (ofMemberRef env accessor location owner kind find? missing restricted?) := by
  refine (settles_ofMemberRef hacyclic).imp ?_
  rintro _ ⟨hierarchy, rfl⟩
  refine List.forall_mem_append.mpr ⟨howner, fun p hp => ?_⟩
  obtain ⟨finding, hfinding, rfl⟩ := List.mem_map.mp hp
  unfold memberFindings Surroundings.owner? at hfinding
  by_cases harray : isArray owner
  · simp [harray] at hfinding
  split at hfinding
  · cases hfinding
  split at hfinding
  · rw [List.mem_singleton.mp hfinding]
    exact hmissing harray hierarchy
  · exact hrestricted harray _ finding (Option.mem_toList.mp hfinding)

/-- All problems of a reference to a member are about its owner. -/
theorem allAbout_ofMemberRef (hacyclic : env.classpath.Acyclic)
    (hmissing : ∀ h, (Problem.mk (missing h) location).referredClass? = some owner)
    (hrestricted : ∀ m, ∀ r ∈ restricted? m, (Problem.mk r location).referredClass? = some owner) :
    Settles env.classpath (AllAbout location (ClassName.element? owner))
      (ofMemberRef env accessor location owner kind find? missing restricted?) := by
  refine forall_ofMemberRef hacyclic (allAbout_ofClassRef env accessor location owner (some kind))
    (fun harray hierarchy => ?_) fun harray m r hr => ?_
  · rw [ClassName.element?_of_not_array harray]
    exact ⟨rfl, hmissing hierarchy⟩
  · rw [ClassName.element?_of_not_array harray]
    exact ⟨rfl, hrestricted m r hr⟩

end members

/-- The problems of an instruction are about the class that it refers to or to a member of. -/
theorem settles_ofInstruction (hacyclic : env.classpath.Acyclic) (location : Location)
    (i : Instruction) :
    Settles env.classpath (AllAbout location (ClassName.element? i.referredName))
      (ofInstruction env accessor location i) := by
  unfold ofInstruction Instruction.referredName
  cases i.reference with
  | type name => exact Settles.pure (allAbout_ofClassRef env accessor location name _)
  | method ref =>
    refine allAbout_ofMemberRef hacyclic (fun _ => rfl) fun _ r hr => ?_
    obtain ⟨_, -, rfl⟩ := Option.map_eq_some_iff.mp hr
    rfl
  | field ref =>
    refine allAbout_ofMemberRef hacyclic (fun _ => rfl) fun _ r hr => ?_
    obtain ⟨_, -, rfl⟩ := Option.map_eq_some_iff.mp hr
    rfl

theorem settles_ofMethodBody (hacyclic : env.classpath.Acyclic) (c : ClassFile) (m : Method) :
    Settles env.classpath (AllIn c.name) (ofMethodBody env c m) :=
  (Settles.mapM fun i => (settles_ofInstruction hacyclic (.method c.name m.name m.descriptor) i).imp
    fun _ => AllAbout.allIn).bind fun _ hproblems => Settles.pure (List.forall_mem_flatten.mpr hproblems)

theorem settles_ofAbstractMethods (hacyclic : env.classpath.Acyclic) (c : ClassFile) :
    Settles env.classpath (AllAbout (.type c.name) none) (ofAbstractMethods env c) := by
  have hnone := allAbout_nil (.type c.name) none
  unfold ofAbstractMethods
  split
  · exact Settles.pure hnone
  · refine (settles_resolve hacyclic c.name).bind fun hierarchy _ => ?_
    split
    · exact Settles.pure hnone
    · exact Settles.pure (allAbout_map (fun _ => by rfl) _)

theorem allAbout_ofOverriding (cp : Classpath) (c : ClassFile) (m : Method) :
    AllAbout (.method c.name m.name m.descriptor) none (ofOverriding cp c m) := by
  have hnone := allAbout_nil (.method c.name m.name m.descriptor) none
  unfold ofOverriding
  split
  · exact hnone
  · split
    · exact hnone
    · split
      · exact allAbout_singleton rfl
      · exact hnone

theorem settles_ofClass (hacyclic : env.classpath.Acyclic) (c : ClassFile) :
    Settles env.classpath (AllIn c.name) (ofClass env c) := by
  have hsupertypes : AllIn c.name
      (c.supertypes.flatMap fun s => (ofClassRef env c (.type c.name) s none).1) :=
    List.forall_mem_flatMap.mpr fun s _ => (allAbout_ofClassRef env c (.type c.name) s none).allIn
  have hoverriding : AllIn c.name (c.methods.flatMap (ofOverriding env.classpath c)) :=
    List.forall_mem_flatMap.mpr fun m _ => (allAbout_ofOverriding env.classpath c m).allIn
  refine (Settles.mapM (settles_ofMethodBody hacyclic c)).bind fun bodies hbodies =>
    (settles_ofAbstractMethods hacyclic c).bind fun _ hopen => Settles.pure ?_
  have hbodies : AllIn c.name bodies.flatten := List.forall_mem_flatten.mpr hbodies
  exact ((hsupertypes.append hbodies).append hopen.allIn).append hoverriding

end Check
end Linkage

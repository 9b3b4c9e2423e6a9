import Linkage.Proofs.Resolution.Carrying

/-! Whether a method is found does not depend on the order in which classes name their interfaces. -/
namespace Linkage

open Relation (ReflTransGen)

namespace Classpath

/-- Two classpaths with the same classes but for the order of their interfaces. -/
def Reorders (cp cp' : Classpath) : Prop :=
  ∀ name, Option.Rel ClassFile.Reorders (cp.class? name) (cp'.class? name)

variable {cp cp' : Classpath} {name descriptor : String}

theorem Reorders.symm (h : cp.Reorders cp') : cp'.Reorders cp := by
  intro name
  have hname := h name
  revert hname
  generalize cp.class? name = c, cp'.class? name = d
  rintro (h | -)
  · exact .some h.symm
  · exact .none

theorem Reorders.exists_class (h : cp.Reorders cp') {c : ClassFile}
    (hc : cp.class? name = some c) : ∃ d, cp'.class? name = some d ∧ c.Reorders d := by
  have hname := h name
  rw [hc] at hname
  cases hd : cp'.class? name with
  | none => rw [hd] at hname; cases hname
  | some d =>
    rw [hd] at hname
    cases hname with
    | some hcd => exact ⟨d, rfl, hcd⟩

theorem Reorders.carries (h : cp.Reorders cp') : cp.Carries cp' :=
  fun _ _ hc => h.exists_class hc

theorem Reorders.acyclic (h : cp.Reorders cp') (hacyclic : cp.Acyclic) : cp'.Acyclic :=
  h.symm.carries.acyclic hacyclic

theorem Reorders.isSome_classMethod? (h : cp.Reorders cp') (hacyclic : cp.Acyclic)
    {owner owner' : ClassFile} (hfound : cp.class? owner.name = some owner)
    (hfound' : cp'.class? owner'.name = some owner') (howner : owner.Reorders owner')
    (hname : name ≠ "<init>" ∧ name ≠ "<clinit>")
    (hsome : (cp.classMethod? owner name descriptor).isSome = true) :
    (cp'.classMethod? owner' name descriptor).isSome = true :=
  h.carries.isSome_classMethod? (h.acyclic hacyclic) hfound hfound' howner hname hsome

theorem Reorders.isSome_interfaceMethod? (h : cp.Reorders cp') (hacyclic : cp.Acyclic)
    {owner owner' : ClassFile} (howner : owner.Reorders owner')
    (hsome : (cp.interfaceMethod? owner name descriptor).isSome = true) :
    (cp'.interfaceMethod? owner' name descriptor).isSome = true :=
  h.carries.isSome_interfaceMethod? (h.acyclic hacyclic) howner hsome

/-- References to methods mean what the hierarchy says: where no class stands above itself, a
reference to a method of a class that can be found follows the chain of its superclasses and then the
interfaces above that, a reference to a method of an interface follows the interface, the root class
and the interfaces above, and whether anything is found does not depend on the order in which
interfaces are named. -/
theorem method_references_follow_hierarchy (hacyclic : cp.Acyclic) {owner : ClassFile}
    (hfound : cp.class? owner.name = some owner) (hname : name ≠ "<init>" ∧ name ≠ "<clinit>") :
    (∃ chain, cp.SuperclassChain owner chain
      ∧ cp.FollowsClass chain name descriptor (cp.classMethod? owner name descriptor))
    ∧ cp.FollowsInterface owner name descriptor (cp.interfaceMethod? owner name descriptor)
    ∧ ∀ cp' owner', cp.Reorders cp' → cp'.class? owner.name = some owner' →
      (cp'.classMethod? owner' name descriptor).isSome
          = (cp.classMethod? owner name descriptor).isSome
        ∧ (cp'.interfaceMethod? owner' name descriptor).isSome
          = (cp.interfaceMethod? owner name descriptor).isSome := by
  refine ⟨⟨_, superclassChain_spec hacyclic hfound, followsClass_classMethod? hacyclic hname⟩,
    followsInterface_interfaceMethod? hacyclic owner name descriptor, ?_⟩
  intro cp' owner' h howner
  have hfound' := class?_name howner
  have hsame : owner.Reorders owner' := by
    obtain ⟨d, hd, hreorders⟩ := h.exists_class hfound
    rw [howner] at hd
    cases hd
    exact hreorders
  have hacyclic' := h.acyclic hacyclic
  constructor
  · rw [Bool.eq_iff_iff]
    exact ⟨h.symm.isSome_classMethod? hacyclic' hfound' hfound hsame.symm hname,
      h.isSome_classMethod? hacyclic hfound hfound' hsame hname⟩
  · rw [Bool.eq_iff_iff]
    exact ⟨h.symm.isSome_interfaceMethod? hacyclic' hsame.symm,
      h.isSome_interfaceMethod? hacyclic hsame⟩

/-- A class whose superclass gets a method from two interfaces: one implements what is above both,
the other declares it anew. -/
def diamond : Classpath :=
  let declared : Method := ⟨"run", "()V", ⟨0x0401⟩, []⟩
  .models "diamond" [
    { name := "d/Impl", superName := some "d/Base", interfaces := ["d/Top"] },
    { name := "d/Base", superName := some "java/lang/Object", interfaces := ["d/Right", "d/Left"] },
    { name := "d/Left", superName := some "java/lang/Object", interfaces := ["d/Top"],
      access := ⟨0x0601⟩, methods := [⟨"run", "()V", ⟨0x0001⟩, []⟩] },
    { name := "d/Right", superName := some "java/lang/Object", interfaces := ["d/Top", "x/Gone"],
      access := ⟨0x0601⟩, methods := [declared] },
    { name := "d/Top", superName := some "java/lang/Object", access := ⟨0x0601⟩,
      methods := [declared] },
    { name := "java/lang/Object", superName := none }]

def diamondOwner : ClassFile :=
  { name := "d/Impl", superName := some "d/Base", interfaces := ["d/Top"] }

theorem acyclic_diamond : diamond.Acyclic :=
  acyclic_of_rank
    (fun name => if name = "d/Impl" then 4 else if name = "d/Base" then 3
      else if name = "d/Left" ∨ name = "d/Right" then 2 else if name = "d/Top" then 1 else 0)
    (by decide)

theorem method_references_follow_hierarchy_diamond :
    ((diamond.classMethod? diamondOwner "run" "()V").map (·.1.name) = some "d/Left"
      ∧ (diamond.interfaceMethod? diamondOwner "run" "()V").map (·.1.name) = some "d/Top")
    ∧ (∃ chain, diamond.SuperclassChain diamondOwner chain
      ∧ diamond.FollowsClass chain "run" "()V" (diamond.classMethod? diamondOwner "run" "()V"))
    ∧ diamond.FollowsInterface diamondOwner "run" "()V"
      (diamond.interfaceMethod? diamondOwner "run" "()V")
    ∧ ∀ cp' owner', diamond.Reorders cp' → cp'.class? diamondOwner.name = some owner' →
      (cp'.classMethod? owner' "run" "()V").isSome
          = (diamond.classMethod? diamondOwner "run" "()V").isSome
        ∧ (cp'.interfaceMethod? owner' "run" "()V").isSome
          = (diamond.interfaceMethod? diamondOwner "run" "()V").isSome :=
  ⟨by decide +kernel, method_references_follow_hierarchy acyclic_diamond (by decide) (by decide)⟩

/-- A class declares an instance method for others, by whichever of its declarations. -/
structure DeclaresForOthers (c : ClassFile) (name descriptor : String) (m : Method) : Prop where
  declared : m ∈ c.methods
  signature : m.name = name ∧ m.descriptor = descriptor
  notPrivate : m.access.isPrivate = false
  notStatic : m.access.isStatic = false

def hiddenImpl : ClassFile := { name := "p/Impl", superName := none, interfaces := ["p/Job"] }

def hiddenJob : ClassFile :=
  { name := "p/Job", superName := none, access := ⟨0x0601⟩,
    methods := [⟨"run", "()V", ⟨0x0002⟩, []⟩, ⟨"run", "()V", ⟨0x0401⟩, []⟩] }

/-- An interface, and the root class, that declare a method twice, the first time for themselves
alone. -/
def hiddenByFirst : Classpath := .models "hidden" [hiddenImpl, hiddenJob,
  { name := "java/lang/Object", superName := none,
    methods := [⟨"copy", "()V", ⟨0x0002⟩, []⟩, ⟨"copy", "()V", ⟨0x0001⟩, []⟩] }]

/-- It takes the first declaration for a method to be found: one that an interface makes for the
classes below it after one for itself alone is not, nor is one of the root class. -/
theorem later_declaration_not_found :
    (¬ ∀ (cp : Classpath) (owner : ClassFile) (chain : List ClassFile) (name descriptor : String),
      cp.Acyclic → cp.class? owner.name = some owner → name ≠ "<init>" ∧ name ≠ "<clinit>" →
      cp.SuperclassChain owner chain → (∀ c ∈ chain, c.method? name descriptor = none) →
      ((cp.classMethod? owner name descriptor).isSome = true ↔
        ∃ i m, cp.class? i.name = some i
          ∧ (∃ c ∈ chain, ∃ d ∈ c.interfaces, ReflTransGen cp.ExtendsInterface d i.name)
          ∧ DeclaresForOthers i name descriptor m))
    ∧ ¬ ∀ (cp : Classpath) (owner root : ClassFile) (name descriptor : String) (m : Method),
      cp.Acyclic → cp.class? owner.name = some owner → name ≠ "<init>" ∧ name ≠ "<clinit>" →
      owner.method? name descriptor = none → cp.class? ClassName.object = some root →
      DeclaresForOthers root name descriptor m → m.access.isPublic = true →
      (cp.interfaceMethod? owner name descriptor).isSome = true := by
  have hacyclic : hiddenByFirst.Acyclic :=
    acyclic_of_rank (fun name => if name = "p/Impl" then 1 else 0) (by decide)
  refine ⟨fun hclaim => ?_, fun hclaim => ?_⟩
  · have hfound : hiddenByFirst.class? hiddenImpl.name = some hiddenImpl := by decide
    have hundeclared : ∀ c ∈ hiddenByFirst.superclassChain hiddenImpl,
        c.method? "run" "()V" = none := by decide
    have hnone : (hiddenByFirst.classMethod? hiddenImpl "run" "()V").isSome = false := by decide
    have hiff := hclaim hiddenByFirst hiddenImpl _ "run" "()V" hacyclic hfound (by decide)
      (superclassChain_spec hacyclic hfound) hundeclared
    have hsome := hiff.mpr ⟨hiddenJob, ⟨"run", "()V", ⟨0x0401⟩, []⟩, by decide,
      ⟨hiddenImpl, by decide, "p/Job", by decide, .refl⟩, by decide, by decide, by decide, by decide⟩
    rw [hnone] at hsome
    cases hsome
  · have hnone : (hiddenByFirst.interfaceMethod? hiddenJob "copy" "()V").isSome = false := by decide
    have hsome := hclaim hiddenByFirst hiddenJob _ "copy" "()V" ⟨"copy", "()V", ⟨0x0001⟩, []⟩
      hacyclic (by decide) (by decide) (by decide) rfl
      ⟨by decide, by decide, by decide, by decide⟩ (by decide)
    rw [hnone] at hsome
    cases hsome

end Classpath
end Linkage

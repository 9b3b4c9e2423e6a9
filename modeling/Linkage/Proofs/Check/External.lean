import Linkage.Proofs.Check.Agreement
import Linkage.Proofs.Check.Composition

/-! External prefixes take problems of references out, and nothing else. -/
namespace Linkage

/-- The problem is one of a reference into classes whose names begin with one of the texts, in which
dots are read as slashes. -/
def Problem.RefersInto (texts : List String) (p : Problem) : Prop :=
  ∃ name ∈ p.referredClass?, ∃ text ∈ texts, (ClassName.ofDotted text).toList <+: name.toList

instance (texts : List String) (p : Problem) : Decidable (p.RefersInto texts) :=
  match h : p.referredClass? with
  | none => isFalse (by simp [Problem.RefersInto, h])
  | some name =>
    decidable_of_iff (∃ text ∈ texts, (ClassName.ofDotted text).toList <+: name.toList)
      (by simp [Problem.RefersInto, h])

theorem Problem.refersInto_congr {texts : List String} {p q : Problem}
    (h : p.identity = q.identity) : p.RefersInto texts ↔ q.RefersInto texts := by
  unfold RefersInto
  rw [referredClass?_congr h]

namespace Check

/-- The problems that stay when references into external classes are not looked at. -/
def internal (texts : List String) (problems : List Problem) : List Problem :=
  problems.filter fun p => ¬p.RefersInto texts

/-- A problem is internal or not by its identity. -/
theorem firsts_internal (texts : List String) (problems : List Problem) :
    firsts [] (internal texts problems) = internal texts (firsts [] problems) := by
  refine firsts_filter (fun p q h => ?_) problems fun _ _ => Iff.rfl
  exact decide_eq_decide.mpr (not_congr (Problem.refersInto_congr h))

theorem additive_internal (texts : List String) :
    Additive fun whole part => part = internal texts whole where
  nil := rfl
  append := by
    rintro ps _ qs _ rfl rfl
    exact (List.filter_append ps qs).symm

variable {id : String} {cp : Classpath} {texts : List String} {location : Location}

/-- The class that a name means is one of somebody else. -/
def IsForeign (texts : List String) (name : String) : Prop :=
  ∃ element ∈ ClassName.element? name,
    ∃ text ∈ texts, (ClassName.ofDotted text).toList <+: element.toList

/-- Problems about one class stay or go together. -/
theorem internal_of_foreign {name : String} (hforeign : IsForeign texts name)
    {problems : List Problem} (h : AllAbout location (ClassName.element? name) problems) :
    internal texts problems = [] := by
  refine List.filter_eq_nil_iff.mpr fun p hp => ?_
  have hinto : p.RefersInto texts := by
    unfold Problem.RefersInto
    rw [(h p hp).2]
    exact hforeign
  simp [hinto]

theorem internal_of_not_foreign {name : String} (hforeign : ¬IsForeign texts name)
    {problems : List Problem} (h : AllAbout location (ClassName.element? name) problems) :
    internal texts problems = problems := by
  refine List.filter_eq_self.mpr fun p hp => ?_
  have hinto : ¬p.RefersInto texts := by
    unfold Problem.RefersInto
    rw [(h p hp).2]
    exact hforeign
  simp [hinto]

theorem internal_of_allAbout_none {problems : List Problem}
    (h : AllAbout location none problems) : internal texts problems = problems :=
  List.filter_eq_self.mpr fun p hp => by simp [Problem.RefersInto, (h p hp).2]

theorem isExternal_iff {name : String} :
    (Surroundings.mk id cp (externalPrefixesOf texts)).isExternal name
      ↔ ∃ text ∈ texts, (ClassName.ofDotted text).toList <+: name.toList := by
  simp [Surroundings.isExternal, externalPrefixesOf]

variable {accessor : ClassFile}

/-- A reference to a class of somebody else is passed over. -/
theorem ofClassRef_of_foreign {name : String} (hforeign : IsForeign texts name)
    (instruction : Option InstructionKind) :
    ofClassRef ⟨id, cp, externalPrefixesOf texts⟩ accessor location name instruction
      = ([], none) := by
  obtain ⟨element, helement, hforeign⟩ := hforeign
  unfold ofClassRef
  rw [helement]
  exact if_pos (isExternal_iff.mpr hforeign)

/-- Any other reference is looked at as ever. -/
theorem ofClassRef_of_not_foreign {name : String} (hforeign : ¬IsForeign texts name)
    (instruction : Option InstructionKind) :
    ofClassRef ⟨id, cp, externalPrefixesOf texts⟩ accessor location name instruction
      = ofClassRef ⟨id, cp, []⟩ accessor location name instruction := by
  unfold ofClassRef
  cases helement : ClassName.element? name with
  | none => rfl
  | some element =>
    have hexternal : ¬(Surroundings.mk id cp (externalPrefixesOf texts)).isExternal element :=
      mt isExternal_iff.mp fun h => hforeign ⟨element, helement, h⟩
    dsimp only
    rw [if_neg hexternal, if_neg (by simp [Surroundings.isExternal])]

theorem ofInstruction_of_foreign {i : Instruction} (hforeign : IsForeign texts i.referredName) :
    ofInstruction ⟨id, cp, externalPrefixesOf texts⟩ accessor location i = return [] := by
  unfold Instruction.referredName at hforeign
  unfold ofInstruction
  cases hreference : i.reference with
  | type name =>
    rw [hreference] at hforeign
    simp [ofClassRef_of_foreign hforeign]
  | method ref =>
    rw [hreference] at hforeign
    simp [ofMethodRef, ofMemberRef, ofClassRef_of_foreign hforeign]
  | field ref =>
    rw [hreference] at hforeign
    simp [ofFieldRef, ofMemberRef, ofClassRef_of_foreign hforeign]

theorem ofInstruction_of_not_foreign {i : Instruction}
    (hforeign : ¬IsForeign texts i.referredName) :
    ofInstruction ⟨id, cp, externalPrefixesOf texts⟩ accessor location i
      = ofInstruction ⟨id, cp, []⟩ accessor location i := by
  unfold Instruction.referredName at hforeign
  unfold ofInstruction
  cases hreference : i.reference with
  | type name =>
    rw [hreference] at hforeign
    simp only [ofClassRef_of_not_foreign hforeign]
  | method ref =>
    rw [hreference] at hforeign
    simp only [ofMethodRef, ofMemberRef, ofClassRef_of_not_foreign hforeign]
  | field ref =>
    rw [hreference] at hforeign
    simp only [ofFieldRef, ofMemberRef, ofClassRef_of_not_foreign hforeign]

/-- With prefixes, of the problems of each part of a class the internal ones are found. -/
theorem parallel_internal (hacyclic : (Surroundings.mk id cp []).classpath.Acyclic)
    (texts : List String) :
    Parallel ⟨id, cp, []⟩ ⟨id, cp, externalPrefixesOf texts⟩
      fun whole part => part = internal texts whole where
  additive := additive_internal texts
  classRef accessor location name instruction := by
    have habout := allAbout_ofClassRef ⟨id, cp, []⟩ accessor location name instruction
    by_cases hforeign : IsForeign texts name
    · rw [ofClassRef_of_foreign hforeign, internal_of_foreign hforeign habout]
    · rw [ofClassRef_of_not_foreign hforeign, internal_of_not_foreign hforeign habout]
  instruction accessor location i := by
    have hsettles : Settles cp (AllAbout location (ClassName.element? i.referredName))
        (ofInstruction ⟨id, cp, []⟩ accessor location i) :=
      settles_ofInstruction hacyclic location i
    by_cases hforeign : IsForeign texts i.referredName
    · rw [ofInstruction_of_foreign hforeign]
      refine Agree.of_settles hsettles (Settles.pure (P := (· = [])) rfl) ?_
      rintro problems _ habout rfl
      exact (internal_of_foreign hforeign habout).symm
    · rw [ofInstruction_of_not_foreign hforeign]
      exact Agree.of_settles_self hsettles fun problems habout =>
        (internal_of_not_foreign hforeign habout).symm
  abstractMethods c :=
    Agree.of_settles_self (settles_ofAbstractMethods hacyclic c) fun _ habout =>
      (internal_of_allAbout_none habout).symm
  overriding c m := (internal_of_allAbout_none (allAbout_ofOverriding cp c m)).symm

/-- External prefixes only take out problems of references: where no class of the classpath stands
above itself, a check with prefixes comes to the outcome of the check without them, less the
problems of references into classes whose names begin so. -/
theorem external_prefixes_filter (hacyclic : cp.Acyclic) (id : String) (texts : List String)
    (plugin : Classpath) : ∃ whole,
      Yields ⟨id, cp, []⟩ [] plugin whole
        ∧ Yields ⟨id, cp, externalPrefixesOf texts⟩ [] plugin
          { whole with problems := whole.problems.filter fun p => ¬p.RefersInto texts } := by
  have hwhole := yields_outcomeOf ⟨id, cp, []⟩ [] plugin
  have hpart := yields_outcomeOf ⟨id, cp, externalPrefixesOf texts⟩ [] plugin
  rw [outcomeOf_no_filters] at hwhole hpart
  rw [(parallel_internal hacyclic texts).candidates plugin, firsts_internal] at hpart
  exact ⟨_, hwhole, hpart⟩

/-- A class without its superclass that calls a missing method and makes a missing object. -/
def stray : Classpath :=
  let call : Instruction := ⟨0, .invokeStatic, .method ⟨"h/Host", "gone", "()V"⟩, false⟩
  let make : Instruction := ⟨3, .newObject, .type "y/Gone", false⟩
  let run : Method := ⟨"run", "()V", ⟨0x0009⟩, [call, make]⟩
  .models "plugin" [{ name := "p/A", superName := some "x/Gone", methods := [run] }]

def strayBesideHost : Classpath := .union [stray, .models "host" [{ name := "h/Host", superName := none }]]

theorem external_prefixes_filter_stray :
    strayBesideHost.Acyclic
      ∧ reportedTypes ⟨"p", strayBesideHost, []⟩ stray
        = some [.classNotFound, .methodNotFound, .classNotFound]
      ∧ reportedTypes ⟨"p", strayBesideHost, externalPrefixesOf ["x.", "h/Ho"]⟩ stray
        = some [.classNotFound]
      ∧ ∃ whole, Yields ⟨"p", strayBesideHost, []⟩ [] stray whole
        ∧ Yields ⟨"p", strayBesideHost, externalPrefixesOf ["x.", "h/Ho"]⟩ [] stray
          { whole with problems := whole.problems.filter fun p => ¬p.RefersInto ["x.", "h/Ho"] } :=
  have hacyclic : strayBesideHost.Acyclic :=
    Classpath.acyclic_of_rank (fun name => if name = "p/A" then 1 else 0) (by decide)
  ⟨hacyclic, by decide, by decide +kernel,
    external_prefixes_filter hacyclic "p" ["x.", "h/Ho"] stray⟩

end Check
end Linkage

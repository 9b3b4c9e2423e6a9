import Linkage.Check.Filter
import Linkage.Proofs.Resolution.Supertypes

/-! Documented changes explain downward along the hierarchy: what is known to have happened to a member
of a class explains the problems with that member in all classes below. -/
namespace Linkage

open Relation (ReflTransGen)

/-- The same place in another class. -/
def Location.inClass (c : String) : Location → Location
  | .type _ => .type c
  | .method _ name descriptor => .method c name descriptor

@[simp] theorem Location.className_inClass (c : String) (l : Location) :
    (l.inClass c).className = c := by
  cases l <;> rfl

namespace Problem

/-- The class with whose member a problem is, and the name of the member. Where a method is not
implemented, it is the class that should do so. -/
def member? (p : Problem) : Option (String × String) :=
  match p.finding with
  | .methodNotFound ref .. | .fieldNotFound ref .. => some (ref.owner, ref.name)
  | .illegalMethodAccess _ resolved .. | .illegalFieldAccess _ resolved .. =>
    some (resolved.owner, resolved.name)
  | .methodNotImplemented ref => some (p.location.className, ref.name)
  | .classNotFound .. | .illegalClassAccess .. | .overridingFinalMethod _ => none

/-- The changes of a member that explain a problem with it. -/
def explanations (p : Problem) : List MemberChange :=
  match p.finding with
  | .methodNotFound .. => [.methodRemoved, .methodReturnTypeChanged, .methodParameterTypeChanged]
  | .fieldNotFound .. => [.fieldRemoved, .fieldTypeChanged]
  | .illegalMethodAccess .. => [.methodVisibilityChanged]
  | .illegalFieldAccess .. => [.fieldVisibilityChanged]
  | .methodNotImplemented _ => [.abstractMethodAdded]
  | .classNotFound .. | .illegalClassAccess .. | .overridingFinalMethod _ => []

/-- The same problem with the member of another class, which has this hierarchy. -/
def onClass (p : Problem) (c : String) (owner : Hierarchy) : Problem :=
  match p.finding with
  | .methodNotFound ref i _ => ⟨.methodNotFound { ref with owner := c } i owner, p.location⟩
  | .fieldNotFound ref i _ => ⟨.fieldNotFound { ref with owner := c } i owner, p.location⟩
  | .illegalMethodAccess ref resolved r i =>
    ⟨.illegalMethodAccess ref { resolved with owner := c } r i, p.location⟩
  | .illegalFieldAccess ref resolved r i =>
    ⟨.illegalFieldAccess ref { resolved with owner := c } r i, p.location⟩
  | .methodNotImplemented ref => ⟨.methodNotImplemented ref, p.location.inClass c⟩
  | .classNotFound .. | .illegalClassAccess .. | .overridingFinalMethod _ => p

variable {p : Problem} {c d name : String}

theorem member?_onClass (h : p.member? = some (c, name)) (owner : Hierarchy) :
    (p.onClass d owner).member? = some (d, name) := by
  obtain ⟨finding, location⟩ := p
  cases finding <;> simp_all [member?, onClass]

theorem explanations_onClass (owner : Hierarchy) :
    (p.onClass d owner).explanations = p.explanations := by
  obtain ⟨finding, location⟩ := p
  cases finding <;> rfl

end Problem

namespace Change

variable {cp : Classpath} {p : Problem} {c name : String}

/-- How a member changed tells of a problem with it, if it changed in a class above. -/
theorem explains_member (h : p.member? = some (c, name)) (kind : MemberChange)
    (owner changed : String) :
    (member kind owner changed).explains cp p = true
      ↔ kind ∈ p.explanations ∧ name = changed ∧ cp.isSubtypeOf c owner = true := by
  obtain ⟨finding, location⟩ := p
  -- the problem says which changes count, and of whom
  cases finding <;> simp only [Problem.member?, Option.some.injEq, Prod.mk.injEq, reduceCtorEq] at h
  all_goals
    obtain ⟨rfl, rfl⟩ := h
    cases kind <;> simp [explains, Problem.explanations]

/-- A problem with a member is explained by a change of that member in a class above, and by nothing
else. -/
theorem explains_iff (h : p.member? = some (c, name)) {change : Change} :
    change.explains cp p = true ↔ ∃ kind ∈ p.explanations, ∃ owner,
      change = .member kind owner name ∧ ReflTransGen cp.Extends c owner := by
  cases change with
  | classRemoved removed =>
    obtain ⟨finding, location⟩ := p
    cases finding <;> simp_all [explains, Problem.member?]
  | packageRemoved removed =>
    obtain ⟨finding, location⟩ := p
    cases finding <;> simp_all [explains, Problem.member?]
  | member kind owner changed =>
    rw [explains_member h, Classpath.isSubtypeOf_iff]
    constructor
    · rintro ⟨hkind, rfl, hbelow⟩
      exact ⟨kind, hkind, owner, rfl, hbelow⟩
    · rintro ⟨_, hkind, _, heq, hbelow⟩
      cases heq
      exact ⟨hkind, rfl, hbelow⟩

theorem normalized_eq_member {change : Change} {kind : MemberChange} {owner : String} :
    change.normalized = .member kind owner name
      ↔ ∃ dotted, change = .member kind dotted name ∧ ClassName.ofDotted dotted = owner := by
  cases change with
  | classRemoved removed => simp [normalized]
  | packageRemoved removed => simp [normalized]
  | member k dotted n =>
    simp only [normalized, member.injEq]
    constructor
    · rintro ⟨rfl, rfl, rfl⟩
      exact ⟨dotted, ⟨rfl, rfl, rfl⟩, rfl⟩
    · rintro ⟨_, ⟨rfl, rfl, rfl⟩, rfl⟩
      exact ⟨rfl, rfl, rfl⟩

end Change

namespace Filter

variable {env : Check.Surroundings} {changes more : List Change} {p : Problem} {c d name : String}

/-- The filter takes the problem out of a report. -/
def TakesOut (f : Filter) (env : Check.Surroundings) (p : Problem) : Prop :=
  (f.reason? env p).isSome = true

theorem takesOut_ofChanges :
    (ofChanges changes).TakesOut env p
      ↔ ∃ change ∈ changes, change.normalized.explains env.classpath p = true := by
  unfold TakesOut ofChanges
  rw [reason?, Option.isSome_map, List.find?_isSome]
  simp

/-- A problem with a member is taken out if, and only if, a change that explains it is documented for
that member in a class above. -/
theorem takesOut_ofChanges_iff (h : p.member? = some (c, name)) :
    (ofChanges changes).TakesOut env p ↔ ∃ kind ∈ p.explanations, ∃ owner,
      .member kind owner name ∈ changes
        ∧ ReflTransGen env.classpath.Extends c (ClassName.ofDotted owner) := by
  rw [takesOut_ofChanges]
  constructor
  · rintro ⟨change, hmem, hexplains⟩
    obtain ⟨kind, hkind, owner, hnormal, hbelow⟩ := (Change.explains_iff h).mp hexplains
    obtain ⟨dotted, rfl, rfl⟩ := Change.normalized_eq_member.mp hnormal
    exact ⟨kind, hkind, dotted, hmem, hbelow⟩
  · rintro ⟨kind, hkind, owner, hmem, hbelow⟩
    refine ⟨_, hmem, (Change.explains_iff h).mpr ⟨kind, hkind, _, ?_, hbelow⟩⟩
    exact Change.normalized_eq_member.mpr ⟨owner, rfl, rfl⟩

theorem TakesOut.onClass (h : p.member? = some (c, name))
    (hbelow : ReflTransGen env.classpath.Extends d c)
    (htaken : (ofChanges changes).TakesOut env p) (owner : Hierarchy) :
    (ofChanges changes).TakesOut env (p.onClass d owner) := by
  obtain ⟨kind, hkind, above, hmem, habove⟩ := (takesOut_ofChanges_iff h).mp htaken
  apply (takesOut_ofChanges_iff (Problem.member?_onClass h owner)).mpr
  rw [Problem.explanations_onClass]
  exact ⟨kind, hkind, above, hmem, hbelow.trans habove⟩

theorem TakesOut.mono (hsub : changes ⊆ more) (htaken : (ofChanges changes).TakesOut env p) :
    (ofChanges more).TakesOut env p := by
  obtain ⟨change, hmem, hexplains⟩ := takesOut_ofChanges.mp htaken
  exact takesOut_ofChanges.mpr ⟨change, hsub hmem, hexplains⟩

/-- Documented changes explain downward, on any classpath. A problem with a member is taken out if,
and only if, a change that explains it is documented for that member in a class above; the same
problem is then taken out for every class below. Whatever is taken out stays out when more changes
are documented, and it does not matter in which order they are. -/
theorem documented_explain_below (env : Check.Surroundings) (changes : List Change) :
    (∀ p c name, p.member? = some (c, name) →
      ((ofChanges changes).TakesOut env p ↔ ∃ kind ∈ p.explanations, ∃ owner,
        .member kind owner name ∈ changes
          ∧ ReflTransGen env.classpath.Extends c (ClassName.ofDotted owner)))
      ∧ (∀ p c d name owner, p.member? = some (c, name) →
        ReflTransGen env.classpath.Extends d c → (ofChanges changes).TakesOut env p →
          (ofChanges changes).TakesOut env (p.onClass d owner))
      ∧ (∀ more p, changes ⊆ more → (ofChanges changes).TakesOut env p →
        (ofChanges more).TakesOut env p)
      ∧ ∀ others p, changes.Perm others →
        ((ofChanges changes).TakesOut env p ↔ (ofChanges others).TakesOut env p) := by
  refine ⟨fun p c name h => takesOut_ofChanges_iff h, ?_, ?_, ?_⟩
  · intro p c d name owner h hbelow htaken
    exact htaken.onClass h hbelow owner
  · intro more p hsub htaken
    exact htaken.mono hsub
  · intro others p hperm
    constructor
    · exact TakesOut.mono hperm.subset
    · exact TakesOut.mono hperm.symm.subset

/-- Two classes that stand above each other, and a third one below them. -/
def knot : Classpath :=
  .models "knot" [{ name := "a/A", superName := some "a/B" },
    { name := "a/B", superName := some "a/A" }, { name := "p/D", superName := some "a/B" }]

/-- A method that was removed from one of them is missing in all three. -/
theorem documented_explain_below_knot :
    let env : Check.Surroundings := ⟨"p", knot, []⟩
    let removed := [Change.member .methodRemoved "a.A" "run"]
    let missing (c : String) : Problem :=
      ⟨.methodNotFound ⟨c, "run", "()V"⟩ .invokeStatic (.unresolved c), .type "p/D"⟩
    (ofChanges removed).TakesOut env (missing "a/B")
      ∧ ReflTransGen knot.Extends "p/D" "a/B"
      ∧ (ofChanges removed).TakesOut env (missing "p/D") := by
  intro env removed missing
  have htaken : (ofChanges removed).TakesOut env (missing "a/B") := by
    unfold TakesOut
    decide +kernel
  have hextends : "a/B" ∈ knot.supertypesOf "p/D" := by decide
  have hbelow : ReflTransGen knot.Extends "p/D" "a/B" := .single hextends
  obtain ⟨-, hdown, -, -⟩ := documented_explain_below env removed
  exact ⟨htaken, hbelow, hdown _ _ _ _ (.unresolved "p/D") rfl hbelow htaken⟩

end Filter
end Linkage

import Linkage.Proofs.Resolution.Fields
import Linkage.Proofs.Resolution.Methods

/-! What is found on a classpath is found on every other one that has its classes, whatever else is
there and however classes order their interfaces. -/
namespace Linkage

open Relation (ReflTransGen TransGen)

/-- Two classes that differ at most in the order of their interfaces and in how often each is
named. -/
structure ClassFile.Reorders (c d : ClassFile) : Prop where
  interfaces : ∀ i, i ∈ c.interfaces ↔ i ∈ d.interfaces
  rest : { d with interfaces := c.interfaces } = c

theorem ClassFile.Reorders.symm {c d : ClassFile} (h : c.Reorders d) : d.Reorders c where
  interfaces i := (h.interfaces i).symm
  rest := by rw [← h.rest]

theorem ClassFile.Reorders.name {c d : ClassFile} (h : c.Reorders d) : d.name = c.name := by
  rw [← h.rest]

theorem ClassFile.Reorders.superName {c d : ClassFile} (h : c.Reorders d) :
    d.superName = c.superName := by
  rw [← h.rest]

theorem ClassFile.Reorders.method? {c d : ClassFile} (h : c.Reorders d) (name descriptor : String) :
    d.method? name descriptor = c.method? name descriptor := by
  rw [← h.rest]
  rfl

theorem ClassFile.Reorders.refl (c : ClassFile) : c.Reorders c where
  interfaces _ := Iff.rfl
  rest := rfl

theorem ClassFile.Reorders.field? {c d : ClassFile} (h : c.Reorders d) (name descriptor : String) :
    d.field? name descriptor = c.field? name descriptor := by
  rw [← h.rest]
  rfl

namespace Classpath

/-- What can be found on `cp` can be found on `cp'`, up to the order of interfaces. -/
def Carries (cp cp' : Classpath) : Prop :=
  ∀ name c, cp.class? name = some c → ∃ d, cp'.class? name = some d ∧ c.Reorders d

variable {cp cp' : Classpath} {name descriptor : String}

/-- A method of a class is found if a class of its chain declares it or an interface above offers
it. -/
theorem FollowsClass.isSome_iff {chain : List ClassFile} {answer : Option (ClassFile × Method)}
    (h : cp.FollowsClass chain name descriptor answer) :
    answer.isSome = true ↔ (∃ c ∈ chain, (c.method? name descriptor).isSome = true)
      ∨ ∃ i m, cp.Offers chain name descriptor i m := by
  by_cases hchain : ∀ c ∈ chain, c.method? name descriptor = none
  · rw [(h.inherited hchain).isSome_iff]
    refine (or_iff_right ?_).symm
    rintro ⟨c, hc, hsome⟩
    simp [hchain c hc] at hsome
  · push Not at hchain
    obtain ⟨c, hc, hdeclared⟩ := hchain
    obtain ⟨m, hm⟩ := Option.ne_none_iff_exists'.mp hdeclared
    have hfirst : (chain.findSome? (·.method? name descriptor)).isSome = true :=
      List.findSome?_isSome_iff.mpr ⟨c, hc, by rw [hm]; rfl⟩
    obtain ⟨m', hm'⟩ := Option.isSome_iff_exists.mp hfirst
    obtain ⟨front, d, back, heq, hd, hfront⟩ := List.findSome?_eq_some_iff.mp hm'
    rw [h.declared front d back m' heq hfront hd]
    exact iff_of_true rfl (Or.inl ⟨c, hc, by rw [hm]; rfl⟩)

/-- A public instance method of the root class that is open to interfaces. -/
def OpenInObject (cp : Classpath) (name descriptor : String) (m : Method) : Prop :=
  ∃ c, cp.class? ClassName.object = some c ∧ c.method? name descriptor = some m
    ∧ m.access.isPublic = true ∧ m.access.isStatic = false

theorem FollowsInterface.isSome_iff {owner : ClassFile} {answer : Option (ClassFile × Method)}
    (h : cp.FollowsInterface owner name descriptor answer) :
    answer.isSome = true ↔ (owner.method? name descriptor).isSome = true
      ∨ (∃ m, cp.OpenInObject name descriptor m)
      ∨ ∃ i m, cp.Offers [owner] name descriptor i m := by
  cases howner : owner.method? name descriptor with
  | some m => simp [h.declared m howner]
  | none =>
    by_cases hobject : ∃ m, cp.OpenInObject name descriptor m
    · obtain ⟨m, c, hc, hm, hpublic, hstatic⟩ := hobject
      rw [h.ofObject howner c m hc hm hpublic hstatic]
      exact iff_of_true rfl (Or.inr (Or.inl ⟨m, c, hc, hm, hpublic, hstatic⟩))
    · have hbarred : ∀ c m, cp.class? ClassName.object = some c →
          c.method? name descriptor = some m →
          m.access.isPublic = false ∨ m.access.isStatic = true := by
        intro c m hc hm
        by_contra hopen
        push Not at hopen
        exact hobject ⟨m, c, hc, hm, by simpa using hopen.1, by simpa using hopen.2⟩
      rw [(h.inherited howner hbarred).isSome_iff]
      simp [hobject]

namespace Carries

variable (h : cp.Carries cp')
include h

theorem extendsClass {d s : String} (hs : cp.Extends d s) : cp'.Extends d s := by
  unfold Extends supertypesOf at hs ⊢
  cases hc : cp.class? d with
  | none => simp [hc] at hs
  | some c =>
    obtain ⟨c', hc', hcc'⟩ := h d c hc
    simpa [hc, hc', ClassFile.supertypes, hcc'.superName, hcc'.interfaces] using hs

theorem extendsInterface {d i : String} (hi : cp.ExtendsInterface d i) :
    cp'.ExtendsInterface d i := by
  unfold ExtendsInterface interfacesOf at hi ⊢
  cases hc : cp.class? d with
  | none => simp [hc] at hi
  | some c =>
    obtain ⟨c', hc', hcc'⟩ := h d c hc
    simpa [hc, hc', hcc'.interfaces] using hi

theorem acyclic (hacyclic : cp'.Acyclic) : cp.Acyclic :=
  fun n hn => hacyclic n (hn.lift id fun _ _ => h.extendsClass)

/-- Chains of superclasses get longer at most. -/
theorem chain {c c' : ClassFile} {chain chain' : List ClassFile}
    (hchain : cp.SuperclassChain c chain) (hchain' : cp'.SuperclassChain c' chain')
    (hc : c.Reorders c') : ∀ d ∈ chain, ∃ d' ∈ chain', d.Reorders d' := by
  induction hchain generalizing c' chain' with
  | top => simpa using ⟨c', hchain'.mem_self, hc⟩
  | above hsuper _ ih =>
    obtain ⟨s, hs, hd⟩ := Option.bind_eq_some_iff.mp hsuper
    obtain ⟨d', hd', hdd'⟩ := h s _ hd
    have hsuper' : c'.superName.bind cp'.class? = some d' := by
      rw [hc.superName, hs]
      exact hd'
    intro e he
    rcases List.mem_cons.mp he with rfl | he
    · exact ⟨c', hchain'.mem_self, hc⟩
    · obtain ⟨rest, rfl, hrest⟩ := hchain'.exists_rest hsuper'
      obtain ⟨e', he', hee'⟩ := ih hrest hdd' e he
      exact ⟨e', List.mem_cons_of_mem c' he', hee'⟩

theorem offers {roots roots' : List ClassFile}
    (hroots : ∀ c ∈ roots, ∃ c' ∈ roots', c.Reorders c') {i : ClassFile} {m : Method}
    (hoffer : cp.Offers roots name descriptor i m) :
    ∃ i', cp'.Offers roots' name descriptor i' m := by
  obtain ⟨i', hi', hii'⟩ := h _ i hoffer.found
  obtain ⟨c, hc, d, hd, hpath⟩ := hoffer.above
  obtain ⟨c', hc', hcc'⟩ := hroots c hc
  have hname := hii'.name
  refine ⟨i', ?_, ⟨c', hc', d, (hcc'.interfaces d).mp hd, ?_⟩, ?_, hoffer.notPrivate,
    hoffer.notStatic⟩
  · rw [hname, hi']
  · rw [hname]
    exact hpath.lift id fun _ _ => h.extendsInterface
  · rw [hii'.method?, hoffer.declared]

theorem openInObject {m : Method} (hopen : cp.OpenInObject name descriptor m) :
    cp'.OpenInObject name descriptor m := by
  obtain ⟨c, hc, hm, hpublic, hstatic⟩ := hopen
  obtain ⟨c', hc', hcc'⟩ := h _ c hc
  exact ⟨c', hc', by rw [hcc'.method?, hm], hpublic, hstatic⟩

theorem isSome_classMethod? (hacyclic : cp'.Acyclic) {owner owner' : ClassFile}
    (hfound : cp.class? owner.name = some owner) (hfound' : cp'.class? owner'.name = some owner')
    (howner : owner.Reorders owner') (hname : name ≠ "<init>" ∧ name ≠ "<clinit>")
    (hsome : (cp.classMethod? owner name descriptor).isSome = true) :
    (cp'.classMethod? owner' name descriptor).isSome = true := by
  have hacyclic' := h.acyclic hacyclic
  have hall := h.chain (superclassChain_spec hacyclic' hfound)
    (superclassChain_spec hacyclic hfound') howner
  rw [(followsClass_classMethod? hacyclic hname).isSome_iff]
  rcases (followsClass_classMethod? hacyclic' hname).isSome_iff.mp hsome
    with ⟨c, hc, hm⟩ | ⟨i, m, hoffer⟩
  · obtain ⟨c', hc', hcc'⟩ := hall c hc
    exact Or.inl ⟨c', hc', by rwa [hcc'.method?]⟩
  · obtain ⟨i', hi'⟩ := h.offers hall hoffer
    exact Or.inr ⟨i', m, hi'⟩

theorem isSome_interfaceMethod? (hacyclic : cp'.Acyclic) {owner owner' : ClassFile}
    (howner : owner.Reorders owner')
    (hsome : (cp.interfaceMethod? owner name descriptor).isSome = true) :
    (cp'.interfaceMethod? owner' name descriptor).isSome = true := by
  have hroots : ∀ c ∈ [owner], ∃ c' ∈ [owner'], c.Reorders c' := by simpa using howner
  rw [(followsInterface_interfaceMethod? hacyclic owner' name descriptor).isSome_iff]
  rcases (followsInterface_interfaceMethod? (h.acyclic hacyclic) owner name
    descriptor).isSome_iff.mp hsome with hm | ⟨m, hopen⟩ | ⟨i, m, hoffer⟩
  · exact Or.inl (by rwa [howner.method?])
  · exact Or.inr (Or.inl ⟨m, h.openInObject hopen⟩)
  · obtain ⟨i', hi'⟩ := h.offers hroots hoffer
    exact Or.inr (Or.inr ⟨i', m, hi'⟩)

theorem looksInto {withInterfaces : Bool} {c c' d : ClassFile} (hc : c.Reorders c')
    (hd : cp.LooksInto withInterfaces c d) :
    ∃ d', cp'.LooksInto withInterfaces c' d' ∧ d.Reorders d' := by
  rcases hd with ⟨hwith, i, hi, hd⟩ | hd
  · obtain ⟨d', hd', hdd'⟩ := h i d hd
    exact ⟨d', Or.inl ⟨hwith, i, (hc.interfaces i).mp hi, hd'⟩, hdd'⟩
  · obtain ⟨s, hs, hd⟩ := Option.bind_eq_some_iff.mp hd
    obtain ⟨d', hd', hdd'⟩ := h s d hd
    refine ⟨d', Or.inr ?_, hdd'⟩
    rw [hc.superName, hs]
    exact hd'

theorem isSome_field? {withInterfaces : Bool} {owner owner' : ClassFile}
    (hfound : cp.class? owner.name = some owner) (hfound' : cp'.class? owner'.name = some owner')
    (howner : owner.Reorders owner')
    (hsome : (cp.field? owner name descriptor withInterfaces).isSome = true) :
    (cp'.field? owner' name descriptor withInterfaces).isSome = true := by
  obtain ⟨d, hpath, hd⟩ := (isSome_field?_iff hfound).mp hsome
  have hpath' : ∃ d', ReflTransGen (cp'.LooksInto withInterfaces) owner' d' ∧ d.Reorders d' := by
    clear hd
    induction hpath with
    | refl => exact ⟨owner', .refl, howner⟩
    | tail _ hstep ih =>
      obtain ⟨c', hpath', hcc'⟩ := ih
      obtain ⟨d', hstep', hdd'⟩ := h.looksInto hcc' hstep
      exact ⟨d', hpath'.tail hstep', hdd'⟩
  obtain ⟨d', hpath', hdd'⟩ := hpath'
  exact (isSome_field?_iff hfound').mpr ⟨d', hpath', by rwa [hdd'.field?]⟩

end Carries

end Classpath
end Linkage

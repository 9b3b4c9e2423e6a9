import Linkage.Proofs.Hierarchy.Acyclic
import Linkage.Proofs.Resolution.Supertypes

/-! Which method a reference means, whatever the hierarchy looks like. A class that declares a method
more than once declares it by the first of these declarations. -/
namespace Linkage

open Relation (ReflTransGen TransGen)

namespace Classpath

variable {cp : Classpath} {roots : List ClassFile} {name descriptor : String}

/-- An interface above some classes hands a method down to them: its first declaration of the method
is neither private nor static. What counts as an interface is what a class names as one. -/
structure Offers (cp : Classpath) (roots : List ClassFile) (name descriptor : String)
    (i : ClassFile) (m : Method) : Prop where
  found : cp.class? i.name = some i
  above : ∃ c ∈ roots, ∃ d ∈ c.interfaces, ReflTransGen cp.ExtendsInterface d i.name
  declared : i.method? name descriptor = some m
  notPrivate : m.access.isPrivate = false
  notStatic : m.access.isStatic = false

/-- No interface that hands the method down is strictly below this one. -/
structure MostSpecific (cp : Classpath) (roots : List ClassFile) (name descriptor : String)
    (i : ClassFile) (m : Method) : Prop where
  offered : cp.Offers roots name descriptor i m
  lowest : ∀ j m', cp.Offers roots name descriptor j m' → ¬ TransGen cp.Extends j.name i.name

/-- An answer is one of the most specific methods that are handed down to some classes, and the only
one of them with a body if there is such a one. -/
structure Chooses (cp : Classpath) (roots : List ClassFile) (name descriptor : String)
    (answer : Option (ClassFile × Method)) : Prop where
  isSome_iff : answer.isSome = true ↔ ∃ i m, cp.Offers roots name descriptor i m
  mostSpecific : ∀ i m, answer = some (i, m) → cp.MostSpecific roots name descriptor i m
  concrete : ∀ i m, cp.MostSpecific roots name descriptor i m → m.access.isAbstract = false →
    (∀ j m', cp.MostSpecific roots name descriptor j m' → m'.access.isAbstract = false → j = i) →
    answer = some (i, m)

theorem mem_inheritable {i : ClassFile} {m : Method} :
    (i, m) ∈ cp.inheritable roots name descriptor ↔ cp.Offers roots name descriptor i m := by
  unfold inheritable declaredMethod?
  rw [List.mem_filterMap]
  constructor
  · rintro ⟨j, hj, hanswer⟩
    obtain ⟨hfound, habove⟩ := mem_superinterfaces.mp hj
    cases hmethod : j.method? name descriptor with
    | none => simp [hmethod] at hanswer
    | some m' =>
      obtain ⟨⟨hprivate, hstatic⟩, rfl, rfl⟩ :
          (m'.access.isPrivate = false ∧ m'.access.isStatic = false) ∧ j = i ∧ m' = m := by
        simpa [hmethod] using hanswer
      exact ⟨hfound, habove, hmethod, hprivate, hstatic⟩
  · intro h
    refine ⟨i, mem_superinterfaces.mpr ⟨h.found, h.above⟩, ?_⟩
    simp [h.declared, h.notPrivate, h.notStatic]

theorem nodup_inheritable (cp : Classpath) (roots : List ClassFile) (name descriptor : String) :
    (cp.inheritable roots name descriptor).Nodup := by
  have hnodup : (cp.superinterfaces roots).Nodup := (nodup_superinterfaces roots).of_map
  refine hnodup.filterMap fun i j p hi hj => ?_
  have hfrom (k : ClassFile) (hk : (declaredMethod? k name descriptor).bind (fun q =>
      if q.2.access.isPrivate || q.2.access.isStatic then none else some (q.1, q.2)) = some p) :
      k = p.1 := by
    unfold declaredMethod? at hk
    cases hmethod : k.method? name descriptor with
    | none => simp [hmethod] at hk
    | some m =>
      obtain ⟨-, rfl⟩ := by simpa [hmethod] using hk
      rfl
  exact (hfrom i hi).trans (hfrom j hj).symm

/-- The methods that are chosen from are the most specific ones. -/
theorem mem_filter_isMostSpecific (hacyclic : cp.Acyclic) {i : ClassFile} {m : Method} :
    (i, m) ∈ (cp.inheritable roots name descriptor).filter
        (cp.isMostSpecific (cp.inheritable roots name descriptor))
      ↔ cp.MostSpecific roots name descriptor i m := by
  have hlowest : cp.isMostSpecific (cp.inheritable roots name descriptor) (i, m) = true
      ↔ ∀ j m', cp.Offers roots name descriptor j m' → ¬ TransGen cp.Extends j.name i.name := by
    unfold isMostSpecific
    rw [Bool.not_eq_true', List.any_eq_false, Prod.forall]
    refine forall_congr' fun j => forall_congr' fun m' => ?_
    rw [mem_inheritable, isSubtypeOf_iff_of_ne hacyclic]
  rw [List.mem_filter, mem_inheritable, hlowest]
  exact ⟨fun h => ⟨h.1, h.2⟩, fun h => ⟨h.offered, h.lowest⟩⟩

/-- Going down from an interface comes to an end, as nothing stands above itself. -/
theorem exists_mostSpecific (hacyclic : cp.Acyclic) {i : ClassFile} {m : Method}
    (h : cp.Offers roots name descriptor i m) :
    ∃ j m', cp.MostSpecific roots name descriptor j m' := by
  let candidates := (cp.inheritable roots name descriptor).toFinset
  let below (p q : ClassFile × Method) : Prop := TransGen cp.Extends p.1.name q.1.name
  have htrans : IsTrans candidates fun p q => below p q := ⟨fun _ _ _ => TransGen.trans⟩
  have hirrefl : Std.Irrefl fun p q : candidates => below p q := ⟨fun p => hacyclic p.1.1.name⟩
  have hwf : WellFounded fun p q : candidates => below p q :=
    Finite.wellFounded_of_trans_of_irrefl _
  have hmem {j : ClassFile} {m' : Method} :
      (j, m') ∈ candidates ↔ cp.Offers roots name descriptor j m' :=
    List.mem_toFinset.trans mem_inheritable
  obtain ⟨⟨⟨j, m'⟩, hj⟩, -, hlowest⟩ :=
    hwf.has_min Set.univ ⟨⟨(i, m), hmem.mpr h⟩, Set.mem_univ _⟩
  exact ⟨j, m', hmem.mp hj, fun k m'' hk => hlowest ⟨(k, m''), hmem.mpr hk⟩ (Set.mem_univ _)⟩

theorem chooses_mostSpecific? (hacyclic : cp.Acyclic) (roots : List ClassFile)
    (name descriptor : String) :
    cp.Chooses roots name descriptor (cp.mostSpecific? roots name descriptor) := by
  let best := (cp.inheritable roots name descriptor).filter
    (cp.isMostSpecific (cp.inheritable roots name descriptor))
  let withBody := best.filter (!·.2.access.isAbstract)
  have hbest {i : ClassFile} {m : Method} :
      (i, m) ∈ best ↔ cp.MostSpecific roots name descriptor i m :=
    mem_filter_isMostSpecific hacyclic
  have hwithBody {i : ClassFile} {m : Method} :
      (i, m) ∈ withBody
        ↔ cp.MostSpecific roots name descriptor i m ∧ m.access.isAbstract = false := by
    rw [List.mem_filter, hbest, Bool.not_eq_true']
  -- one method with a body is all there is to choose from
  have honly {i : ClassFile} {m : Method} (h : cp.MostSpecific roots name descriptor i m)
      (hbody : m.access.isAbstract = false)
      (hunique : ∀ j m', cp.MostSpecific roots name descriptor j m' →
        m'.access.isAbstract = false → j = i) : withBody = [(i, m)] := by
    have hnodup : withBody.Nodup := ((nodup_inheritable cp roots name descriptor).filter _).filter _
    refine List.perm_singleton.mp
      ((List.perm_ext_iff_of_nodup hnodup (List.nodup_singleton _)).mpr ?_)
    rintro ⟨j, m'⟩
    rw [hwithBody, List.mem_singleton]
    constructor
    · rintro ⟨hj, hbody'⟩
      obtain rfl := hunique j m' hj hbody'
      have heq := hj.offered.declared.symm.trans h.offered.declared
      rw [Option.some.inj heq]
    · intro heq
      cases heq
      exact ⟨h, hbody⟩
  have hanswer {p : ClassFile × Method}
      (h : cp.mostSpecific? roots name descriptor = some p) : p ∈ best := by
    unfold mostSpecific? at h
    dsimp only at h
    split at h
    · next heq =>
      cases h
      exact List.mem_of_mem_filter (heq ▸ List.mem_singleton_self _)
    · exact List.mem_of_mem_head? h
  refine ⟨⟨fun h => ?_, ?_⟩, fun i m h => hbest.mp (hanswer h), fun i m h hbody hunique => ?_⟩
  · obtain ⟨⟨i, m⟩, hp⟩ := Option.isSome_iff_exists.mp h
    exact ⟨i, m, (hbest.mp (hanswer hp)).offered⟩
  · rintro ⟨i, m, hoffer⟩
    obtain ⟨j, m', hmost⟩ := exists_mostSpecific hacyclic hoffer
    have hne : best ≠ [] := List.ne_nil_of_mem (hbest.mpr hmost)
    unfold mostSpecific?
    dsimp only
    split
    · rfl
    · exact List.isSome_head?.mpr hne
  · have hsingle := honly h hbody hunique
    unfold mostSpecific?
    dsimp only
    rw [show List.filter _ (List.filter _ _) = _ from hsingle]

/-- What a reference to a method of a class means: the first declaration in the first class of the
chain of superclasses that has one, and else what the interfaces above that chain hand down. -/
structure FollowsClass (cp : Classpath) (chain : List ClassFile) (name descriptor : String)
    (answer : Option (ClassFile × Method)) : Prop where
  declared : ∀ front c back m, chain = front ++ c :: back →
    (∀ d ∈ front, d.method? name descriptor = none) → c.method? name descriptor = some m →
    answer = some (c, m)
  inherited : (∀ c ∈ chain, c.method? name descriptor = none) →
    cp.Chooses chain name descriptor answer

/-- What a reference to a method of an interface means: its own first declaration, then that of the
root class if it is a public instance method, and else what the interfaces above it hand down. -/
structure FollowsInterface (cp : Classpath) (owner : ClassFile) (name descriptor : String)
    (answer : Option (ClassFile × Method)) : Prop where
  declared : ∀ m, owner.method? name descriptor = some m → answer = some (owner, m)
  ofObject : owner.method? name descriptor = none →
    ∀ c m, cp.class? ClassName.object = some c → c.method? name descriptor = some m →
      m.access.isPublic = true → m.access.isStatic = false → answer = some (c, m)
  inherited : owner.method? name descriptor = none →
    (∀ c m, cp.class? ClassName.object = some c → c.method? name descriptor = some m →
      m.access.isPublic = false ∨ m.access.isStatic = true) →
    cp.Chooses [owner] name descriptor answer

theorem followsClass_classMethod? (hacyclic : cp.Acyclic) {owner : ClassFile}
    (hname : name ≠ "<init>" ∧ name ≠ "<clinit>") :
    cp.FollowsClass (cp.superclassChain owner) name descriptor
      (cp.classMethod? owner name descriptor) := by
  have hanswer : cp.classMethod? owner name descriptor
      = (((cp.superclassChain owner).findSome? fun c => declaredMethod? c name descriptor)
        <|> cp.mostSpecific? (cp.superclassChain owner) name descriptor) := by
    unfold classMethod?
    simp [hname.1, hname.2]
  unfold declaredMethod? at hanswer
  constructor
  · intro front c back m hchain hfront hc
    have hnone : (front.findSome? fun d => (d.method? name descriptor).map (d, ·)) = none := by
      simpa using hfront
    rw [hanswer, hchain, List.findSome?_append, hnone]
    simp [hc]
  · intro hchain
    have hnone : ((cp.superclassChain owner).findSome?
        fun d => (d.method? name descriptor).map (d, ·)) = none := by
      simpa using hchain
    rw [hanswer, hnone]
    exact chooses_mostSpecific? hacyclic _ name descriptor

theorem followsInterface_interfaceMethod? (hacyclic : cp.Acyclic) (owner : ClassFile)
    (name descriptor : String) :
    cp.FollowsInterface owner name descriptor (cp.interfaceMethod? owner name descriptor) := by
  have hobject : cp.objectMethod? name descriptor
      = (cp.class? ClassName.object).bind fun c => (c.method? name descriptor).bind fun m =>
          if m.access.isPublic && !m.access.isStatic then some (c, m) else none := by
    unfold objectMethod? declaredMethod?
    cases cp.class? ClassName.object with
    | none => rfl
    | some c => cases h : c.method? name descriptor <;> simp [h]
  unfold interfaceMethod? declaredMethod?
  constructor
  · intro m hm
    simp [hm]
  · intro hnone c m hc hm hpublic hstatic
    simp [hnone, hobject, hc, hm, hpublic, hstatic]
  · intro hnone hbarred
    have hno : cp.objectMethod? name descriptor = none := by
      rw [hobject]
      cases hc : cp.class? ClassName.object with
      | none => rfl
      | some c =>
        cases hm : c.method? name descriptor with
        | none => simp [hm]
        | some m => rcases hbarred c m hc hm with h | h <;> simp [hm, h]
    rw [hnone, hno]
    exact chooses_mostSpecific? hacyclic [owner] name descriptor

end Classpath
end Linkage

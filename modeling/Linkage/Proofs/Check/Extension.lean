import Linkage.Proofs.Check.Agreement
import Linkage.Proofs.Check.Composition
import Linkage.Proofs.Resolution.Carrying

/-! Classes that are added at the end of a classpath break no reference. -/
namespace Linkage

variable {front back cp cp' : Classpath} {name descriptor : String}

/-- What the front of a union has stays what it is. -/
theorem Classpath.class?_union_of_front {c : ClassFile} (h : front.class? name = some c)
    (back : Classpath) : (Classpath.union [front, back]).class? name = some c :=
  (startsWith_union front [back]).class? h

theorem Classpath.carries_union (front back : Classpath) :
    front.Carries (.union [front, back]) :=
  fun _ c hc => ⟨c, class?_union_of_front hc back, .refl c⟩

namespace Check

theorem isSome_invoked? (h : cp.Carries cp') (hacyclic : cp'.Acyclic) {owner owner' : ClassFile}
    (hfound : cp.class? owner.name = some owner) (hfound' : cp'.class? owner'.name = some owner')
    (howner : owner.Reorders owner') {kind : InstructionKind} {interfaceOwner : Bool}
    (hsome : (invoked? cp owner kind interfaceOwner name descriptor).isSome = true) :
    (invoked? cp' owner' kind interfaceOwner name descriptor).isSome = true := by
  have hdeclared : (Classpath.declaredMethod? owner name descriptor).isSome = true →
      (Classpath.declaredMethod? owner' name descriptor).isSome = true := by
    simp [Classpath.declaredMethod?, howner.method?]
  have hclass : (cp.classMethod? owner name descriptor).isSome = true →
      (cp'.classMethod? owner' name descriptor).isSome = true := by
    by_cases hname : name ≠ "<init>" ∧ name ≠ "<clinit>"
    · exact h.isSome_classMethod? hacyclic hfound hfound' howner hname
    · have hinitializer : (name = "<init>" || name = "<clinit>") = true := by
        simpa [or_iff_not_imp_left] using hname
      simpa [Classpath.classMethod?, hinitializer] using hdeclared
  cases kind with
  | invokeInterface => exact h.isSome_interfaceMethod? hacyclic howner hsome
  | invokeSpecial =>
    cases interfaceOwner with
    | true => exact h.isSome_interfaceMethod? hacyclic howner hsome
    | false => exact hclass hsome
  | invokeStatic =>
    cases interfaceOwner with
    | true => exact hdeclared hsome
    | false => exact hclass hsome
  | _ => exact hclass hsome

/-- Afterwards nothing is missing that was not missing before, but members of classes that could not
be found then. -/
structure NothingLost (cp : Classpath) (before after : List Problem) : Prop where
  classes : ∀ p ∈ after, p.type = .classNotFound → p.identity ∈ identities before
  members : ∀ p ∈ after, p.type = .methodNotFound ∨ p.type = .fieldNotFound →
    p.identity ∈ identities before ∨ ∃ owner ∈ p.referredClass?, cp.class? owner = none

namespace NothingLost

theorem of_mem_identities {before after : List Problem}
    (h : ∀ p ∈ after, p.identity ∈ identities before) : NothingLost cp before after where
  classes p hp _ := h p hp
  members p hp _ := Or.inl (h p hp)

theorem refl (problems : List Problem) : NothingLost cp problems problems :=
  of_mem_identities fun _ hp => List.mem_map_of_mem hp

/-- Other problems do not matter. -/
theorem of_type {before after : List Problem} (h : ∀ p ∈ after,
      p.type ≠ .classNotFound ∧ p.type ≠ .methodNotFound ∧ p.type ≠ .fieldNotFound) :
    NothingLost cp before after where
  classes p hp htype := absurd htype (h p hp).1
  members p hp htype := by
    rcases htype with htype | htype
    · exact absurd htype (h p hp).2.1
    · exact absurd htype (h p hp).2.2

theorem of_nil (before : List Problem) : NothingLost cp before [] :=
  of_type (by simp)

theorem append {ps ps' qs qs' : List Problem} (h : NothingLost cp ps ps')
    (h' : NothingLost cp qs qs') : NothingLost cp (ps ++ qs) (ps' ++ qs') := by
  have hidentities : identities (ps ++ qs) = identities ps ++ identities qs := List.map_append
  constructor
  · intro p hp htype
    rw [hidentities, List.mem_append]
    rcases List.mem_append.mp hp with hp | hp
    · exact Or.inl (h.classes p hp htype)
    · exact Or.inr (h'.classes p hp htype)
  · intro p hp htype
    rw [hidentities, List.mem_append]
    rcases List.mem_append.mp hp with hp | hp
    · exact (h.members p hp htype).imp_left Or.inl
    · exact (h'.members p hp htype).imp_left Or.inr

theorem additive (cp : Classpath) : Additive (NothingLost cp) where
  nil := .refl []
  append := append

theorem firsts {before after : List Problem} (h : NothingLost cp before after) :
    NothingLost cp (firsts [] before) (firsts [] after) := by
  have hsame (i : ProblemIdentity) : i ∈ identities (Check.firsts [] before)
      ↔ i ∈ identities before := by
    simp [mem_identities_firsts]
  constructor
  · intro p hp
    rw [hsame]
    exact h.classes p (mem_of_mem_firsts hp)
  · intro p hp
    rw [hsame]
    exact h.members p (mem_of_mem_firsts hp)

end NothingLost

variable {id : String} {prefixes : List String} {location : Location} {accessor : ClassFile}

theorem class?_of_owner? {env : Surroundings} {owner : String} {c : ClassFile}
    (h : env.owner? owner = some c) : env.classpath.class? owner = some c := by
  unfold Surroundings.owner? at h
  split at h
  · cases h
  · exact h

theorem owner?_union {owner : String} {c : ClassFile}
    (h : (Surroundings.mk id (.union [front, back]) prefixes).owner? owner = some c) :
    (Surroundings.mk id front prefixes).owner? owner = some c
      ∨ front.class? owner = none := by
  unfold Surroundings.owner? Surroundings.isExternal at h ⊢
  split at h
  · cases h
  · next hlooked =>
    cases hfront : front.class? owner with
    | none => exact Or.inr rfl
    | some d =>
      dsimp only at h
      rw [Classpath.class?_union_of_front hfront] at h
      cases h
      rw [if_neg hlooked]
      exact Or.inl rfl

theorem nothingLost_ofClassRef (name : String) (instruction : Option InstructionKind) :
    NothingLost front (ofClassRef ⟨id, front, prefixes⟩ accessor location name instruction).1
      (ofClassRef ⟨id, .union [front, back], prefixes⟩ accessor location name instruction).1 := by
  unfold ofClassRef Surroundings.isExternal
  cases ClassName.element? name with
  | none => exact .refl []
  | some element =>
    dsimp only
    split
    · exact .refl []
    · cases hafter : (Classpath.union [front, back]).class? element with
      | none =>
        cases hbefore : front.class? element with
        | none => exact .refl _
        | some c =>
          rw [Classpath.class?_union_of_front hbefore] at hafter
          cases hafter
      | some c =>
        refine .of_type fun p hp => ?_
        obtain ⟨r, -, rfl⟩ : ∃ r, classRestriction? c accessor = some r
            ∧ Problem.mk (.illegalClassAccess element r instruction) location = p := by
          simpa using hp
        simp [Problem.type]

section members

variable {M : Type} {owner : String} {kind : InstructionKind} {find? find?' : ClassFile → Option M}
  {missing : Hierarchy → Finding} {restricted? restricted?' : M → Option Finding}

/-- The findings are of a member of `owner`, which is missing or out of reach. -/
structure OfMember (location : Location) (owner : String) (missing : Hierarchy → Finding)
    (restricted? : M → Option Finding) : Prop where
  identity : ∀ h h', (Problem.mk (missing h) location).identity
    = (Problem.mk (missing h') location).identity
  type : ∀ h, (Problem.mk (missing h) location).type ≠ .classNotFound
  referred : ∀ h, (Problem.mk (missing h) location).referredClass? = some owner
  restricted : ∀ m, ∀ r ∈ restricted? m, (Problem.mk r location).type ≠ .classNotFound
    ∧ (Problem.mk r location).type ≠ .methodNotFound ∧ (Problem.mk r location).type ≠ .fieldNotFound

/-- A member that was found in a class is not missing there afterwards. -/
theorem nothingLost_memberFindings
    (hfind : ∀ c, front.class? owner = some c → (find? c).isSome = true → (find?' c).isSome = true)
    (hmember : OfMember location owner missing restricted?') (h h' : Hierarchy) :
    NothingLost front
      ((memberFindings ⟨id, front, prefixes⟩ owner find? missing restricted? h).map (⟨·, location⟩))
      ((memberFindings ⟨id, .union [front, back], prefixes⟩ owner find?' missing restricted?' h').map
        (⟨·, location⟩)) := by
  unfold memberFindings
  cases howner' : (Surroundings.mk id (.union [front, back]) prefixes).owner? owner with
  | none => exact .of_nil _
  | some c =>
    dsimp only
    cases hfound' : find?' c with
    | some m =>
      refine .of_type fun p hp => ?_
      obtain ⟨r, hr, rfl⟩ := List.mem_map.mp hp
      exact hmember.restricted m r (Option.mem_toList.mp hr)
    | none =>
      constructor
      · intro p hp
        obtain rfl := List.mem_singleton.mp hp
        exact fun hclass => absurd hclass (hmember.type h')
      · intro p hp _
        obtain rfl := List.mem_singleton.mp hp
        rcases owner?_union howner' with howner | hnone
        · have hfront : front.class? owner = some c := class?_of_owner? howner
          have hnone : find? c = none := by
            cases hfound : find? c with
            | none => rfl
            | some m => simpa [hfound, hfound'] using hfind c hfront
          rw [howner]
          dsimp only
          rw [hnone]
          exact Or.inl (by simp [identities, hmember.identity h' h])
        · exact Or.inr ⟨owner, hmember.referred h', hnone⟩

theorem agree_ofMemberRef (hacyclic : (Classpath.union [front, back]).Acyclic)
    (hfind : ∀ c, front.class? owner = some c → (find? c).isSome = true → (find?' c).isSome = true)
    (hmember : OfMember location owner missing restricted?') :
    Agree front (.union [front, back]) (NothingLost front)
      (ofMemberRef ⟨id, front, prefixes⟩ accessor location owner kind find? missing restricted?)
      (ofMemberRef ⟨id, .union [front, back], prefixes⟩ accessor location owner kind find?' missing
        restricted?') := by
  have hfront : (Surroundings.mk id front prefixes).classpath.Acyclic :=
    (Classpath.carries_union front back).acyclic hacyclic
  have hunion : (Surroundings.mk id (.union [front, back]) prefixes).classpath.Acyclic := hacyclic
  refine Agree.of_settles (settles_ofMemberRef hfront) (settles_ofMemberRef hunion) ?_
  rintro _ _ ⟨h, rfl⟩ ⟨h', rfl⟩
  exact (nothingLost_ofClassRef owner (some kind)).append
    (nothingLost_memberFindings hfind hmember h h')

end members

theorem agree_ofInstruction (hacyclic : (Classpath.union [front, back]).Acyclic)
    (accessor : ClassFile) (location : Location) (i : Instruction) :
    Agree front (.union [front, back]) (NothingLost front)
      (ofInstruction ⟨id, front, prefixes⟩ accessor location i)
      (ofInstruction ⟨id, .union [front, back], prefixes⟩ accessor location i) := by
  have hcarries := Classpath.carries_union front back
  unfold ofInstruction
  cases i.reference with
  | type name => exact Agree.pure (nothingLost_ofClassRef name _)
  | method ref =>
    refine agree_ofMemberRef hacyclic (fun c hc hsome => ?_)
      ⟨fun _ _ => rfl, by simp [Problem.type], fun _ => rfl, ?_⟩
    · have hfound := Classpath.class?_name hc
      exact isSome_invoked? hcarries hacyclic hfound (Classpath.class?_union_of_front hfound back)
        (.refl c) hsome
    · intro found r hr
      obtain ⟨_, -, rfl⟩ := Option.map_eq_some_iff.mp hr
      simp [Problem.type]
  | field ref =>
    refine agree_ofMemberRef hacyclic (fun c hc hsome => ?_)
      ⟨fun _ _ => rfl, by simp [Problem.type], fun _ => rfl, ?_⟩
    · have hfound := Classpath.class?_name hc
      exact hcarries.isSome_field? hfound (Classpath.class?_union_of_front hfound back) (.refl c)
        hsome
    · intro found r hr
      obtain ⟨_, -, rfl⟩ := Option.map_eq_some_iff.mp hr
      simp [Problem.type]

/-- Problems that are not of a reference do not matter. -/
theorem NothingLost.of_allAbout_none {before after : List Problem}
    (h : AllAbout location none after) : NothingLost cp before after := by
  refine .of_type fun p hp => ?_
  have hnone := (h p hp).2
  refine ⟨?_, ?_, ?_⟩
  all_goals
    intro htype
    unfold Problem.referredClass? at hnone
    rw [htype] at hnone
    cases hreference : p.reference <;> simp [hreference] at hnone

theorem parallel_union (hacyclic : (Classpath.union [front, back]).Acyclic) (id : String)
    (prefixes : List String) :
    Parallel ⟨id, front, prefixes⟩ ⟨id, .union [front, back], prefixes⟩ (NothingLost front) where
  additive := NothingLost.additive front
  classRef _ _ name instruction := nothingLost_ofClassRef name instruction
  instruction accessor location i := agree_ofInstruction hacyclic accessor location i
  abstractMethods c := by
    have hfront : (Surroundings.mk id front prefixes).classpath.Acyclic :=
      (Classpath.carries_union front back).acyclic hacyclic
    have hunion : (Surroundings.mk id (.union [front, back]) prefixes).classpath.Acyclic := hacyclic
    exact Agree.of_settles (settles_ofAbstractMethods hfront c) (settles_ofAbstractMethods hunion c)
      fun _ _ _ hafter => .of_allAbout_none hafter
  overriding c m := .of_allAbout_none (allAbout_ofOverriding _ c m)

/-- Classes at the end of a classpath break no reference: where no class stands above itself, a check
finds no class missing that is not missing without them, and no member but in classes that are
missing without them. -/
theorem extended_classpath_loses_nothing (hacyclic : (Classpath.union [front, back]).Acyclic)
    (id : String) (prefixes : List String) (plugin : Classpath) : ∃ before after,
      Yields ⟨id, front, prefixes⟩ [] plugin before
        ∧ Yields ⟨id, .union [front, back], prefixes⟩ [] plugin after
        ∧ NothingLost front before.problems after.problems := by
  have hbefore := yields_outcomeOf ⟨id, front, prefixes⟩ [] plugin
  have hafter := yields_outcomeOf ⟨id, .union [front, back], prefixes⟩ [] plugin
  rw [outcomeOf_no_filters] at hbefore hafter
  exact ⟨_, _, hbefore, hafter, ((parallel_union hacyclic id prefixes).candidates plugin).firsts⟩

/-- A class that calls two methods: one of a class whose superclass comes late, one of a class that
comes late itself. -/
def early : Classpath :=
  let call (owner : String) : Instruction :=
    ⟨0, .invokeStatic, .method ⟨owner, "run", "()V"⟩, false⟩
  let callBoth : Method := ⟨"both", "()V", ⟨0x0009⟩, [call "h/Host", call "y/Late"]⟩
  .models "early" [{ name := "p/A", superName := none, methods := [callBoth] },
    { name := "h/Host", superName := some "x/Base", access := ⟨0x0001⟩ }]

def late : Classpath :=
  .models "late" [{ name := "y/Late", superName := none, access := ⟨0x0001⟩ },
    { name := "x/Base", superName := none, access := ⟨0x0001⟩,
      methods := [⟨"run", "()V", ⟨0x0009⟩, []⟩] }]

theorem extended_classpath_loses_nothing_late :
    (Classpath.union [early, late]).Acyclic
      ∧ reportedTypes ⟨"p", early, []⟩ (early.only "p/A") = some [.methodNotFound, .classNotFound]
      ∧ reportedTypes ⟨"p", .union [early, late], []⟩ (early.only "p/A") = some [.methodNotFound]
      ∧ ∃ before after, Yields ⟨"p", early, []⟩ [] (early.only "p/A") before
        ∧ Yields ⟨"p", .union [early, late], []⟩ [] (early.only "p/A") after
        ∧ NothingLost early before.problems after.problems :=
  have hacyclic : (Classpath.union [early, late]).Acyclic :=
    Classpath.acyclic_of_rank (fun name => if name = "h/Host" then 1 else 0) (by decide)
  ⟨hacyclic, by decide +kernel, by decide +kernel,
    extended_classpath_loses_nothing hacyclic "p" [] (early.only "p/A")⟩

end Check
end Linkage

import Linkage.Proofs.Check.Agreement
import Linkage.Proofs.Check.OpenMethods

/-! A check reports the abstract methods that concrete classes leave open, each once and no
other. -/
namespace Linkage.Check

open Relation (TransGen)

variable {env : Surroundings} {plugin : Classpath} {className name descriptor : String}

/-- None of the problems is about a method that is left open. -/
def NoneOpen (problems : List Problem) : Prop :=
  ∀ p ∈ problems, p.type ≠ .methodNotImplemented

theorem NoneOpen.filter {problems : List Problem} (h : NoneOpen problems) :
    problems.filter (·.isOpen className name descriptor) = [] := by
  refine List.filter_eq_nil_iff.mpr fun p hp hopen => ?_
  exact h p hp (Problem.isOpen_iff.mp hopen).1

theorem noneOpen_ofClassRef (env : Surroundings) (accessor : ClassFile) (location : Location)
    (name : String) (instruction : Option InstructionKind) :
    NoneOpen (ofClassRef env accessor location name instruction).1 := by
  intro p hp
  unfold ofClassRef at hp
  split at hp
  · cases hp
  split at hp
  · cases hp
  split at hp
  · rw [List.mem_singleton.mp hp]
    exact fun h => nomatch h
  · obtain ⟨r, -, rfl⟩ := Option.map_eq_some_iff.mp (Option.mem_toList.mp hp)
    exact fun h => nomatch h

theorem noneOpen_ofInstruction (hacyclic : env.classpath.Acyclic) (accessor : ClassFile)
    (location : Location) (i : Instruction) :
    Settles env.classpath NoneOpen (ofInstruction env accessor location i) := by
  unfold ofInstruction
  cases i.reference with
  | type name => exact Settles.pure (noneOpen_ofClassRef env accessor location name _)
  | method ref =>
    refine forall_ofMemberRef hacyclic (noneOpen_ofClassRef env accessor location ref.owner _)
      (fun _ _ h => nomatch h) fun _ _ r hr => ?_
    obtain ⟨_, -, rfl⟩ := Option.map_eq_some_iff.mp hr
    exact fun h => nomatch h
  | field ref =>
    refine forall_ofMemberRef hacyclic (noneOpen_ofClassRef env accessor location ref.owner _)
      (fun _ _ h => nomatch h) fun _ _ r hr => ?_
    obtain ⟨_, -, rfl⟩ := Option.map_eq_some_iff.mp hr
    exact fun h => nomatch h

theorem noneOpen_ofMethodBody (hacyclic : env.classpath.Acyclic) (c : ClassFile) (m : Method) :
    Settles env.classpath NoneOpen (ofMethodBody env c m) :=
  (Settles.mapM fun i => noneOpen_ofInstruction hacyclic c _ i).bind fun _ hproblems =>
    Settles.pure (List.forall_mem_flatten.mpr hproblems)

theorem noneOpen_ofOverriding (cp : Classpath) (c : ClassFile) (m : Method) :
    NoneOpen (ofOverriding cp c m) := by
  intro p hp
  unfold ofOverriding at hp
  split at hp
  · cases hp
  split at hp
  · cases hp
  split at hp
  · rw [List.mem_singleton.mp hp]
    exact fun h => nomatch h
  · cases hp

/-- The open methods among the problems of a class. -/
theorem settles_ofClass_filter (hacyclic : env.classpath.Acyclic) (c : ClassFile)
    (className name descriptor : String) :
    Settles env.classpath
      (fun problems => problems.filter (·.isOpen className name descriptor)
        = (openMethods env c).filter (·.isOpen className name descriptor))
      (ofClass env c) := by
  have hsupertypes : NoneOpen
      (c.supertypes.flatMap fun s => (ofClassRef env c (.type c.name) s none).1) :=
    List.forall_mem_flatMap.mpr fun s _ => noneOpen_ofClassRef env c (.type c.name) s none
  have hoverriding : NoneOpen (c.methods.flatMap (ofOverriding env.classpath c)) :=
    List.forall_mem_flatMap.mpr fun m _ => noneOpen_ofOverriding env.classpath c m
  refine (Settles.mapM (noneOpen_ofMethodBody hacyclic c)).bind fun bodies hbodies =>
    (settles_openMethods hacyclic c).bind fun found hfound => Settles.pure ?_
  have hbodies : NoneOpen bodies.flatten := List.forall_mem_flatten.mpr hbodies
  rw [List.filter_append, List.filter_append, List.filter_append, hsupertypes.filter,
    hbodies.filter, hoverriding.filter, hfound, List.nil_append, List.nil_append,
    List.append_nil]

/-- The open methods of a class of the plugin, if it is sound. -/
def openMethodsOf (env : Surroundings) (plugin : Classpath) (className : String) : List Problem :=
  (plugin.class? className).elim [] (openMethods env)

theorem length_filter_openMethodsOf_le (env : Surroundings) (plugin : Classpath)
    (className name descriptor : String) :
    ((openMethodsOf env plugin className).filter
      (·.isOpen className name descriptor)).length ≤ 1 := by
  unfold openMethodsOf
  cases plugin.class? className with
  | none => exact Nat.zero_le 1
  | some c => exact length_filter_isOpen_le env c className name descriptor

theorem allIn_openMethodsOf (hacyclic : env.classpath.Acyclic) (plugin : Classpath)
    (className : String) : AllIn className (openMethodsOf env plugin className) := by
  unfold openMethodsOf
  cases hclass : plugin.class? className with
  | none => simp [AllIn]
  | some c =>
    obtain ⟨found, hfound, hsettled⟩ := settles_ofAbstractMethods hacyclic c
    have heq : openMethods env c = found := (hsettled [] (Hierarchy.sound_nil _)).1
    rw [← Classpath.name_of_class? hclass, Option.elim_some, heq]
    exact hfound.allIn

theorem agree_ofNamed (hacyclic : env.classpath.Acyclic) (plugin : Classpath)
    (className name descriptor : String) (other : String) :
    Agree env.classpath env.classpath
      (fun ps qs => ps.filter (·.isOpen className name descriptor)
        = qs.filter (·.isOpen className name descriptor))
      (ofNamed env plugin other) (pure (openMethodsOf env plugin other)) := by
  unfold ofNamed openMethodsOf Classpath.class?
  cases plugin.lookup other with
  | notFound => exact Agree.pure rfl
  | invalid message => exact Agree.pure rfl
  | found c =>
    refine Agree.of_settles (settles_ofClass_filter hacyclic c className name descriptor)
      (Settles.pure (P := (· = openMethods env c)) rfl) ?_
    rintro found _ hfound rfl
    exact hfound

/-- The open methods among all candidates. -/
theorem filter_candidates (hacyclic : env.classpath.Acyclic) (plugin : Classpath)
    (className name descriptor : String) :
    (candidates env plugin).filter (·.isOpen className name descriptor)
      = (plugin.classNames.flatMap (openMethodsOf env plugin)).filter
        (·.isOpen className name descriptor) := by
  have hadditive : Additive fun ps qs : List Problem =>
      ps.filter (·.isOpen className name descriptor)
        = qs.filter (·.isOpen className name descriptor) := by
    refine ⟨rfl, fun hfront hback => ?_⟩
    rw [List.filter_append, List.filter_append, hfront, hback]
  have hagree := hadditive.agree_flatten
    (agree_ofNamed hacyclic plugin className name descriptor) plugin.classNames
  have hrun := hagree.run_nil
  rw [List.mapM_pure] at hrun
  exact hrun

/-- Of lists one for each name only the one for `className` counts. -/
theorem filter_flatMap_of_nodup {f : String → List Problem} {keep : Problem → Bool}
    (hf : ∀ other, other ≠ className → (f other).filter keep = []) {names : List String}
    (hnodup : names.Nodup) (hlisted : className ∉ names → f className = []) :
    (names.flatMap f).filter keep = (f className).filter keep := by
  induction names with
  | nil => rw [hlisted List.not_mem_nil, List.flatMap_nil]
  | cons other names ih =>
    obtain ⟨hother, hnodup⟩ := List.nodup_cons.mp hnodup
    rw [List.flatMap_cons, List.filter_append]
    by_cases heq : other = className
    · have hrest : (names.flatMap f).filter keep = [] := by
        refine List.filter_eq_nil_iff.mpr fun p hp hkeep => ?_
        obtain ⟨n, hn, hp⟩ := List.mem_flatMap.mp hp
        have hne : n ≠ className := fun h => hother (heq ▸ h ▸ hn)
        exact List.filter_eq_nil_iff.mp (hf n hne) p hp hkeep
      rw [heq, hrest, List.append_nil]
    · rw [hf other heq, List.nil_append]
      refine ih hnodup fun hnot => hlisted ?_
      rw [List.mem_cons, not_or]
      exact ⟨Ne.symm heq, hnot⟩

theorem firsts_of_length_le_one {problems : List Problem} (h : problems.length ≤ 1) :
    firsts [] problems = problems := by
  cases problems with
  | nil => rfl
  | cons p rest =>
    obtain rfl : rest = [] := List.length_eq_zero_iff.mp (Nat.le_zero.mp (Nat.le_of_succ_le_succ h))
    rfl

/-- What a check without filters reports of open methods. -/
theorem filter_reported (hacyclic : env.classpath.Acyclic) (plugin : Classpath)
    (className name descriptor : String) :
    (outcomeOf env [] plugin (candidates env plugin)).problems.filter
        (·.isOpen className name descriptor)
      = (openMethodsOf env plugin className).filter (·.isOpen className name descriptor) := by
  have hfirsts : (outcomeOf env [] plugin (candidates env plugin)).problems
      = firsts [] (candidates env plugin) := by
    rw [outcomeOf_no_filters]
    rfl
  have hother (other : String) (hne : other ≠ className) :
      (openMethodsOf env plugin other).filter (·.isOpen className name descriptor) = [] := by
    refine List.filter_eq_nil_iff.mpr fun p hp hopen => hne ?_
    rw [← allIn_openMethodsOf hacyclic plugin other p hp]
    exact (Problem.isOpen_iff.mp hopen).2.1
  have hnodup : plugin.classNames.Nodup := nodup_sortDistinct _
  have hlisted (hnot : className ∉ plugin.classNames) :
      openMethodsOf env plugin className = [] := by
    unfold Classpath.classNames at hnot
    rw [mem_sortDistinct] at hnot
    rw [openMethodsOf, Classpath.class?_of_not_listed hnot, Option.elim_none]
  rw [hfirsts, ← firsts_filter (fun _ _ => Problem.isOpen_congr) _ fun _ _ => Iff.rfl,
    filter_candidates hacyclic, filter_flatMap_of_nodup hother hnodup hlisted,
    firsts_of_length_le_one (length_filter_openMethodsOf_le _ _ _ _ _)]

/-- What is reported of methods that are left open. -/
structure ReportsOpen (env : Surroundings) (plugin : Classpath) (outcome : Outcome) : Prop where
  /-- There are no two problems of one class with one name and descriptor. -/
  once : ∀ className name descriptor,
    (outcome.problems.filter (·.isOpen className name descriptor)).length ≤ 1
  /-- Below something that is missing there are none. -/
  unsure : ∀ c, plugin.class? c.name = some c → HasMissing env.classpath c →
    ∀ name descriptor, ∀ p ∈ outcome.problems, ¬p.isOpen c.name name descriptor
  /-- In a concrete class above which everything is found the problems are the methods left open. -/
  exact : ∀ c, plugin.class? c.name = some c → c.isAbstract = false → c.isInterface = false →
    ¬HasMissing env.classpath c → ∃ chain, env.classpath.SuperclassChain c chain
      ∧ ∀ name descriptor, name ≠ "<init>" → name ≠ "<clinit>" →
        ((∃ p ∈ outcome.problems, p.isOpen c.name name descriptor)
          ↔ LeavesOpen env.classpath chain c name descriptor)

/-- A check without filters of a plugin in front of a classpath misses no method that is left open,
and reports no other. -/
theorem open_methods_reported (hacyclic : env.classpath.Acyclic)
    (hstarts : env.classpath.StartsWith plugin) :
    ∃ outcome, Yields env [] plugin outcome ∧ ReportsOpen env plugin outcome := by
  have hreported := filter_reported hacyclic plugin
  have hopen {c : ClassFile} (hc : plugin.class? c.name = some c) (name descriptor : String)
      (p : Problem) : (p ∈ (outcomeOf env [] plugin (candidates env plugin)).problems
          ∧ p.isOpen c.name name descriptor)
        ↔ p ∈ openMethods env c ∧ p.isOpen c.name name descriptor := by
    rw [← List.mem_filter, hreported, List.mem_filter, openMethodsOf, hc, Option.elim_some]
  refine ⟨_, yields_outcomeOf env [] plugin, ?_, ?_, ?_⟩
  · intro className name descriptor
    rw [hreported]
    exact length_filter_openMethodsOf_le env plugin className name descriptor
  · intro c hc hmissing name descriptor p hp hisOpen
    obtain ⟨hmem, -⟩ := (hopen hc name descriptor p).mp ⟨hp, hisOpen⟩
    rw [openMethods_of_missing hmissing] at hmem
    exact absurd hmem List.not_mem_nil
  · intro c hc habstract hinterface hcomplete
    have hchain := Classpath.superclassChain_spec hacyclic (hstarts.class? hc)
    refine ⟨_, hchain, fun name descriptor hinit hclinit => ?_⟩
    rw [← exists_isOpen_iff hacyclic ⟨habstract, hinterface⟩ hcomplete ⟨hinit, hclinit⟩]
    exact exists_congr (hopen hc name descriptor)

/-- A concrete class below a superclass that takes a body back, and one whose superclass is
missing. -/
def tasks : Classpath := .models "tasks" [
  { name := "p/Task", superName := some "h/Base" },
  { name := "p/Orphan", superName := some "x/Gone", interfaces := ["h/Job"] }]

def besideJobs : Surroundings where
  plugin := "p"
  classpath := .union [tasks, .models "jobs" [
    { name := "h/Base", superName := none, interfaces := ["h/Job"], access := ⟨0x0421⟩,
      methods := [⟨"stop", "()V", ⟨0x0401⟩, []⟩] },
    { name := "h/Job", superName := none, access := ⟨0x0601⟩,
      methods := [⟨"run", "()V", ⟨0x0401⟩, []⟩, ⟨"stop", "()V", ⟨0x0001⟩, []⟩] }]]

theorem acyclic_besideJobs : besideJobs.classpath.Acyclic :=
  Classpath.acyclic_of_rank
    (fun name => if name = "p/Task" then 3 else if name = "h/Base" ∨ name = "p/Orphan" then 2
      else if name = "h/Job" then 1 else 0)
    (by decide)

theorem open_methods_reported_tasks :
    (outcomeOf besideJobs [] tasks (candidates besideJobs tasks)).problems.map
        (fun p => (p.location, p.reference))
      = [(.type "p/Orphan", .type "x/Gone"), (.type "p/Task", .method ⟨"h/Base", "stop", "()V"⟩),
        (.type "p/Task", .method ⟨"h/Job", "run", "()V"⟩)]
    ∧ ∃ outcome, Yields besideJobs [] tasks outcome ∧ ReportsOpen besideJobs tasks outcome :=
  ⟨by decide, open_methods_reported acyclic_besideJobs (Classpath.startsWith_union _ _)⟩

/-- An interface that declares a method twice, the first time for itself alone. -/
def twice : Classpath := .models "twice" [
  { name := "p/Impl", superName := none, interfaces := ["p/Job"] },
  { name := "p/Job", superName := none, access := ⟨0x0601⟩,
    methods := [⟨"run", "()V", ⟨0x0002⟩, []⟩, ⟨"run", "()V", ⟨0x0401⟩, []⟩] }]

def twiceImpl : ClassFile := { name := "p/Impl", superName := none, interfaces := ["p/Job"] }

def onlyTwice : Surroundings where
  plugin := "p"
  classpath := .union [twice]

/-- A method may be reported as left open although no declaration of an interface is selected, not
even an abstract one: then a call finds nothing at all. -/
theorem open_method_not_selected :
    ¬ ∀ (env : Surroundings) (plugin : Classpath) (outcome : Outcome) (c : ClassFile)
      (chain : List ClassFile) (name descriptor : String),
      env.classpath.Acyclic → env.classpath.StartsWith plugin → Yields env [] plugin outcome →
      plugin.class? c.name = some c → c.isAbstract = false → c.isInterface = false →
      ¬HasMissing env.classpath c → env.classpath.SuperclassChain c chain →
      name ≠ "<init>" → name ≠ "<clinit>" →
      ((∃ p ∈ outcome.problems, p.isOpen c.name name descriptor)
        ↔ InheritsAbstract env.classpath chain name descriptor
          ∧ ((∃ x m, firstDeclaration? chain name descriptor = some (x, m)
              ∧ m.access.isAbstract = true)
            ∨ firstDeclaration? chain name descriptor = none
              ∧ ∃ i m, env.classpath.classMethod? c name descriptor = some (i, m)
                ∧ m.access.isAbstract = true)) := by
  intro hclaim
  have hacyclic : onlyTwice.classpath.Acyclic :=
    Classpath.acyclic_of_rank (fun name => if name = "p/Impl" then 1 else 0) (by decide)
  have hcomplete : ¬HasMissing onlyTwice.classpath twiceImpl :=
    (isEmpty_unresolvedSupertypes _ _).mp (by decide)
  have hfound : onlyTwice.classpath.class? twiceImpl.name = some twiceImpl := by decide
  have hreported : ∃ p ∈ (outcomeOf onlyTwice [] twice (candidates onlyTwice twice)).problems,
      p.isOpen "p/Impl" "run" "()V" := by decide
  have hiff := hclaim onlyTwice twice _ twiceImpl _ "run" "()V" hacyclic
    (Classpath.startsWith_union _ _) (yields_outcomeOf onlyTwice [] twice) (by decide) (by decide)
    (by decide) hcomplete (Classpath.superclassChain_spec hacyclic hfound) (by decide) (by decide)
  have hnone : onlyTwice.classpath.classMethod? twiceImpl "run" "()V" = none := by decide
  have hfirst : firstDeclaration? (onlyTwice.classpath.superclassChain twiceImpl) "run" "()V"
      = none := by decide
  obtain ⟨-, ⟨x, m, hdeclared, -⟩ | ⟨-, i, m, hselected, -⟩⟩ := hiff.mp hreported
  · rw [hfirst] at hdeclared
    cases hdeclared
  · rw [hnone] at hselected
    cases hselected

end Linkage.Check

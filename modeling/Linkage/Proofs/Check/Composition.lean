import Linkage.Check.Run
import Linkage.Proofs.Check.Candidates
import Linkage.Proofs.Classpath.Only

/-! A check of many classes finds what checks of the single classes find. -/
namespace Linkage.Check

open Hierarchy (Sound)

namespace Outcome

def append (front back : Outcome) : Outcome where
  problems := front.problems ++ back.problems
  ignored := front.ignored ++ back.ignored
  checked := front.checked + back.checked
  invalid := front.invalid ++ back.invalid

/-- What several checks found, in their order. -/
def concat : List Outcome → Outcome
  | [] => {}
  | o :: os => o.append (concat os)

theorem append_assoc (a b c : Outcome) : (a.append b).append c = a.append (b.append c) := by
  simp [append, List.append_assoc, Nat.add_assoc]

theorem append_empty (o : Outcome) : o.append {} = o := by
  simp [append]

theorem empty_append (o : Outcome) : ({} : Outcome).append o = o := by
  simp [append]

end Outcome

variable (env : Surroundings) (filters : List Filter)

/-- As far as problems in one class go, `run` is where `alone` is, and has found what `alone` has on
top of what there was `before`. -/
structure Follows (name : String) (before : Outcome) (alone run : Run) : Prop where
  outcome : run.outcome = before.append alone.outcome
  met : ∀ i : ProblemIdentity, i.location.className = name → (i ∈ run.met ↔ i ∈ alone.met)

theorem Follows.report {name : String} {before : Outcome} {alone run : Run}
    (h : Follows name before alone run) {p : Problem} (hp : p.location.className = name) :
    Follows name before (alone.report env filters p) (run.report env filters p) := by
  have hmet := h.met p.identity hp
  unfold Run.report
  by_cases hmem : p.identity ∈ alone.met
  · rw [if_pos hmem, if_pos (hmet.mpr hmem)]
    exact h
  · rw [if_neg hmem, if_neg (mt hmet.mp hmem)]
    constructor
    · rw [h.outcome]
      cases verdict? env filters p <;> simp [Outcome.append]
    · intro i hi
      rw [List.mem_cons, List.mem_cons, h.met i hi]

theorem Follows.foldl {name : String} {before : Outcome} {alone run : Run}
    (h : Follows name before alone run) {found : List Problem} (hfound : AllIn name found) :
    Follows name before (found.foldl (·.report env filters) alone)
      (found.foldl (·.report env filters) run) := by
  induction found generalizing alone run with
  | nil => exact h
  | cons p found ih =>
    obtain ⟨hp, hfound⟩ := List.forall_mem_cons.mp hfound
    exact ih (h.report env filters hp) hfound

theorem mem_met_report {run : Run} {p : Problem} {i : ProblemIdentity}
    (hi : i ∈ (run.report env filters p).met) : i ∈ run.met ∨ i = p.identity := by
  unfold Run.report at hi
  split at hi
  · exact Or.inl hi
  · exact (List.mem_cons.mp hi).symm

theorem memo_report (run : Run) (p : Problem) : (run.report env filters p).memo = run.memo := by
  unfold Run.report
  split <;> rfl

/-- Only problems that are reported are met. -/
theorem mem_met_foldl {found : List Problem} {name : String} (hfound : AllIn name found) {run : Run}
    {i : ProblemIdentity} (hi : i ∈ (found.foldl (·.report env filters) run).met) :
    i ∈ run.met ∨ i.location.className = name := by
  induction found generalizing run with
  | nil => exact Or.inl hi
  | cons p found ih =>
    obtain ⟨hp, hfound⟩ := List.forall_mem_cons.mp hfound
    rcases ih hfound hi with hi | hi
    · refine (mem_met_report env filters hi).imp_right fun heq => ?_
      rw [heq]
      exact hp
    · exact Or.inr hi

theorem memo_foldl (found : List Problem) (run : Run) :
    (found.foldl (·.report env filters) run).memo = run.memo := by
  induction found generalizing run with
  | nil => rfl
  | cons p found ih =>
    rw [List.foldl_cons, ih, memo_report]

theorem checkClass_eq (run : Run) {c : ClassFile} {found : List Problem}
    (h : ((ofClass env c).run run.memo).1 = found) :
    run.checkClass env filters c =
      let after := found.foldl (·.report env filters)
        { run with memo := ((ofClass env c).run run.memo).2 }
      { after with outcome := { after.outcome with checked := after.outcome.checked + 1 } } := by
  subst h
  rfl

/-- A class that is checked after others is found to have the same problems as on its own. -/
theorem checkClass_spec (hacyclic : env.classpath.Acyclic) {c : ClassFile} {run : Run}
    (hmemo : Sound env.classpath run.memo)
    (hmet : ∀ i ∈ run.met, i.location.className ≠ c.name) :
    (run.checkClass env filters c).outcome
        = run.outcome.append (({} : Run).checkClass env filters c).outcome
      ∧ Sound env.classpath (run.checkClass env filters c).memo
      ∧ ∀ i ∈ (run.checkClass env filters c).met, i ∈ run.met ∨ i.location.className = c.name := by
  obtain ⟨found, hfound, hsettled⟩ := settles_ofClass hacyclic c
  obtain ⟨hanswer, hsound⟩ := hsettled run.memo hmemo
  obtain ⟨hanswer', -⟩ := hsettled [] (Hierarchy.sound_nil _)
  let alone : Run := { memo := ((ofClass env c).run []).2 }
  let next : Run := { run with memo := ((ofClass env c).run run.memo).2 }
  have hstart : Follows c.name run.outcome alone next :=
    ⟨(Outcome.append_empty _).symm,
      fun i hi => ⟨fun hmem => absurd hi (hmet i hmem), fun hmem => absurd hmem (by simp [alone])⟩⟩
  have hafter := (hstart.foldl env filters hfound).outcome
  rw [checkClass_eq env filters run hanswer, checkClass_eq env filters {} hanswer']
  refine ⟨?_, ?_, fun i hi => ?_⟩
  · dsimp only
    rw [hafter]
    rfl
  · dsimp only
    rw [memo_foldl]
    exact hsound
  · have hmem : i ∈ next.met ∨ i.location.className = c.name :=
      mem_met_foldl env filters hfound hi
    exact hmem

/-- What a check of one class of the plugin finds when it is the first one. -/
def alone (env : Surroundings) (filters : List Filter) (plugin : Classpath) (name : String) :
    Outcome :=
  (({} : Run).visit env filters plugin name).outcome

theorem visit_spec (hacyclic : env.classpath.Acyclic) (plugin : Classpath) {name : String}
    {run : Run} (hmemo : Sound env.classpath run.memo)
    (hmet : ∀ i ∈ run.met, i.location.className ≠ name) :
    (run.visit env filters plugin name).outcome
        = run.outcome.append (alone env filters plugin name)
      ∧ Sound env.classpath (run.visit env filters plugin name).memo
      ∧ ∀ i ∈ (run.visit env filters plugin name).met,
          i ∈ run.met ∨ i.location.className = name := by
  unfold alone Run.visit
  cases hlookup : plugin.lookup name with
  | notFound => exact ⟨(Outcome.append_empty _).symm, hmemo, fun i hi => Or.inl hi⟩
  | invalid message =>
    refine ⟨?_, hmemo, fun i hi => Or.inl hi⟩
    simp [Outcome.append]
  | found c =>
    obtain rfl := Classpath.name_of_lookup hlookup
    exact checkClass_spec env filters hacyclic hmemo hmet

variable {σ : Type} {watch : Watch σ}

/-- Checking further classes adds what each of them has on its own. -/
theorem checkFrom_eq (hacyclic : env.classpath.Acyclic)
    (hwatch : ∀ s, (watch.isCancelled.run s).1 = false) (plugin : Classpath) {names : List String}
    (hnodup : names.Nodup) {run : Run} (hmemo : Sound env.classpath run.memo)
    (hmet : ∀ i ∈ run.met, i.location.className ∉ names) (total done : Nat) (s : σ) :
    ((checkFrom env filters plugin watch total done names run).run s).1
      = .ok (run.outcome.append (.concat (names.map (alone env filters plugin)))) := by
  induction names generalizing run done s with
  | nil => exact congrArg Except.ok (Outcome.append_empty _).symm
  | cons name names ih =>
    obtain ⟨hname, hnodup⟩ := List.nodup_cons.mp hnodup
    obtain ⟨houtcome, hsound, hmet'⟩ := visit_spec env filters hacyclic plugin hmemo
      fun i hi heq => hmet i hi (heq ▸ List.mem_cons_self)
    have hrest : ∀ i ∈ (run.visit env filters plugin name).met, i.location.className ∉ names := by
      intro i hi hmem
      rcases hmet' i hi with hi | heq
      · exact hmet i hi (List.mem_cons_of_mem name hmem)
      · exact hname (heq ▸ hmem)
    have hgoOn := ih hnodup hsound hrest (done + 1)
    obtain ⟨next, hnext⟩ : ∃ next, watch.isCancelled.run s = (false, next) :=
      ⟨_, Prod.ext (hwatch s) rfl⟩
    rw [List.map_cons, Outcome.concat, ← Outcome.append_assoc, ← houtcome]
    unfold checkFrom
    rw [StateT.run_bind, hnext]
    exact hgoOn _

theorem check_eq (hacyclic : env.classpath.Acyclic)
    (hwatch : ∀ s, (watch.isCancelled.run s).1 = false) (plugin : Classpath) (s : σ) :
    ((check env filters plugin watch).run s).1
      = .ok (.concat (plugin.classNames.map (alone env filters plugin))) := by
  rw [← Outcome.empty_append (.concat _)]
  exact checkFrom_eq env filters hacyclic hwatch plugin (nodup_sortDistinct _)
    (Hierarchy.sound_nil _) (by simp) _ 0 s

/-- Checks are compositional: where no class of the classpath stands above itself, and nobody asks
for the end, a check of a plugin finds what checks of each of its classes find, one after the
other. -/
theorem check_eq_concat (hacyclic : env.classpath.Acyclic)
    (hwatch : ∀ s, (watch.isCancelled.run s).1 = false) (plugin : Classpath) :
    ∃ single : String → Outcome,
      (∀ name ∈ plugin.classNames, ∀ s,
        ((check env filters (plugin.only name) watch).run s).1 = .ok (single name))
      ∧ ∀ s, ((check env filters plugin watch).run s).1
        = .ok (.concat (plugin.classNames.map single)) := by
  refine ⟨alone env filters plugin, fun name hname s => ?_,
    check_eq env filters hacyclic hwatch plugin⟩
  have hvisit : alone env filters (plugin.only name) name = alone env filters plugin name := by
    unfold alone Run.visit
    rw [Classpath.lookup_only]
  rw [check_eq env filters hacyclic hwatch, Classpath.classNames_only hname, List.map_singleton,
    hvisit]
  exact congrArg Except.ok (Outcome.append_empty _)

/-- Two classes that call the same missing method of a host class whose superclass is missing. -/
def callers : Classpath :=
  let call : Instruction := ⟨0, .invokeStatic, .method ⟨"h/Host", "gone", "()V"⟩, false⟩
  let run : Method := ⟨"run", "()V", ⟨0x0009⟩, [call, call]⟩
  .models "plugin" [{ name := "p/B", superName := some "h/Host", methods := [run] },
    { name := "p/A", superName := some "p/B", methods := [run] }]

def besideHost : Surroundings where
  plugin := "p"
  classpath := .union [callers, .models "host" [{ name := "h/Host", superName := some "x/Gone" }]]

def unwatched : Watch Unit := ⟨pure false, fun _ _ _ => pure ()⟩

/-- The types of the problems that a check without filters reports when nobody watches. -/
def reportedTypes (env : Surroundings) (plugin : Classpath) : Option (List ProblemType) :=
  ((check env [] plugin unwatched).run ()).1.toOption.map (·.problems.map (·.type))

theorem acyclic_besideHost : besideHost.classpath.Acyclic :=
  Classpath.acyclic_of_rank
    (fun name => if name = "p/A" then 3 else if name = "p/B" then 2 else if name = "h/Host" then 1
      else 0)
    (by decide)

theorem check_eq_concat_callers :
    callers.classNames = ["p/A", "p/B"]
      ∧ (((check besideHost [] callers unwatched).run ()).1.toOption.map (·.problems.length)) = some 2
      ∧ ∃ single : String → Outcome,
        (∀ name ∈ callers.classNames, ∀ s,
          ((check besideHost [] (callers.only name) unwatched).run s).1 = .ok (single name))
        ∧ ∀ s, ((check besideHost [] callers unwatched).run s).1
          = .ok (.concat (callers.classNames.map single)) :=
  ⟨by decide, by decide,
    check_eq_concat besideHost [] acyclic_besideHost (fun _ => rfl) callers⟩

end Linkage.Check

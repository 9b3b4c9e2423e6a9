import Linkage.Check.Run
import Mathlib.Tactic

/-! What a check comes to: the problems of all classes in their order, each identity once, sorted by
the filters. -/
namespace Linkage.Check

variable {σ : Type}

/-- Whether the one who watches lets a check of these classes go on to its end. -/
def Watch.follow (watch : Watch σ) (total : Nat) : (done : Nat) → List String → StateM σ Bool
  | _, [] => do
    watch.progress total total ""
    return true
  | done, name :: names => do
    if ← watch.isCancelled then return false
    watch.progress done total name
    watch.follow total (done + 1) names

/-- How a check ends: with its outcome, or early. -/
def ending (o : Outcome) (goesOn : Bool) : Except Stop Outcome :=
  if goesOn then .ok o else .error .cancelled

/-- A check of a plugin comes to this outcome, unless the one who watches asks for the end. -/
def Yields (env : Surroundings) (filters : List Filter) (plugin : Classpath) (o : Outcome) : Prop :=
  ∀ (σ : Type) (watch : Watch σ),
    check env filters plugin watch
      = ending o <$> watch.follow plugin.classNames.length 0 plugin.classNames

variable (env : Surroundings) (filters : List Filter) (plugin : Classpath)

/-- The problems of a class of the plugin, if it is sound. -/
def ofNamed (name : String) : Finder (List Problem) :=
  match plugin.lookup name with
  | .found c => ofClass env c
  | .notFound | .invalid _ => return []

def ofNames (names : List String) : Finder (List Problem) :=
  return (← names.mapM (ofNamed env plugin)).flatten

/-- The problems of all classes of the plugin as they are come across. -/
def candidates : List Problem := ((ofNames env plugin plugin.classNames).run []).1

/-- The first problem of each identity that was not met before. -/
def firsts (met : List ProblemIdentity) : List Problem → List Problem
  | [] => []
  | p :: ps => if p.identity ∈ met then firsts met ps else p :: firsts (p.identity :: met) ps

def identities (problems : List Problem) : List ProblemIdentity := problems.map (·.identity)

namespace Outcome

/-- Adds problems, sorted by the filters. -/
def sort (o : Outcome) (problems : List Problem) : Outcome :=
  { o with
    problems := o.problems ++ problems.filter fun p => (verdict? env filters p).isNone
    ignored := o.ignored ++ problems.filterMap (verdict? env filters) }

/-- Counts the sound ones of some classes and adds those that are not. -/
def look (o : Outcome) (names : List String) : Outcome :=
  { o with
    checked := o.checked + (names.filter fun name => (plugin.class? name).isSome).length
    invalid := o.invalid ++ names.filterMap fun name =>
      match plugin.lookup name with
      | .invalid message => some (name, message)
      | .found _ | .notFound => none }

theorem sort_append (o : Outcome) (ps qs : List Problem) :
    o.sort env filters (ps ++ qs) = (o.sort env filters ps).sort env filters qs := by
  simp [sort]

theorem look_append (o : Outcome) (names names' : List String) :
    o.look plugin (names ++ names') = (o.look plugin names).look plugin names' := by
  simp [look, Nat.add_assoc]

end Outcome

@[simp] theorem firsts_nil (met : List ProblemIdentity) : firsts met [] = [] := rfl

theorem firsts_of_mem {met : List ProblemIdentity} {p : Problem} (h : p.identity ∈ met)
    (ps : List Problem) : firsts met (p :: ps) = firsts met ps :=
  if_pos h

theorem firsts_of_not_mem {met : List ProblemIdentity} {p : Problem} (h : p.identity ∉ met)
    (ps : List Problem) : firsts met (p :: ps) = p :: firsts (p.identity :: met) ps :=
  if_neg h

theorem firsts_append (met : List ProblemIdentity) (ps qs : List Problem) :
    firsts met (ps ++ qs)
      = firsts met ps ++ firsts ((identities (firsts met ps)).reverse ++ met) qs := by
  induction ps generalizing met with
  | nil => rfl
  | cons p ps ih =>
    by_cases hmet : p.identity ∈ met
    · rw [List.cons_append, firsts_of_mem hmet, firsts_of_mem hmet, ih]
    · rw [List.cons_append, firsts_of_not_mem hmet, firsts_of_not_mem hmet, ih]
      simp [identities]

theorem mem_of_mem_firsts {met : List ProblemIdentity} {ps : List Problem} {p : Problem}
    (h : p ∈ firsts met ps) : p ∈ ps := by
  induction ps generalizing met with
  | nil => exact h
  | cons q ps ih =>
    by_cases hmet : q.identity ∈ met
    · rw [firsts_of_mem hmet] at h
      exact List.mem_cons_of_mem q (ih h)
    · rw [firsts_of_not_mem hmet] at h
      rcases List.mem_cons.mp h with rfl | h
      · exact List.mem_cons_self
      · exact List.mem_cons_of_mem q (ih h)

/-- Of each identity a problem is kept, and none that was met before. -/
theorem mem_identities_firsts {met : List ProblemIdentity} {ps : List Problem}
    {i : ProblemIdentity} : i ∈ identities (firsts met ps) ↔ i ∈ identities ps ∧ i ∉ met := by
  induction ps generalizing met with
  | nil => simp [identities]
  | cons p ps ih =>
    have hcons : i ∈ identities (p :: ps) ↔ i = p.identity ∨ i ∈ identities ps := by
      simp [identities]
    by_cases hmet : p.identity ∈ met
    · rw [firsts_of_mem hmet, ih, hcons]
      refine and_congr_left fun hi => (or_iff_right ?_).symm
      rintro rfl
      exact hi hmet
    · have hfirst : i ∈ identities (firsts met (p :: ps))
          ↔ i = p.identity ∨ i ∈ identities (firsts (p.identity :: met) ps) := by
        rw [firsts_of_not_mem hmet]
        simp [identities]
      rw [hfirst, ih, hcons, List.mem_cons]
      by_cases heq : i = p.identity
      · simp [heq, hmet]
      · simp [heq]

theorem nodup_identities_firsts (met : List ProblemIdentity) (ps : List Problem) :
    (identities (firsts met ps)).Nodup := by
  induction ps generalizing met with
  | nil => exact List.nodup_nil
  | cons p ps ih =>
    by_cases hmet : p.identity ∈ met
    · rw [firsts_of_mem hmet]
      exact ih met
    · rw [firsts_of_not_mem hmet]
      have hnew : p.identity ∉ identities (firsts (p.identity :: met) ps) := fun h =>
        (mem_identities_firsts.mp h).2 List.mem_cons_self
      exact List.nodup_cons.mpr ⟨hnew, ih _⟩

/-- Problems that are kept by their identities can be taken out before repetitions or after. -/
theorem firsts_filter {keep : Problem → Bool}
    (hkeep : ∀ p q : Problem, p.identity = q.identity → keep p = keep q) (ps : List Problem)
    {met met' : List ProblemIdentity}
    (hmet : ∀ p : Problem, keep p → (p.identity ∈ met ↔ p.identity ∈ met')) :
    firsts met' (ps.filter keep) = (firsts met ps).filter keep := by
  -- problems that are not kept may have been met in one run only, so `hmet` leaves them out
  induction ps generalizing met met' with
  | nil => rfl
  | cons p ps ih =>
    cases hp : keep p with
    | true =>
      rw [List.filter_cons_of_pos hp]
      by_cases hmem : p.identity ∈ met
      · rw [firsts_of_mem hmem, firsts_of_mem ((hmet p hp).mp hmem), ih hmet]
      · rw [firsts_of_not_mem hmem, firsts_of_not_mem (mt (hmet p hp).mpr hmem),
          List.filter_cons_of_pos hp, ih]
        intro q hq
        simp [hmet q hq]
    | false =>
      rw [List.filter_cons_of_neg (by simp [hp])]
      by_cases hmem : p.identity ∈ met
      · rw [firsts_of_mem hmem, ih hmet]
      · rw [firsts_of_not_mem hmem, List.filter_cons_of_neg (by simp [hp])]
        refine ih fun q hq => ?_
        have hne : q.identity ≠ p.identity := fun heq => by simp [hkeep q p heq, hp] at hq
        simp [hne, hmet q hq]

/-- All that is kept of a check in the middle, after problems were reported. -/
def Run.meet (run : Run) (problems : List Problem) : Run :=
  { run with
    met := (identities (firsts run.met problems)).reverse ++ run.met
    outcome := run.outcome.sort env filters (firsts run.met problems) }

theorem meet_nil (run : Run) : run.meet env filters [] = run := by
  simp [Run.meet, identities, Outcome.sort]

theorem report_eq (run : Run) (p : Problem) :
    run.report env filters p = run.meet env filters [p] := by
  unfold Run.report Run.meet
  by_cases hmet : p.identity ∈ run.met
  · rw [if_pos hmet, firsts_of_mem hmet]
    simp [identities, Outcome.sort]
  · rw [if_neg hmet, firsts_of_not_mem hmet]
    cases hverdict : verdict? env filters p <;> simp [identities, Outcome.sort, hverdict]

theorem meet_append (run : Run) (ps qs : List Problem) :
    run.meet env filters (ps ++ qs) = (run.meet env filters ps).meet env filters qs := by
  simp [Run.meet, firsts_append, Outcome.sort_append, identities]

theorem foldl_report (run : Run) (problems : List Problem) :
    problems.foldl (·.report env filters) run = run.meet env filters problems := by
  induction problems generalizing run with
  | nil => exact (meet_nil env filters run).symm
  | cons p ps ih =>
    rw [List.foldl_cons, ih, report_eq, ← meet_append]
    rfl

/-- The answer of a finder is met, and its memo is kept. -/
def Run.take (run : Run) (found : List Problem × Hierarchy.Memo) : Run :=
  { run with memo := found.2 }.meet env filters found.1

theorem take_nil (run : Run) : run.take env filters ([], run.memo) = run :=
  meet_nil env filters run

/-- A check in the middle after it has looked at some more classes. -/
def Run.cover (run : Run) (names : List String) : Run :=
  let after := run.take env filters ((ofNames env plugin names).run run.memo)
  { after with outcome := after.outcome.look plugin names }

theorem run_ofNames_cons (name : String) (names : List String) (memo : Hierarchy.Memo) :
    (ofNames env plugin (name :: names)).run memo =
      let first := (ofNamed env plugin name).run memo
      let rest := (ofNames env plugin names).run first.2
      (first.1 ++ rest.1, rest.2) := by
  unfold ofNames
  rw [List.mapM_cons]
  simp only [bind_assoc, pure_bind, List.flatten_cons]
  rfl

theorem visit_eq (run : Run) (name : String) :
    run.visit env filters plugin name =
      let after := run.take env filters ((ofNamed env plugin name).run run.memo)
      { after with outcome := after.outcome.look plugin [name] } := by
  have hnone : run.take env filters ((return [] : Finder (List Problem)).run run.memo) = run :=
    take_nil env filters run
  unfold Run.visit ofNamed
  cases hlookup : plugin.lookup name with
  | found c =>
    have hclass : plugin.class? name = some c := by rw [Classpath.class?, hlookup]; rfl
    obtain ⟨⟨found, memo⟩, hfound⟩ : ∃ r, (ofClass env c).run run.memo = r := ⟨_, rfl⟩
    simp [Run.checkClass, Run.take, hfound, foldl_report, Outcome.look, hclass, hlookup]
  | invalid message =>
    have hclass : plugin.class? name = none := by rw [Classpath.class?, hlookup]; rfl
    dsimp only
    rw [hnone]
    simp [Outcome.look, hclass, hlookup]
  | notFound =>
    have hclass : plugin.class? name = none := by rw [Classpath.class?, hlookup]; rfl
    dsimp only
    rw [hnone]
    simp [Outcome.look, hclass, hlookup]

theorem cover_cons (run : Run) (name : String) (names : List String) :
    run.cover env filters plugin (name :: names)
      = (run.visit env filters plugin name).cover env filters plugin names := by
  rw [visit_eq]
  unfold Run.cover Run.take
  simp only [run_ofNames_cons, meet_append]
  rw [show name :: names = [name] ++ names from rfl, Outcome.look_append]
  rfl

theorem foldl_visit (run : Run) (names : List String) :
    names.foldl (·.visit env filters plugin) run = run.cover env filters plugin names := by
  induction names generalizing run with
  | nil =>
    have hnone : run.cover env filters plugin [] = run.take env filters ([], run.memo) := by
      simp [Run.cover, ofNames, Outcome.look]
      rfl
    rw [hnone, take_nil]
    rfl
  | cons name names ih => rw [List.foldl_cons, ih, cover_cons]

theorem checkFrom_eq_follow (watch : Watch σ) (total done : Nat) (names : List String) (run : Run) :
    checkFrom env filters plugin watch total done names run
      = ending (names.foldl (·.visit env filters plugin) run).outcome
        <$> watch.follow total done names := by
  induction names generalizing run done with
  | nil => rfl
  | cons name names ih =>
    unfold checkFrom Watch.follow
    rw [map_bind]
    congr 1
    funext asked
    cases asked with
    | true => rfl
    | false =>
      simp only [Bool.false_eq_true, if_false, map_bind]
      congr 1
      funext _
      exact ih (done + 1) _

/-- The outcome of a check that has come across these problems. -/
def outcomeOf (problems : List Problem) : Outcome :=
  (({} : Outcome).sort env filters (firsts [] problems)).look plugin plugin.classNames

/-- Without filters everything is reported. -/
theorem outcomeOf_no_filters (problems : List Problem) :
    outcomeOf env [] plugin problems
      = ({ problems := firsts [] problems } : Outcome).look plugin plugin.classNames := by
  have hnone : verdict? env [] = fun _ => none := rfl
  simp [outcomeOf, Outcome.sort, hnone]

/-- Every check comes to its candidates, each identity once, sorted by the filters. -/
theorem yields_outcomeOf :
    Yields env filters plugin (outcomeOf env filters plugin (candidates env plugin)) := by
  intro σ watch
  unfold check
  rw [checkFrom_eq_follow, foldl_visit]
  rfl

end Linkage.Check

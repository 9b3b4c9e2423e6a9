import Linkage.Check.Filter

/-! Checking all classes of a plugin. -/
namespace Linkage

/-- A problem that a filter took out. -/
structure IgnoredProblem where
  problem : Problem
  filter : String
  reason : String

def IgnoredProblem.toJson (i : IgnoredProblem) : Json :=
  .obj [("problem", i.problem.toJson), ("filter", .str i.filter), ("reason", .str i.reason)]

namespace Check

/-- What a check found. -/
structure Outcome where
  problems : List Problem := []
  ignored : List IgnoredProblem := []
  checked : Nat := 0
  /-- Classes that are not sound, and why. -/
  invalid : List (String × String) := []

/-- Who watches a check: it can ask for the end, and is told what comes next. -/
structure Watch (σ : Type) where
  isCancelled : StateM σ Bool
  progress : (done total : Nat) → (name : String) → StateM σ Unit

/-- The check ended early. -/
inductive Stop where
  | cancelled
  deriving DecidableEq, Repr

def Stop.message : Stop → String
  | .cancelled => "Verification was cancelled"

/-- A check in the middle: what it knows, which problems it has met, what it found. -/
structure Run where
  memo : Hierarchy.Memo := []
  met : List ProblemIdentity := []
  outcome : Outcome := {}

/-- The first filter that takes a problem out, and why. -/
def verdict? (env : Surroundings) (filters : List Filter) (p : Problem) : Option IgnoredProblem :=
  filters.findSome? fun f => (f.reason? env p).map fun reason => ⟨p, f.name, reason⟩

/-- Puts a problem that was not met before among those reported or those ignored. -/
def Run.report (env : Surroundings) (filters : List Filter) (run : Run) (p : Problem) : Run :=
  if p.identity ∈ run.met then run
  else
    let outcome := match verdict? env filters p with
      | some i => { run.outcome with ignored := run.outcome.ignored ++ [i] }
      | none => { run.outcome with problems := run.outcome.problems ++ [p] }
    { run with met := p.identity :: run.met, outcome }

/-- Checks one class. -/
def Run.checkClass (env : Surroundings) (filters : List Filter) (run : Run) (c : ClassFile) : Run :=
  let (found, memo) := (ofClass env c).run run.memo
  let run := found.foldl (·.report env filters) { run with memo }
  { run with outcome := { run.outcome with checked := run.outcome.checked + 1 } }

/-- Looks up a class of the plugin and checks it, unless it is not sound. -/
def Run.visit (env : Surroundings) (filters : List Filter) (plugin : Classpath) (run : Run)
    (name : String) : Run :=
  match plugin.lookup name with
  | .found c => run.checkClass env filters c
  | .invalid message =>
    { run with outcome := { run.outcome with
        invalid := run.outcome.invalid ++ [(name, message)] } }
  | .notFound => run

/-- Checks the classes from number `done` on. -/
def checkFrom {σ : Type} (env : Surroundings) (filters : List Filter) (plugin : Classpath)
    (watch : Watch σ) (total : Nat) :
    (done : Nat) → List String → Run → StateM σ (Except Stop Outcome)
  | _, [], run => do
    watch.progress total total ""
    return .ok run.outcome
  | done, name :: names, run => do
    if ← watch.isCancelled then return .error .cancelled
    watch.progress done total name
    checkFrom env filters plugin watch total (done + 1) names (run.visit env filters plugin name)

/-- Checks all classes of a plugin in ascending order of their names. -/
def check {σ : Type} (env : Surroundings) (filters : List Filter) (plugin : Classpath)
    (watch : Watch σ) : StateM σ (Except Stop Outcome) :=
  let names := plugin.classNames
  checkFrom env filters plugin watch names.length 0 names {}

end Check
end Linkage

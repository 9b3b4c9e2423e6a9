import Linkage.Check.Run
import Linkage.Dependency.Graph

/-! What a verification of a plugin against a host ends with. -/
namespace Linkage

/-- Something odd that breaks nothing. -/
inductive Warning where
  | hostOutOfRange (host : HostVersion) (since untilVersion : Option HostVersion)
  /-- A plugin on which the plugin depends misses something. -/
  | missingTransitive (plugin : Coordinate) (missing : MissingDependency)
  | invalidClass (name message : String)
  deriving DecidableEq, Repr

namespace Warning

private def bound (v : Option HostVersion) : String := v.elim "*" HostVersion.display

def display : Warning → String
  | .hostOutOfRange host since untilVersion =>
    s!"Host {host.display} is outside the supported range [{bound since}, {bound untilVersion}]"
  | .missingTransitive plugin m =>
    s!"Dependency {m.dependency.display} of {plugin.display} is missing: {m.reason}"
  | .invalidClass name message => s!"Class {name} is invalid: {message}"

def toJson : Warning → Json
  | .hostOutOfRange host since untilVersion =>
    .obj [("kind", .str "host_out_of_range"), ("host", .str host.display),
      ("since", .str? (since.map HostVersion.display)),
      ("until", .str? (untilVersion.map HostVersion.display))]
  | .missingTransitive plugin m =>
    .obj [("kind", .str "missing_transitive_dependency"), ("plugin", plugin.toJson),
      ("dependency", m.dependency.toJson), ("reason", .str m.reason)]
  | .invalidClass name message =>
    .obj [("kind", .str "invalid_class"), ("class_name", .str name), ("message", .str message)]

end Warning

/-- The kinds of verdicts in the order in which they are counted. -/
inductive VerdictKind where
  | ok | warnings | problems | missingDependencies | notFound | failedToDownload | bad
  deriving DecidableEq, Repr

namespace VerdictKind

def all : List VerdictKind :=
  [.ok, .warnings, .problems, .missingDependencies, .notFound, .failedToDownload, .bad]

def display : VerdictKind → String
  | .ok => "OK"
  | .warnings => "Warnings"
  | .problems => "Problems"
  | .missingDependencies => "Missing dependencies"
  | .notFound => "Not found"
  | .failedToDownload => "Failed to download"
  | .bad => "Bad plugin"

/-- The name of the kind in a report. -/
def tag : VerdictKind → String
  | .ok => "ok"
  | .warnings => "warnings"
  | .problems => "problems"
  | .missingDependencies => "missing_dependencies"
  | .notFound => "not_found"
  | .failedToDownload => "failed_to_download"
  | .bad => "bad"

/-- The name of the kind where kinds are counted. -/
def constant : VerdictKind → String
  | .ok => "OK"
  | .warnings => "WARNINGS"
  | .problems => "PROBLEMS"
  | .missingDependencies => "MISSING_DEPENDENCIES"
  | .notFound => "NOT_FOUND"
  | .failedToDownload => "FAILED_TO_DOWNLOAD"
  | .bad => "BAD"

/-- Kinds that make a run fail. -/
def isFailure : VerdictKind → Bool
  | .ok | .warnings => false
  | _ => true

end VerdictKind

/-- A verdict: what a check found, or why there was none. -/
inductive Verdict where
  | checked (graph : Graph) (problems : List Problem) (warnings : List Warning)
  | notFound (reason : String)
  | failedToDownload (reason : String)
  | bad (reason : String)

namespace Verdict

/-- What is missing of the plugin's own dependencies weighs most, then problems, then warnings. -/
def kind : Verdict → VerdictKind
  | .checked graph problems warnings =>
    if !graph.start.missing.isEmpty then .missingDependencies
    else if !problems.isEmpty then .problems
    else if !warnings.isEmpty then .warnings
    else .ok
  | .notFound _ => .notFound
  | .failedToDownload _ => .failedToDownload
  | .bad _ => .bad

def problems : Verdict → List Problem
  | .checked _ problems _ => problems
  | _ => []

def warnings : Verdict → List Warning
  | .checked _ _ warnings => warnings
  | _ => []

def graph? : Verdict → Option Graph
  | .checked graph .. => some graph
  | _ => none

/-- One line on a verdict. -/
def summary (v : Verdict) : String :=
  match v with
  | .checked graph problems warnings =>
    match v.kind with
    | .missingDependencies =>
      s!"{graph.start.missing.length} missing dependencies, {problems.length} compatibility problems"
    | .problems => s!"{problems.length} compatibility problems"
    | .warnings => s!"Compatible, {warnings.length} warnings"
    | _ => "Compatible"
  | .notFound reason | .failedToDownload reason | .bad reason => reason

def display (v : Verdict) : String := v.kind.display ++ ": " ++ v.summary

/-- A verdict in a report. Lists that are empty by its kind are left out. -/
def toJson (v : Verdict) : Json :=
  .obj (("verdict", .str v.kind.tag) :: match v with
    | .checked graph problems warnings =>
      let missing := ("missing", .arr (graph.start.missing.map MissingDependency.toJson))
      let problems := ("problems", .arr (problems.map Problem.toJson))
      let warnings := ("warnings", .arr (warnings.map Warning.toJson))
      ("graph", graph.toJson) :: match v.kind with
        | .missingDependencies => [missing, problems, warnings]
        | .problems => [problems, warnings]
        | .warnings => [warnings]
        | _ => []
    | .notFound reason | .failedToDownload reason | .bad reason => [("reason", .str reason)])

end Verdict

/-- The verdict on a plugin with a host, and the problems that filters took out. -/
structure Report where
  plugin : Coordinate
  host : HostVersion
  verdict : Verdict
  ignored : List IgnoredProblem := []

def Report.toJson (r : Report) : Json :=
  .obj ([("plugin", r.plugin.toJson), ("host_version", .str r.host.display),
      ("verdict", r.verdict.toJson)]
    ++ if r.ignored.isEmpty then [] else [("ignored", .arr (r.ignored.map IgnoredProblem.toJson))])

end Linkage

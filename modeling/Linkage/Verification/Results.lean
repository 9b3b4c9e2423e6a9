import Linkage.Text.Table
import Linkage.Verification.Verdict

/-! The reports of a run, and how they are shown. -/
namespace Linkage

/-- Reports in the order of plugins and hosts, one for each pair. -/
structure Results where
  reports : List Report := []

namespace Results

/-- The order of reports by plugins and then by hosts, whose product codes do not count. -/
def compare (r s : Report) : Ordering :=
  (compareOfLessAndEq r.plugin.id s.plugin.id).then <|
    (compareOfLessAndEq r.plugin.version s.plugin.version).then (r.host.compare s.host)

/-- Puts a report into its place, which may be that of one on the same plugin and host. -/
def insert (r : Report) : List Report → List Report
  | [] => [r]
  | s :: ss =>
    match compare r s with
    | .lt => r :: s :: ss
    | .eq => r :: ss
    | .gt => s :: insert r ss

/-- Tells whether there is a report on the same plugin and host. -/
def has (rs : Results) (r : Report) : Bool := rs.reports.any fun s => compare r s == .eq

/-- Adds a report in the place of the one on the same plugin and host. -/
def add (rs : Results) (r : Report) : Results := ⟨insert r rs.reports⟩

def addAll (rs : Results) (reports : List Report) : Results := reports.foldl add rs

/-- How many reports there are of a kind. -/
def count (rs : Results) (kind : VerdictKind) : Nat :=
  (rs.reports.filter (·.verdict.kind = kind)).length

def hasFailures (rs : Results) : Bool := rs.reports.any (·.verdict.kind.isFailure)

end Results

/-- The style in which verdicts of a kind are shown. -/
def VerdictKind.style : VerdictKind → Style
  | .ok => .green
  | .warnings => .yellow
  | .problems | .missingDependencies => .boldRed
  | .notFound | .failedToDownload | .bad => .magenta

def VerdictKind.label (colored : Bool) (k : VerdictKind) : String := paint colored k.style k.display

namespace Summary

/-- The rows of the table: a heading, and one for each report. -/
def rows (colored : Bool) (reports : List Report) : List (List String) :=
  ["Plugin", "Host", "Verdict", "Details"].map (paint colored .bold)
    :: reports.map fun r =>
      [r.plugin.display, r.host.display, r.verdict.kind.label colored, r.verdict.summary]

/-- The lines on one report: its problems under their headings, then its warnings. -/
def details (colored : Bool) (r : Report) : List String :=
  let problems := r.verdict.problems
  let warnings := r.verdict.warnings
  if problems.isEmpty && warnings.isEmpty then []
  else
    let group (heading : String) : List String :=
      let found := problems.filter (·.type.heading = heading)
      s!"  {paint colored .red heading} ({found.length})" :: found.map fun p => "    " ++ p.description
    ["", s!"{paint colored .bold r.plugin.display} against {r.host.display}:"]
      ++ (sortDistinct (problems.map (·.type.heading))).flatMap group
      ++ warnings.map fun w => "  " ++ paint colored .yellow "warning:" ++ " " ++ w.display

/-- How many reports there are of each kind, in the order of kinds. -/
def totals (colored : Bool) (reports : List Report) : String :=
  let counts := VerdictKind.all.map fun k => (k, (reports.filter (·.verdict.kind = k)).length)
  " | ".intercalate ((counts.filter (·.2 ≠ 0)).map fun (k, n) => s!"{k.label colored}: {n}")

/-- The table of all reports, what was found, and the totals; nothing if the columns of the table
are not known. -/
def render? (colored : Bool) (reports : List Report) : Option String := do
  if reports.isEmpty then return "No verifications were run.\n"
  let table := "\n".intercalate (← Table.render? (rows colored reports))
  let out := (lines table).map ("  " ++ ·) ++ reports.flatMap (details colored)
    ++ ["", "  " ++ totals colored reports]
  return String.join (out.map (· ++ "\n"))

/-- All reports as JSON. -/
def renderJson (reports : List Report) : String := (Json.arr (reports.map Report.toJson)).indented 0

end Summary
end Linkage

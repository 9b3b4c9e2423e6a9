import Linkage.Check.Json
import Linkage.Tasks.Json
import Linkage.Verification.Collection
import Linkage.Verification.Task

/-! Verdicts and reports from JSON, and events as JSON. -/
namespace Linkage

def Coordinate.ofJson (j : Json) : Coordinate := ⟨j.stringAt 0, j.stringAt 1⟩

def Dependency.ofJson (j : Json) : Dependency := (read? Json.reading j).getD { id := "" }

def HostVersion.ofJson (j : Json) : HostVersion := (ofText? j.string).getD ⟨none, []⟩

def MissingDependency.ofJson (j : Json) : MissingDependency :=
  ⟨.ofJson (j.field "dependency"), j.text "reason" ""⟩

def Vertex.ofJson (j : Json) : Vertex :=
  ⟨⟨j.text "id" "", j.text "version" ""⟩,
    (j.list "missing").foldl (fun noted m => (MissingDependency.ofJson m).addTo noted) []⟩

/-- A graph, which has a first vertex. -/
def Graph.ofJson? (j : Json) : Option Graph :=
  match (j.list "vertices").map Vertex.ofJson with
  | [] => none
  | start :: others => some ⟨start, others, (j.list "edges").map fun e =>
      ⟨.ofJson (e.field "from"), .ofJson (e.field "to"), .ofJson (e.field "dependency")⟩⟩

def Warning.ofJson (j : Json) : Warning :=
  let bound (name : String) : Option HostVersion :=
    (j.field name).asStr?.bind HostVersion.ofText?
  match j.text "kind" "" with
  | "host_out_of_range" => .hostOutOfRange (.ofJson (j.field "host")) (bound "since") (bound "until")
  | "missing_transitive_dependency" =>
    .missingTransitive (.ofJson (j.field "plugin")) (.ofJson j)
  | _ => .invalidClass (j.text "class_name" "") (j.text "message" "")

/-- A verdict, unless its graph has no vertex. -/
def Verdict.ofJson? (j : Json) : Option Verdict :=
  let reason := j.text "reason" ""
  match j.text "kind" "" with
  | "not_found" => some (.notFound reason)
  | "failed" => some (.failedToDownload reason)
  | "bad" => some (.bad reason)
  | _ => (Graph.ofJson? (j.field "graph")).map fun graph =>
    .checked graph ((j.list "problems").map (Problem.ofJson .empty))
      ((j.list "warnings").map Warning.ofJson)

def Report.ofJson? (j : Json) : Option Report :=
  (Verdict.ofJson? (j.field "verdict")).map fun verdict =>
    ⟨.ofJson (j.field "plugin"), .ofJson (j.field "host"), verdict, (j.list "ignored").map fun i =>
      ⟨.ofJson .empty (i.field "problem"), i.text "filter" "", i.text "reason" ""⟩⟩

/-- A report with its kind, its texts and the number of its problems. -/
def Report.details (r : Report) : List (String × Json) :=
  let v := r.verdict
  [("report", r.toJson), ("kind", .str v.kind.constant), ("label", .str v.kind.display),
    ("display", .str v.display), ("problems", .nat v.problems.length),
    ("has_graph", .bool v.graph?.isSome), ("warnings", .ofList (fun w => .str w.display) v.warnings)]

/-- The messages, and how much there is of the rest. -/
def Collection.details (c : Collection) : List (String × Json) :=
  [("messages", .strs c.messages), ("progress", .ofBits c.progress.toBits),
    ("problems", .nat c.problems.length), ("warnings", .nat c.warnings.length),
    ("ignored", .nat c.ignored.length), ("reports", .nat c.reports.length)]

/-- An event: its kind, and then what it tells. -/
def Event.toJson : Event → Json
  | .message text => .strs ["message", text]
  | .progress fraction => .arr [.str "progress", .ofBits fraction.toBits]
  | .problem p => .strs ["problem", p.summary]
  | .warning w => .strs ["warning", w.display]
  | .graph g => .strs ["graph", g.display]
  | .ignored i => .strs ["ignored", i.problem.summary, i.filter, i.reason]
  | .verdict r => .strs ["verdict", r.plugin.display, r.host.display, r.verdict.display]

def HostSelection.ofJson? (j : Json) : Option HostSelection :=
  match j.get? "versions", j.get? "compatible" with
  | some vs, _ => some (.versions (vs.items.map .ofJson))
  | _, some vs => some (.compatibleWith (vs.items.map .ofJson))
  | _, _ => none

end Linkage

import Linkage.Plugin.Descriptor

/-! The dependencies of a plugin: the plugins that it reaches, by which declarations, and what is
missing. -/
namespace Linkage

/-- A dependency that nothing supplies. -/
structure MissingDependency where
  dependency : Dependency
  reason : String
  deriving DecidableEq, Repr

/-- A plugin in a graph and what is missing of its dependencies. -/
structure Vertex where
  coordinate : Coordinate
  missing : List MissingDependency := []
  deriving DecidableEq, Repr

/-- A declared dependency between two plugins of a graph. -/
structure Edge where
  source : Coordinate
  target : Coordinate
  dependency : Dependency
  deriving DecidableEq, Repr

/-- The graph of a plugin's dependencies, in the order in which they were found. -/
structure Graph where
  start : Vertex
  others : List Vertex := []
  edges : List Edge := []
  deriving DecidableEq, Repr

def MissingDependency.display (m : MissingDependency) : String :=
  m.dependency.display ++ ": " ++ m.reason

/-- Notes a missing dependency, if it is not noted yet. -/
def MissingDependency.addTo (m : MissingDependency) (noted : List MissingDependency) :
    List MissingDependency :=
  if m ∈ noted then noted else noted ++ [m]

def MissingDependency.toJson (m : MissingDependency) : Json :=
  .obj [("dependency", m.dependency.toJson), ("reason", .str m.reason)]

def Vertex.toJson (v : Vertex) : Json :=
  .obj [("id", .str v.coordinate.id), ("version", .str v.coordinate.version),
    ("missing_dependencies", .arr (v.missing.map MissingDependency.toJson))]

def Edge.toJson (e : Edge) : Json :=
  .obj [("from", e.source.toJson), ("to", e.target.toJson), ("dependency", e.dependency.toJson)]

namespace Graph

def vertices (g : Graph) : List Vertex := g.start :: g.others

def vertex? (g : Graph) (id : String) : Option Vertex := g.vertices.find? (·.coordinate.id = id)

def edgesFrom (g : Graph) (id : String) : List Edge := g.edges.filter (·.source.id = id)

/-- What the dependencies of the plugin are missing themselves. -/
def transitiveMissing (g : Graph) : List (Coordinate × MissingDependency) :=
  g.others.flatMap fun v => v.missing.map (v.coordinate, ·)

/-- The plugin, each edge and each missing dependency on a line. -/
def display (g : Graph) : String :=
  let edges := g.edges.map fun e =>
    s!"  {e.source.display} -> {e.target.display} ({e.dependency.display})\n"
  let missing := g.vertices.flatMap fun v => v.missing.map fun m =>
    s!"  {v.coordinate.display} -> missing {m.display}\n"
  g.start.coordinate.display ++ "\n" ++ String.join edges ++ String.join missing

def toJson (g : Graph) : Json :=
  .obj [("vertices", .arr (g.vertices.map Vertex.toJson)), ("edges", .arr (g.edges.map Edge.toJson))]

end Graph
end Linkage

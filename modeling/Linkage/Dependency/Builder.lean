import Linkage.Dependency.Finder
import Linkage.Dependency.Graph

/-! Building the graph of a plugin's dependencies. -/
namespace Linkage.Graph

/-- What a builder works with. -/
structure Supply (σ lease : Type) where
  find : Finder σ lease
  giveBack : lease → StateM σ Unit
  /-- Tells whether the work is to stop. -/
  isCancelled : StateM σ Bool

/-- Where a declared dependency leads. -/
inductive Target where
  /-- To the plugin with this number. -/
  | plugin (number : Nat)
  | missing (reason : String)
  deriving DecidableEq, Repr

/-- A plugin that was reached. -/
structure Reached where
  plugin : Plugin
  missing : List MissingDependency := []

/-- A graph in the making. Plugins are numbered in the order in which they were reached. -/
structure Draft (lease : Type) where
  start : Reached
  others : List Reached := []
  edges : List Edge := []
  /-- Where the dependencies that were looked for lead. -/
  answers : List ((String × Bool) × Target) := []
  leases : List lease := []

/-- Why there is no graph. -/
inductive BuildStop where
  | cancelled
  /-- There are more plugins than there should be. -/
  | tooMany
  deriving DecidableEq, Repr

def BuildStop.message : BuildStop → String
  | .cancelled => "Dependency resolution was cancelled"
  | .tooMany => "Too many dependencies"

/-- A graph, the classes of its plugins but the first, and the leases that keep them loaded. -/
structure Built (lease : Type) where
  graph : Graph
  classes : List Classpath
  leases : List lease

variable {σ lease : Type}

namespace Draft

def reached (d : Draft lease) : List Reached := d.start :: d.others

/-- The number of the plugin with an id. -/
def number? (d : Draft lease) (id : String) : Option Nat :=
  d.reached.findIdx? (·.plugin.id = id)

/-- Changes the plugin with a number. -/
def update (d : Draft lease) (number : Nat) (f : Reached → Reached) : Draft lease :=
  match number with
  | 0 => { d with start := f d.start }
  | n + 1 => { d with others := d.others.modify n f }

/-- Notes where a dependency leads. -/
def answer (d : Draft lease) (on : Dependency) (target : Target) : Draft lease :=
  { d with answers := ((on.id, on.onModule), target) :: d.answers }

/-- Takes a new plugin in, with its lease if it has one. -/
def add (d : Draft lease) (plugin : Plugin) (held : Option lease) : Draft lease :=
  { d with others := d.others ++ [⟨plugin, []⟩], leases := d.leases ++ held.toList }

/-- Adds an edge, if it is not there. -/
def addEdge (d : Draft lease) (e : Edge) : Draft lease :=
  if e ∈ d.edges then d else { d with edges := d.edges ++ [e] }

/-- Adds a missing dependency to the plugin with a number, if it is not there. -/
def addMissing (d : Draft lease) (number : Nat) (m : MissingDependency) : Draft lease :=
  d.update number fun r => { r with missing := m.addTo r.missing }

/-- Finds out where a dependency leads. Each id is looked for once, and of the plugins with one id
the first that is found counts. -/
def resolve (supply : Supply σ lease) (d : Draft lease) (on : Dependency) :
    StateM σ (Target × Draft lease) := do
  match d.answers.lookup (on.id, on.onModule) with
  | some target => return (target, d)
  | none =>
    match ← supply.find on with
    | .missing reason => return (.missing reason, d.answer on (.missing reason))
    | .present plugin =>
      match d.number? plugin.id with
      | some n => return (.plugin n, d.answer on (.plugin n))
      | none =>
        let n := d.reached.length
        return (.plugin n, (d.add plugin none).answer on (.plugin n))
    | .leased lease plugin =>
      match d.number? plugin.id with
      | some n =>
        supply.giveBack lease
        return (.plugin n, d.answer on (.plugin n))
      | none =>
        let n := d.reached.length
        return (.plugin n, (d.add plugin (some lease)).answer on (.plugin n))

/-- Follows one dependency of the plugin with a number. Modules of the host need no plugin, and a
plugin does not depend on itself. -/
def follow (supply : Supply σ lease) (hostModules : List String) (number : Nat) (d : Draft lease)
    (on : Dependency) : StateM σ (Draft lease) := do
  if on.onModule && hostModules.contains on.id then return d
  let (target, d) ← d.resolve supply on
  match target with
  | .missing reason => return d.addMissing number ⟨on, reason⟩
  | .plugin n =>
    if n = number then return d
    else
      match d.reached[number]?, d.reached[n]? with
      | some source, some target =>
        return d.addEdge ⟨source.plugin.coordinate, target.plugin.coordinate, on⟩
      | _, _ => return d

/-- Follows all dependencies of the plugin with a number. -/
def expand (supply : Supply σ lease) (hostModules : List String) (number : Nat) :
    List Dependency → Draft lease → StateM σ (Draft lease)
  | [], d => return d
  | on :: rest, d => do expand supply hostModules number rest (← d.follow supply hostModules number on)

/-- Expands the plugins from a number on, as long as there are any. -/
def complete (supply : Supply σ lease) (hostModules : List String) :
    (limit number : Nat) → Draft lease → StateM σ (Except BuildStop (Draft lease) × List lease)
  | limit, number, d => do
    match d.reached[number]? with
    | none => return (.ok d, [])
    | some reached =>
      match limit with
      | 0 => return (.error .tooMany, d.leases)
      | limit + 1 =>
        if ← supply.isCancelled then return (.error .cancelled, d.leases)
        let d ← d.expand supply hostModules number reached.plugin.descriptor.dependencies
        complete supply hostModules limit (number + 1) d

def built (d : Draft lease) : Built lease where
  graph :=
    { start := ⟨d.start.plugin.coordinate, d.start.missing⟩
      others := d.others.map fun r => ⟨r.plugin.coordinate, r.missing⟩
      edges := d.edges }
  classes := d.others.map (·.plugin.classes)
  leases := d.leases

end Draft

/-- Builds the graph of a plugin's dependencies from near to far; of more than `limit` plugins there
is none. Without a graph no lease is kept. -/
def build (supply : Supply σ lease) (hostModules : List String) (limit : Nat) (plugin : Plugin) :
    StateM σ (Except BuildStop (Built lease)) := do
  match ← Draft.complete supply hostModules limit 0 { start := ⟨plugin, []⟩ } with
  | (.ok d, _) => return .ok d.built
  | (.error stop, leases) =>
    leases.forM supply.giveBack
    return .error stop

end Linkage.Graph

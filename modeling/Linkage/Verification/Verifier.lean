import Linkage.Dependency.Builder
import Linkage.Host.Store
import Linkage.Verification.Verdict

/-! Verifying one plugin against one host. -/
namespace Linkage

/-- What a verification tells while it runs. -/
inductive Event where
  | message (text : String)
  | progress (fraction : Float)
  | problem (problem : Problem)
  | warning (warning : Warning)
  | graph (graph : Graph)
  | ignored (ignored : IgnoredProblem)
  | verdict (report : Report)

/-- Who follows verifications, and can ask them to stop. -/
structure Observer (σ : Type) where
  notify : Event → StateM σ Unit
  isCancelled : StateM σ Bool

/-- What all verifications have in common. -/
structure Parameters where
  externalPrefixes : List String := []
  filters : List Filter := []
  /-- Classes that come after those of the host. -/
  extraClasses : List Classpath := []

namespace Verification

variable {σ lease : Type}

/-- Where plugins come from that a host does not bring along. -/
structure Depot (σ lease : Type) where
  find : Finder σ lease
  giveBack : lease → StateM σ Unit
  /-- No more plugins than this can be found. -/
  size : Nat

/-- The range of a plugin, if the host is out of it. -/
def rangeWarnings (plugin : Descriptor) (host : HostVersion) : List Warning :=
  if plugin.isCompatibleWith host then []
  else [.hostOutOfRange host plugin.since plugin.untilVersion]

/-- What the plugins in a graph are missing, but for the first. -/
def graphWarnings (graph : Graph) : List Warning :=
  (graph.transitiveMissing.filter fun (c, _) => c.id ≠ graph.start.coordinate.id).map fun (c, m) =>
    .missingTransitive c m

/-- All classes that a plugin sees: its own, those of its dependencies, those of the host, and the
extra ones. -/
def classpath (params : Parameters) (plugin : Plugin) (dependencies : List Classpath) (host : Host) :
    Classpath :=
  .union (plugin.classes :: dependencies ++ host.classes :: params.extraClasses)

/-- Tells how far a check has come, unless there is nothing to check. -/
def watch (observer : Observer σ) : Check.Watch σ where
  isCancelled := observer.isCancelled
  progress done total _ :=
    if total > 0 then observer.notify (.progress (Float.ofNat done / Float.ofNat total)) else pure ()

/-- Checks a plugin with its dependencies at hand, and tells the outcome. -/
def checkWith (params : Parameters) (observer : Observer σ) (plugin : Plugin) (host : Host)
    (graph : Graph) (dependencies : List Classpath) : StateM σ (Except Check.Stop Report) := do
  let surroundings : Check.Surroundings :=
    ⟨plugin.id, classpath params plugin dependencies host,
      Check.externalPrefixesOf params.externalPrefixes⟩
  match ← Check.check surroundings params.filters plugin.classes (watch observer) with
  | .error stop => return .error stop
  | .ok outcome =>
    let warnings := rangeWarnings plugin.descriptor host.version ++ graphWarnings graph
      ++ outcome.invalid.map fun (name, message) => .invalidClass name message
    outcome.problems.forM fun p => observer.notify (.problem p)
    outcome.ignored.forM fun i => observer.notify (.ignored i)
    warnings.forM fun w => observer.notify (.warning w)
    return .ok ⟨plugin.coordinate, host.version, .checked graph outcome.problems warnings,
      outcome.ignored⟩

/-- Verifies a plugin against a host. Plugins that come with the host are found before those of the
depot, and what was leased is given back in any case. -/
def verify (params : Parameters) (observer : Observer σ) (depot : Depot σ lease) (plugin : Plugin)
    (host : Host) : StateM σ (Except Check.Stop Report) := do
  observer.notify (.message s!"Verifying {plugin.coordinate.display} against {host.version.display}")
  let supply : Graph.Supply σ lease :=
    ⟨.firstOf [.bundled host.bundled, depot.find], depot.giveBack, observer.isCancelled⟩
  match ← Graph.build supply host.modules (depot.size + host.bundled.length + 1) plugin with
  | .error _ => return .error .cancelled
  | .ok built =>
    observer.notify (.graph built.graph)
    let report ← checkWith params observer plugin host built.graph built.classes
    built.leases.forM depot.giveBack
    if let .ok r := report then observer.notify (.verdict r)
    return report

end Verification
end Linkage

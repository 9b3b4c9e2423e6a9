import Linkage.CommandLine.Plan
import Linkage.Verification.Results

/-! A run of the verifier from the command line to what it prints. -/
namespace Linkage

/-- What a run ends with. -/
structure RunOutcome where
  output : String := ""
  /-- Whether a verification failed, or why there was none. -/
  failed : Except RunFault Bool

namespace Arguments

/-- Whether there are colours, where the terminal has them. -/
def wantsColor (a : Arguments) (s : Settings) : Except SettingsFault Bool := do
  if a.noColor then return false
  return !((← s.bool? "base" "no-color").getD false)

/-- Verifies plugins one after the other and collects the reports. -/
def verifyAll (params : Parameters) (loadHost : HostVersion → Except Refusal Host)
    (hosts : HostSelection) : List Coordinate → Results → StateM (Workshop Unit) Results
  | [], results => return results
  | c :: cs, results => do
    let observer : Observer Unit := ⟨fun _ => pure (), pure false⟩
    let reports ← Workshop.verifyPlugin params observer loadHost c hosts
    verifyAll params loadHost hosts cs <| match reports with
      | .ok reports => results.addAll reports.reports
      | .error _ => results

/-- Verifies what was chosen. -/
def verify (a : Arguments) (v : VerifierSettings) (tree : FileTree) : Except RunFault Results := do
  let params : Parameters :=
    { externalPrefixes := v.externalPrefixes
      filters := ← a.filters v tree
      extraClasses := ← a.extraClasses tree }
  let hosts ← a.hosts tree
  let plugins ← a.chosenPlugins tree
  let store : PluginStore := ⟨a.pluginsDirectory⟩
  let workshop : Workshop Unit :=
    { library := ⟨store.repository tree, store.load tree, { capacity := v.pluginCapacity }⟩
      hosts := { capacity := v.hostCapacity }
      follower := () }
  return ((verifyAll params ((HostStore.mk a.hostsDirectory).load tree) hosts plugins {}).run
    workshop).1

/-- The text of results. -/
def render (a : Arguments) (colored : Bool) (results : Results) : Except RunFault String :=
  match a.format with
  | .table =>
    match Summary.render? colored results.reports with
    | some text => .ok text
    | none => .error .noColumns
  | .json => .ok (Summary.renderJson results.reports ++ "\n")

private def tryRun (a : Arguments) (env : Environment) (tree : FileTree) (colored : Bool) :
    Except RunFault (String × Bool) := do
  if let some fault := a.fault? tree then throw fault
  let settings ← (a.loadSettings env tree).mapError .settings
  let _ ← (a.logSettings settings).mapError .settings
  let wanted ← (a.wantsColor settings).mapError .settings
  let results ← a.verify (← a.verifierSettings settings) tree
  return (← a.render (colored && wanted) results, results.hasFailures)

/-- Runs what the command line asks for. -/
def run (a : Arguments) (env : Environment) (tree : FileTree) (colored : Bool) : RunOutcome :=
  match a.tryRun env tree colored with
  | .ok (output, failed) => ⟨output, .ok failed⟩
  | .error fault => ⟨"", .error fault⟩

end Arguments
end Linkage

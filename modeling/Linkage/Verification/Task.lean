import Linkage.Tasks.Scheduler
import Linkage.Verification.Verifier

/-! Verifying one plugin against many hosts. -/
namespace Linkage

/-- The hosts against which a plugin is verified. -/
inductive HostSelection where
  | versions (versions : List HostVersion)
  /-- Of these, those in the range of the plugin. -/
  | compatibleWith (versions : List HostVersion)
  deriving DecidableEq, Repr

namespace HostSelection

/-- All versions that may be meant. -/
def candidates : HostSelection → List HostVersion
  | .versions vs | .compatibleWith vs => vs

/-- The versions that are meant for a plugin. -/
def select (s : HostSelection) (plugin : Descriptor) : List HostVersion :=
  match s with
  | .versions vs => vs
  | .compatibleWith vs => vs.filter plugin.isCompatibleWith

end HostSelection

/-- What verifications change: what is loaded, how far the task has come, and the state of who
follows it. Versions that differ in their product codes alone are one host. -/
structure Workshop (σ : Type) where
  library : Library
  hosts : Cache (List VersionPart) Host
  progress : Progress := {}
  follower : σ

/-- All reports on a plugin. -/
structure PluginReports where
  plugin : Coordinate
  reports : List Report := []

namespace Workshop

variable {σ : Type}

def onLibrary {α : Type} (act : StateM Library α) : StateM (Workshop σ) α := fun w =>
  let (a, library) := act.run w.library
  (a, { w with library })

def onFollower {α : Type} (act : StateM σ α) : StateM (Workshop σ) α := fun w =>
  let (a, follower) := act.run w.follower
  (a, { w with follower })

def setProgress (f : Progress → Progress) : StateM (Workshop σ) Unit :=
  modify fun w => { w with progress := f w.progress }

/-- Passes events on. Progress on one host is scaled to the part of the task that it is. -/
def observer (o : Observer σ) (offset scale : Float) : Observer (Workshop σ) where
  notify
    | .message text => do
      setProgress (·.setText text)
      onFollower (o.notify (.message text))
    | .progress fraction => do
      let overall := offset + fraction * scale
      setProgress (·.setFraction overall.toBits)
      onFollower (o.notify (.progress overall))
    | event => onFollower (o.notify event)
  isCancelled := onFollower o.isCancelled

/-- The plugins of the library, as a depot. -/
def depot (w : Workshop σ) : Verification.Depot (Workshop σ) Coordinate where
  find d := onLibrary (Library.find d)
  giveBack c := onLibrary (Library.giveBack c)
  size := w.library.repository.descriptors.length

/-- Leases a host. -/
def acquireHost (load : HostVersion → Except Refusal Host) (version : HostVersion) :
    StateM (Workshop σ) (Except Refusal Host) := fun w =>
  let (acquired, hosts) := w.hosts.acquire version.parts fun _ => load version
  (acquired.answer, { w with hosts })

def releaseHost (version : HostVersion) : StateM (Workshop σ) Unit :=
  modify fun w => { w with hosts := (w.hosts.release version.parts).2 }

/-- Leases a plugin. -/
def acquirePlugin (c : Coordinate) : StateM (Workshop σ) (Except Refusal Plugin) := fun w =>
  let (acquired, cache) := w.library.cache.acquire c w.library.load
  (acquired.answer, { w with library := { w.library with cache } })

/-- The verdict on a plugin that cannot be had. -/
def refusalVerdict : Refusal → Verdict
  | .notFound reason => .notFound reason
  | .failed reason => .failedToDownload reason
  | .invalid reason => .bad reason

/-- One report for each host that may be meant, all with the same verdict. -/
def refuse (o : Observer σ) (c : Coordinate) (hosts : HostSelection) (refusal : Refusal) :
    StateM (Workshop σ) PluginReports := do
  let reports := hosts.candidates.map fun host => ⟨c, host, refusalVerdict refusal, []⟩
  reports.forM fun r => onFollower (o.notify (.verdict r))
  return ⟨c, reports⟩

/-- Verifies a plugin against some hosts, with dependencies from a depot. Hosts that cannot be had are
left out. -/
def verifyEach {lease : Type} (params : Parameters) (o : Observer σ)
    (load : HostVersion → Except Refusal Host) (depot : Verification.Depot (Workshop σ) lease)
    (c : Coordinate) (plugin : Plugin) (step : Float) :
    (index : Nat) → List HostVersion → StateM (Workshop σ) (Except TaskError (List Report))
  | _, [] => return .ok []
  | index, version :: versions => do
    if ← onFollower o.isCancelled then return .error .cancelled
    let offset := Float.ofNat index * step
    setProgress (·.update offset.toBits s!"{c.display} against {version.display}")
    match ← acquireHost load version with
    | .error _ => verifyEach params o load depot c plugin step (index + 1) versions
    | .ok host =>
      let report ← Verification.verify params (observer o offset step) depot plugin host
      releaseHost version
      match report with
      | .error .cancelled => return .error .cancelled
      | .ok report =>
        let rest ← verifyEach params o load depot c plugin step (index + 1) versions
        return rest.map (report :: ·)

/-- Verifies a plugin against the selected hosts, with dependencies from a depot. Whatever happens,
all leases are given back. -/
def verifyPluginFrom {lease : Type} (depot : Verification.Depot (Workshop σ) lease)
    (params : Parameters) (o : Observer σ) (load : HostVersion → Except Refusal Host)
    (c : Coordinate) (hosts : HostSelection) :
    StateM (Workshop σ) (Except TaskError PluginReports) := do
  setProgress (·.setText s!"Loading {c.display}")
  match ← acquirePlugin c with
  | .error refusal => return .ok (← refuse o c hosts refusal)
  | .ok plugin =>
    let versions := hosts.select plugin.descriptor
    let step := 1 / Float.ofNat (max versions.length 1)
    let reports ← verifyEach params o load depot c plugin step 0 versions
    onLibrary (Library.giveBack c)
    match reports with
    | .error e => return .error e
    | .ok reports =>
      setProgress (·.update Progress.one "Done")
      return .ok ⟨c, reports⟩

/-- Verifies a plugin against the selected hosts, with dependencies from the library. -/
def verifyPlugin (params : Parameters) (o : Observer σ) (load : HostVersion → Except Refusal Host)
    (c : Coordinate) (hosts : HostSelection) :
    StateM (Workshop σ) (Except TaskError PluginReports) := do
  verifyPluginFrom (← get).depot params o load c hosts

/-- The name of the task that verifies a plugin. -/
def taskName (c : Coordinate) : String := s!"Verify {c.display}"

end Workshop
end Linkage

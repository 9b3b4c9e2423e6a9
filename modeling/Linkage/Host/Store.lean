import Linkage.Host.Version
import Linkage.Plugin.Store

/-! Hosts, and the directories that hold them. -/
namespace Linkage

/-- A host: its classes, the plugins that come with it, and the modules that are built in. -/
structure Host where
  version : HostVersion
  classes : Classpath
  bundled : List Plugin := []
  modules : List String := []

namespace Host

def hasModule (h : Host) (module : String) : Bool := h.modules.contains module

def bundledPlugin? (h : Host) (id : String) : Option Plugin := h.bundled.find? (·.id = id)

def bundledWithModule? (h : Host) (module : String) : Option Plugin :=
  h.bundled.find? (·.descriptor.providesModule module)

end Host

/-- Why there is no host in a directory. -/
inductive HostFault where
  | unreadable (path : String)
  | noClassesDirectory (directory : String)
  | noClasses (fault : Classpath.NotADirectory)

/-- What is said of the fault; how an unreadable text fails is not part of it. -/
def HostFault.message : HostFault → String
  | .unreadable path => s!"Invalid host layout at {path}"
  | .noClassesDirectory directory =>
    s!"Invalid host layout at {directory}: missing classes directory"
  | .noClasses fault => fault.message

/-- What a host says about itself: its product code, and its modules in ascending order. -/
structure HostProfile where
  product : Option String := none
  modules : List String := []
  deriving DecidableEq, Repr

def HostProfile.read? {ν : Type} (r : Reading ν) (v : ν) : Option HostProfile := do
  let fields ← r.record? ["product", "modules"] v
  return {
    product := ← r.optional? r.text? fields "product"
    modules := sortDistinct (← Reading.defaulted? r.texts? [] fields "modules") }

/-- The hosts below a root, each in a directory with its version for a name. -/
structure HostStore where
  root : String

namespace HostStore

/-- The directories of hosts and their versions. -/
def directories (s : HostStore) (tree : FileTree) : List (HostVersion × String) :=
  (tree.subdirectories s.root).filterMap fun path => do
    return (← HostVersion.ofText? (← Path.fileName? path), path)

/-- The versions of the hosts in ascending order. -/
def versions (s : HostStore) (tree : FileTree) : List HostVersion :=
  ((s.directories tree).map (·.1)).mergeSort HostVersion.le

/-- The name of the file in which a host describes itself. -/
def profileFile : String := "host.json"

private def profile (tree : FileTree) (directory : String) : Except HostFault HostProfile :=
  let path := Path.join directory profileFile
  if tree.isFile path then
    match tree.text? path >>= Json.parse? >>= HostProfile.read? Json.reading with
    | some p => .ok p
    | none => .error (.unreadable path)
  else .ok {}

/-- Reads the host in a directory. Bundled plugins that are not sound are left out. -/
def read (tree : FileTree) (version : HostVersion) (directory : String) : Except HostFault Host := do
  let profile ← profile tree directory
  let path := Path.join directory classesDirectory
  unless tree.isDirectory path do throw (.noClassesDirectory directory)
  let classes ← (Classpath.openDirectory tree path).mapError .noClasses
  return {
    version := profile.product.elim version version.withProduct
    classes
    bundled := (tree.subdirectories (Path.join directory "plugins")).filterMap fun path =>
      (Plugin.inDirectory tree path).toOption
    modules := profile.modules }

/-- The directory of a version, whatever its product code. -/
def directory? (s : HostStore) (tree : FileTree) (version : HostVersion) : Option String :=
  ((s.directories tree).find? (·.1.same version)).map (·.2)

/-- Loads a host. -/
def load (s : HostStore) (tree : FileTree) (version : HostVersion) : Except Refusal Host :=
  match s.directory? tree version with
  | none => .error (.notFound s!"host {version.display} is not in {s.root}")
  | some path =>
    match read tree version path with
    | .ok host => .ok host
    | .error (.noClasses fault) => .error (.failed fault.message)
    | .error fault => .error (.invalid fault.message)

end HostStore
end Linkage

import Linkage.Cache.Basic
import Linkage.Plugin.Directory
import Linkage.Plugin.Repository

/-! Plugins on disk: version `v` of the plugin `p` is the directory `p/v` below the root. -/
namespace Linkage

/-- The paths of the directories in a directory, in ascending order of their names. -/
def FileTree.subdirectories (tree : FileTree) (path : String) : List String :=
  ((tree.childrenAt path).map (Path.join path)).filter tree.isDirectory

/-- The plugins below a root. -/
structure PluginStore where
  root : String

namespace PluginStore

def directory (s : PluginStore) (c : Coordinate) : String :=
  Path.join (Path.join s.root c.id) c.version

/-- The descriptors of all sound plugins, in the order of their coordinates. -/
def descriptors (s : PluginStore) (tree : FileTree) : List Descriptor :=
  let found := (tree.subdirectories s.root).flatMap fun ofId =>
    (tree.subdirectories ofId).filterMap fun path => (Descriptor.inDirectory tree path).toOption
  found.mergeSort fun d e => d.coordinate.le e.coordinate

def repository (s : PluginStore) (tree : FileTree) : Repository := .ofDescriptors (s.descriptors tree)

/-- The versions of a plugin for which there is a directory. -/
def versions (s : PluginStore) (tree : FileTree) (id : String) : List String :=
  (tree.subdirectories (Path.join s.root id)).filterMap Path.fileName?

/-- Loads a plugin. It has to be the one that its directory is for. -/
def load (s : PluginStore) (tree : FileTree) (c : Coordinate) : Except Refusal Plugin :=
  let path := s.directory c
  if tree.isDirectory path then
    match Plugin.inDirectory tree path with
    | .ok plugin =>
      if plugin.coordinate = c then .ok plugin
      else .error (.invalid
        s!"{path} declares {plugin.coordinate.display} instead of {c.display}")
    | .error (.noClasses fault) => .error (.failed fault.message)
    | .error fault => .error (.invalid fault.message)
  else .error (.notFound s!"plugin {c.display} is not in {s.root}")

end PluginStore
end Linkage

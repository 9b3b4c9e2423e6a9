import Linkage.Plugin.Descriptor
import Linkage.Plugin.Version

/-! Catalogues of plugins, which know descriptors alone. -/
namespace Linkage

/-- The descriptors of a catalogue in the order in which they were added last. -/
structure Repository where
  descriptors : List Descriptor := []

namespace Repository

/-- Adds a descriptor in the place of the one with its coordinate. -/
def add (r : Repository) (d : Descriptor) : Repository :=
  ⟨r.descriptors.filter (·.coordinate ≠ d.coordinate) ++ [d]⟩

/-- The later of the newest descriptors. -/
def newest? : List Descriptor → Option Descriptor
  | [] => none
  | d :: ds =>
    match newest? ds with
    | none => some d
    | some e => if PluginVersion.compare d.version e.version = .gt then some d else some e

/-- The newest version of a plugin. -/
def lastVersion? (r : Repository) (id : String) : Option Coordinate :=
  (newest? (r.descriptors.filter (·.id = id))).map (·.coordinate)

/-- The newest plugin that has a module. -/
def withModule? (r : Repository) (module : String) : Option Coordinate :=
  (newest? (r.descriptors.filter (·.providesModule module))).map (·.coordinate)

/-- All versions of a plugin, the oldest first. -/
def allVersions (r : Repository) (id : String) : List Coordinate :=
  ((r.descriptors.filter (·.id = id)).mergeSort fun d e => PluginVersion.le d.version e.version).map
    (·.coordinate)

def ofDescriptors (descriptors : List Descriptor) : Repository := descriptors.foldl add {}

end Repository
end Linkage

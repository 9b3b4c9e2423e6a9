import Linkage.Data.Json.Parser
import Linkage.Data.Reading
import Linkage.Host.Version

/-! What a plugin says about itself. -/
namespace Linkage

/-- A declared dependency on a plugin, or on whatever plugin has a module. -/
structure Dependency where
  id : String
  optional : Bool := false
  onModule : Bool := false
  configFile : Option String := none
  deriving DecidableEq, Repr

/-- A plugin and its version. -/
structure Coordinate where
  id : String
  version : String
  deriving DecidableEq, Repr

/-- A plugin's own description. -/
structure Descriptor where
  id : String
  version : String
  dependencies : List Dependency := []
  since : Option HostVersion := none
  untilVersion : Option HostVersion := none
  extensions : List String := []
  /-- The modules that the plugin has. -/
  modules : List String := []
  deriving DecidableEq, Repr

namespace Dependency

def display (d : Dependency) : String :=
  (if d.onModule then "module " else "plugin ") ++ d.id ++ if d.optional then " (optional)" else ""

def toJson (d : Dependency) : Json :=
  .obj ([("id", .str d.id), ("optional", .bool d.optional), ("module", .bool d.onModule)]
    ++ d.configFile.toList.map fun file => ("config_file", .str file))

/-- Reads a dependency; all but the id may be absent. -/
def read? {ν : Type} (r : Reading ν) (v : ν) : Option Dependency := do
  let fields ← r.record? ["id", "optional", "module", "config_file"] v
  return {
    id := ← Reading.required? r.text? fields "id"
    optional := ← Reading.defaulted? r.bool? false fields "optional"
    onModule := ← Reading.defaulted? r.bool? false fields "module"
    configFile := ← r.optional? r.text? fields "config_file" }

end Dependency

namespace Coordinate

def display (c : Coordinate) : String := c.id ++ ":" ++ c.version

def toJson (c : Coordinate) : Json := .obj [("id", .str c.id), ("version", .str c.version)]

/-- Plugins by their ids, and those of one id by the texts of their versions. -/
def le (a b : Coordinate) : Bool :=
  (compareOfLessAndEq a.id b.id).then (compareOfLessAndEq a.version b.version) != .gt

end Coordinate

/-- Why a descriptor is of no use. -/
inductive DescriptorFault where
  | emptyId
  | emptyVersion (id : String)
  | emptyRange (id : String) (since untilVersion : HostVersion)
  deriving DecidableEq, Repr

def DescriptorFault.message : DescriptorFault → String
  | .emptyId => "Invalid plugin descriptor: plugin id is empty"
  | .emptyVersion id => s!"Invalid plugin descriptor: plugin {id} has an empty version"
  | .emptyRange id since untilVersion =>
    s!"Invalid plugin descriptor: plugin {id} has since {since.display} after until "
      ++ untilVersion.display

namespace Descriptor

def coordinate (d : Descriptor) : Coordinate := ⟨d.id, d.version⟩

def providesModule (d : Descriptor) (module : String) : Bool := d.modules.contains module

/-- Tells whether a host lies in the plugin's range. -/
def isCompatibleWith (d : Descriptor) (host : HostVersion) : Bool :=
  host.isWithin d.since d.untilVersion

/-- The first thing that makes a descriptor useless. -/
def fault? (d : Descriptor) : Option DescriptorFault :=
  if (trim d.id).isEmpty then some .emptyId
  else if (trim d.version).isEmpty then some (.emptyVersion d.id)
  else
    match d.since, d.untilVersion with
    | some since, some untilVersion =>
      if since.le untilVersion then none else some (.emptyRange d.id since untilVersion)
    | _, _ => none

private def version? {ν : Type} (r : Reading ν) (v : ν) : Option HostVersion := do
  HostVersion.ofText? (← r.text? v)

/-- Reads a descriptor; the id and the version have to be there. -/
def read? {ν : Type} (r : Reading ν) (v : ν) : Option Descriptor := do
  let fields ← r.record?
    ["id", "version", "dependencies", "since", "until", "extensions", "modules"] v
  return {
    id := ← Reading.required? r.text? fields "id"
    version := ← Reading.required? r.text? fields "version"
    dependencies := ← Reading.defaulted? (r.list? (Dependency.read? r)) [] fields "dependencies"
    since := ← r.optional? (version? r) fields "since"
    untilVersion := ← r.optional? (version? r) fields "until"
    extensions := ← Reading.defaulted? r.texts? [] fields "extensions"
    modules := ← Reading.defaulted? r.texts? [] fields "modules" }

/-- What is wrong with a value that is no descriptor. -/
private def misfit (json : Json) : JsonError :=
  match json with
  | .obj members =>
    match ["id", "version"].find? fun name => (members.lookup name).isNone with
    | some name => .missingField name
    | none => .unlike
  | _ => .unlike

def ofJson (text : String) : Except JsonFault Descriptor := do
  let json ← Json.parse text
  match read? Json.reading json with
  | some d => return d
  | none => throw (Json.faultAtEnd text (misfit json))

def ofJson? (text : String) : Option Descriptor := (ofJson text).toOption

def ofYaml? (text : String) : Option Descriptor := do
  read? Yaml.View.reading (← Yaml.View.ofText? text)

def toJson (d : Descriptor) : Json :=
  .obj ([("id", .str d.id), ("version", .str d.version),
      ("dependencies", .arr (d.dependencies.map Dependency.toJson))]
    ++ d.since.toList.map (fun v => ("since", .str v.display))
    ++ d.untilVersion.toList.map (fun v => ("until", .str v.display))
    ++ [("extensions", .strs d.extensions), ("modules", .strs d.modules)])

end Descriptor
end Linkage

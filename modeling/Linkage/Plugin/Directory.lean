import Linkage.Classpath.Directory
import Linkage.Plugin.Descriptor

/-! Plugins, and the directories that hold them. -/
namespace Linkage

/-- A plugin: what it says about itself, its classes, and its directory if it comes from one. -/
structure Plugin where
  descriptor : Descriptor
  classes : Classpath
  directory : Option String := none

def Plugin.id (p : Plugin) : String := p.descriptor.id

def Plugin.coordinate (p : Plugin) : Coordinate := p.descriptor.coordinate

/-- Why a file is no descriptor. -/
inductive DescriptorFileFault where
  | notUtf8
  | notJson (fault : JsonFault)
  | notYaml

def DescriptorFileFault.message : DescriptorFileFault → String
  | .notUtf8 => "stream did not contain valid UTF-8"
  | .notJson fault => fault.message
  | .notYaml => "invalid YAML"

/-- Why there is no plugin in a directory. -/
inductive PluginFault where
  | noDescriptor (directory : String)
  | unreadable (path : String) (fault : DescriptorFileFault)
  | invalid (fault : DescriptorFault)
  | noClasses (fault : Classpath.NotADirectory)

def PluginFault.message : PluginFault → String
  | .noDescriptor directory => s!"Plugin descriptor not found in {directory}"
  | .unreadable path fault => s!"Descriptor parse error in {path}: {fault.message}"
  | .invalid fault => fault.message
  | .noClasses fault => fault.message

/-- The names under which a descriptor is looked for. -/
def descriptorFiles : List String := ["plugin.json", "plugin.yaml", "plugin.yml"]

/-- The name of a directory of classes. -/
def classesDirectory : String := "classes"

/-- Reads a descriptor from a file whose name tells the language. -/
def Descriptor.inFile (tree : FileTree) (path : String) : Except DescriptorFileFault Descriptor :=
  match tree.text? path with
  | none => .error .notUtf8
  | some text =>
    if (Path.splitExtension path).2 = some "json" then (ofJson text).mapError .notJson
    else
      match ofYaml? text with
      | some d => .ok d
      | none => .error .notYaml

/-- Reads the descriptor in a directory. -/
def Descriptor.inDirectory (tree : FileTree) (directory : String) : Except PluginFault Descriptor :=
  match (descriptorFiles.map (Path.join directory)).find? tree.isFile with
  | none => .error (.noDescriptor directory)
  | some path =>
    match inFile tree path with
    | .error fault => .error (.unreadable path fault)
    | .ok descriptor =>
      match descriptor.fault? with
      | some fault => .error (.invalid fault)
      | none => .ok descriptor

/-- Reads the plugin in a directory; it may have no classes. -/
def Plugin.inDirectory (tree : FileTree) (directory : String) : Except PluginFault Plugin := do
  let descriptor ← Descriptor.inDirectory tree directory
  let path := Path.join directory classesDirectory
  let classes ←
    if tree.isDirectory path then (Classpath.openDirectory tree path).mapError .noClasses
    else .ok .empty
  return ⟨descriptor, classes, some directory⟩

end Linkage

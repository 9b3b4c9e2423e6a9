import Linkage.Class.Access
import Linkage.Class.Instruction

/-! Classes and their members, as far as linking looks at them. -/
namespace Linkage

/-- A declared field. -/
structure Field where
  name : String
  descriptor : String
  access : AccessFlags
  deriving DecidableEq, Repr

/-- A declared method and the references its body makes. -/
structure Method where
  name : String
  descriptor : String
  access : AccessFlags
  instructions : List Instruction := []
  deriving DecidableEq, Repr

namespace Method

/-- Instance and class initialisers. -/
def isInitializer (m : Method) : Bool := m.name == "<init>" || m.name == "<clinit>"

/-- Name and descriptor in one, which labels a method inside its class. -/
def signature (m : Method) : String := m.name ++ m.descriptor

end Method

/-- A class or an interface. -/
structure ClassFile where
  name : String
  superName : Option String
  interfaces : List String := []
  access : AccessFlags := ⟨0x21⟩
  majorVersion : UInt16 := 52
  fields : List Field := []
  methods : List Method := []
  nestHost : Option String := none
  nestMembers : List String := []
  deriving DecidableEq, Repr

namespace ClassFile

def package (c : ClassFile) : String := ClassName.package c.name

def isInterface (c : ClassFile) : Bool := c.access.isInterface
def isAbstract (c : ClassFile) : Bool := c.access.isAbstract
def isPublic (c : ClassFile) : Bool := c.access.isPublic

/-- The nest a class belongs to: its host's, or its own. -/
def nest (c : ClassFile) : String := c.nestHost.getD c.name

def isNestmateOf (c d : ClassFile) : Bool := c.nest == d.nest

/-- The declared supertypes, the superclass before the interfaces. -/
def supertypes (c : ClassFile) : List String := c.superName.toList ++ c.interfaces

/-- The first declared method with this name and descriptor. -/
def method? (c : ClassFile) (name descriptor : String) : Option Method :=
  c.methods.find? fun m => m.name == name && m.descriptor == descriptor

/-- The first declared field with this name and descriptor. -/
def field? (c : ClassFile) (name descriptor : String) : Option Field :=
  c.fields.find? fun f => f.name == name && f.descriptor == descriptor

/-- The superclass of a class that names none. -/
def defaultSuper (name : String) : Option String :=
  if name = ClassName.object then none else some ClassName.object

end ClassFile
end Linkage

import Linkage.Class.Basic
import Linkage.Data.Json

/-! Class models as JSON. -/
namespace Linkage

def MemberRef.toJson (m : MemberRef) : Json := .strs [m.owner, m.name, m.descriptor]

def MemberRef.ofJson (j : Json) : MemberRef := ⟨j.stringAt 0, j.stringAt 1, j.stringAt 2⟩

def AccessFlags.ofNat (n : Nat) : AccessFlags := ⟨UInt16.ofNat n⟩

def AccessFlags.toJson (a : AccessFlags) : Json := .nat a.bits.toNat

/-- What the flags say. -/
def AccessFlags.details (a : AccessFlags) : List (String × Json) :=
  [("public", .bool a.isPublic), ("private", .bool a.isPrivate), ("protected", .bool a.isProtected),
    ("package_private", .bool a.isPackagePrivate), ("static", .bool a.isStatic),
    ("final", .bool a.isFinal), ("abstract", .bool a.isAbstract), ("interface", .bool a.isInterface)]

/-- A reference, named for its kind. -/
def Reference.toMember : Reference → String × Json
  | .type n => ("class", .str n)
  | .method m => ("method", m.toJson)
  | .field m => ("field", m.toJson)

def Instruction.toJson (i : Instruction) : Json :=
  .obj [("op", .str i.kind.mnemonic), i.reference.toMember, ("at", .nat i.offset.toNat),
    ("itf", .bool i.interfaceOwner)]

/-- The kind of that mnemonic; any other text loads a constant. -/
def InstructionKind.ofName (mnemonic : String) : InstructionKind :=
  (ofMnemonic? mnemonic).getD .loadConstant

def Instruction.ofJson (j : Json) : Instruction :=
  let ref : Reference := match j.field "class", j.field "method" with
    | .str n, _ => .type n
    | _, .arr m => .method (.ofJson (.arr m))
    | _, _ => .field (.ofJson (j.field "field"))
  let i := Instruction.of (.ofName (j.text "op" "")) ref (.ofNat (j.number "at" 0))
  match j.field "itf" with
  | .bool b => { i with interfaceOwner := b }
  | _ => i

def Field.toJson (f : Field) : Json := .arr [.str f.name, .str f.descriptor, f.access.toJson]

def Field.ofJson (j : Json) : Field :=
  ⟨j.stringAt 0, j.stringAt 1, .ofNat ((j.item 2).asInt?.elim 1 Int.toNat)⟩

def Method.toJson (m : Method) : Json :=
  .obj [("name", .str m.name), ("desc", .str m.descriptor), ("access", m.access.toJson),
    ("code", .ofList Instruction.toJson m.instructions)]

def Method.ofJson (j : Json) : Method :=
  ⟨j.text "name" "", j.text "desc" "", .ofNat (j.number "access" 1),
    (j.list "code").map Instruction.ofJson⟩

namespace ClassFile

def toJson (c : ClassFile) : Json :=
  .obj [("name", .str c.name), ("super", .str? c.superName), ("interfaces", .strs c.interfaces),
    ("access", c.access.toJson), ("major", .nat c.majorVersion.toNat),
    ("fields", .ofList Field.toJson c.fields), ("methods", .ofList Method.toJson c.methods),
    ("nest_host", .str? c.nestHost), ("nest_members", .strs c.nestMembers)]

/-- A class of which only the name has to be given: it is public, and its superclass is the usual
one. -/
def ofJson (j : Json) : ClassFile :=
  let name := j.text "name" ""
  { name
    superName := match j.get? "super" with
      | some (.str s) => some s
      | some _ => none
      | none => defaultSuper name
    interfaces := (j.field "interfaces").strings
    access := .ofNat (j.number "access" 33)
    majorVersion := UInt16.ofNat (j.number "major" 52)
    fields := (j.list "fields").map Field.ofJson
    methods := (j.list "methods").map Method.ofJson
    nestHost := (j.field "nest_host").asStr?
    nestMembers := (j.field "nest_members").strings }

end ClassFile
end Linkage

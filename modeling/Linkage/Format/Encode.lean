import Linkage.Class.Basic
import Linkage.Format.Decode

/-! Classes to class files, each constant written once. -/
namespace Linkage.Format

/-- A constant by what it stands for. -/
inductive PoolKey where
  | utf8 (text : String)
  | type (name : String)
  | nameAndType (name descriptor : String)
  | member (kind : MemberKind) (ref : MemberRef)
  deriving DecidableEq, Repr

/-- The constants written so far: the first one has index 1. -/
structure PoolBuilder where
  keys : List PoolKey := []

namespace PoolBuilder

/-- The index of a constant; that of an absent one is past the end. -/
def indexOf (pool : PoolBuilder) (key : PoolKey) : UInt16 :=
  UInt16.ofNat (pool.keys.idxOf key + 1)

def add (pool : PoolBuilder) (key : PoolKey) : PoolBuilder :=
  if key ∈ pool.keys then pool else ⟨pool.keys ++ [key]⟩

/-- Adds a constant after the constants that it refers to; one that is there stays in its place. -/
def intern (pool : PoolBuilder) : PoolKey → PoolBuilder
  | .utf8 text => pool.add (.utf8 text)
  | .type name => if .type name ∈ pool.keys then pool else (pool.add (.utf8 name)).add (.type name)
  | .nameAndType name descriptor =>
    if .nameAndType name descriptor ∈ pool.keys then pool
    else ((pool.add (.utf8 name)).add (.utf8 descriptor)).add (.nameAndType name descriptor)
  | .member kind ref =>
    if .member kind ref ∈ pool.keys then pool
    else
      let pool := if .type ref.owner ∈ pool.keys then pool
        else (pool.add (.utf8 ref.owner)).add (.type ref.owner)
      let pool := if .nameAndType ref.name ref.descriptor ∈ pool.keys then pool
        else ((pool.add (.utf8 ref.name)).add (.utf8 ref.descriptor)).add
          (.nameAndType ref.name ref.descriptor)
      pool.add (.member kind ref)

/-- The bytes of one constant of the pool. -/
def entry (pool : PoolBuilder) : PoolKey → List UInt8
  | .utf8 text =>
    let bytes := ModifiedUtf8.encode text
    1 :: toBigEndian 2 bytes.length ++ bytes
  | .type name => 7 :: toBigEndian 2 (pool.indexOf (.utf8 name)).toNat
  | .nameAndType name descriptor =>
    12 :: toBigEndian 2 (pool.indexOf (.utf8 name)).toNat
      ++ toBigEndian 2 (pool.indexOf (.utf8 descriptor)).toNat
  | .member kind ref =>
    (match kind with | .field => 9 | .method => 10 | .interfaceMethod => 11)
      :: toBigEndian 2 (pool.indexOf (.type ref.owner)).toNat
      ++ toBigEndian 2 (pool.indexOf (.nameAndType ref.name ref.descriptor)).toNat

/-- The number of slots, slot zero included, and all constants. -/
def bytes (pool : PoolBuilder) : List UInt8 :=
  toBigEndian 2 (pool.keys.length + 1) ++ pool.keys.flatMap pool.entry

end PoolBuilder

/-- A part of a class file that writes constants on its way. -/
abbrev Encoder := StateM PoolBuilder

/-- The two bytes of a constant's index. -/
def writeIndex (key : PoolKey) : Encoder (List UInt8) := do
  modify (·.intern key)
  return toBigEndian 2 ((← get).indexOf key).toNat

/-- The bytes of all elements, one after the other. -/
def writeAll {α : Type} (write : α → Encoder (List UInt8)) : List α → Encoder (List UInt8)
  | [] => return []
  | a :: as => return (← write a) ++ (← writeAll write as)

/-- The constant that an instruction refers to. -/
def instructionKey (i : Instruction) : PoolKey :=
  match i.reference with
  | .type name => .type name
  | .field m => .member .field m
  | .method m => .member (if i.interfaceOwner then .interfaceMethod else .method) m

def writeInstruction (i : Instruction) : Encoder (List UInt8) := do
  let index ← writeIndex (instructionKey i)
  return i.kind.opcode :: index ++
    (match i.kind with | .invokeInterface => [1, 0] | .newMultiArray => [1] | _ => [])

/-- A name, the length of the body and the body. -/
def attributeBytes (name body : List UInt8) : List UInt8 :=
  name ++ toBigEndian 4 body.length ++ body

/-- The body of a `Code` attribute: stack and locals, the code with a return at its end, no handlers
and no attributes. -/
def codeBody (instructions : List UInt8) : List UInt8 :=
  toBigEndian 2 16 ++ toBigEndian 2 16 ++ toBigEndian 4 (instructions.length + 1)
    ++ instructions ++ [0xB1, 0, 0, 0, 0]

def writeField (f : Field) : Encoder (List UInt8) := do
  let name ← writeIndex (.utf8 f.name)
  let descriptor ← writeIndex (.utf8 f.descriptor)
  return toBigEndian 2 f.access.bits.toNat ++ name ++ descriptor ++ [0, 0]

def writeMethod (m : Method) : Encoder (List UInt8) := do
  let name ← writeIndex (.utf8 m.name)
  let descriptor ← writeIndex (.utf8 m.descriptor)
  let head := toBigEndian 2 m.access.bits.toNat ++ name ++ descriptor
  if m.access.hasNoBody then return head ++ [0, 0]
  let code ← writeAll writeInstruction m.instructions
  let codeName ← writeIndex (.utf8 "Code")
  return head ++ [0, 1] ++ attributeBytes codeName (codeBody code)

/-- The number of elements in two bytes, and their bytes. -/
def writeTable {α : Type} (write : α → Encoder (List UInt8)) (as : List α) :
    Encoder (List UInt8) :=
  return toBigEndian 2 as.length ++ (← writeAll write as)

def writeTypeName (name : String) : Encoder (List UInt8) := writeIndex (.type name)

/-- The attributes of a class: at most one for its host and one for its members. -/
def writeNest (c : ClassFile) : Encoder (List (List UInt8)) := do
  let host ← match c.nestHost with
    | none => pure []
    | some host =>
      let name ← writeIndex (.utf8 "NestHost")
      pure [attributeBytes name (← writeTypeName host)]
  let members ←
    if c.nestMembers.isEmpty then pure []
    else
      let name ← writeIndex (.utf8 "NestMembers")
      pure [attributeBytes name (← writeTable writeTypeName c.nestMembers)]
  return host ++ members

/-- Everything after the constant pool. -/
def writeBody (c : ClassFile) : Encoder (List UInt8) := do
  let name ← writeTypeName c.name
  let superName ← match c.superName with
    | none => pure [0, 0]
    | some s => writeTypeName s
  let interfaces ← writeTable writeTypeName c.interfaces
  let fields ← writeTable writeField c.fields
  let methods ← writeTable writeMethod c.methods
  let nest ← writeNest c
  return toBigEndian 2 c.access.bits.toNat ++ name ++ superName ++ interfaces ++ fields ++ methods
    ++ toBigEndian 2 nest.length ++ nest.flatten

def encodeClass (c : ClassFile) : List UInt8 :=
  let (body, pool) := (writeBody c).run {}
  toBigEndian 4 magic.toNat ++ [0, 0] ++ toBigEndian 2 c.majorVersion.toNat ++ pool.bytes ++ body

end Linkage.Format

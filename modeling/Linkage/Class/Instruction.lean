import Linkage.Class.Name

/-! Symbolic references and the instructions that carry them. -/
namespace Linkage

/-- A field or method as bytecode names it: owner, name and descriptor. -/
structure MemberRef where
  owner : String
  name : String
  descriptor : String
  deriving DecidableEq, Repr, Hashable

namespace MemberRef

def displayMethod (m : MemberRef) : String :=
  s!"{ClassName.display m.owner}.{m.name}{m.descriptor}"

def displayField (m : MemberRef) : String :=
  s!"{ClassName.display m.owner}.{m.name} : {m.descriptor}"

def isConstructor (m : MemberRef) : Bool := m.name == "<init>"

end MemberRef

/-- What an instruction refers to. -/
inductive Reference where
  | type (name : String)
  | method (member : MemberRef)
  | field (member : MemberRef)
  deriving DecidableEq, Repr, Hashable

def Reference.display : Reference → String
  | .type name => ClassName.display name
  | .method m => m.displayMethod
  | .field m => m.displayField

/-- The instructions that carry a symbolic reference. -/
inductive InstructionKind where
  | getStatic | putStatic | getField | putField
  | invokeVirtual | invokeSpecial | invokeStatic | invokeInterface
  | newObject | newArray | checkCast | instanceOf | newMultiArray | loadConstant
  deriving DecidableEq, Repr, Hashable

namespace InstructionKind

def all : List InstructionKind :=
  [.getStatic, .putStatic, .getField, .putField, .invokeVirtual, .invokeSpecial, .invokeStatic,
    .invokeInterface, .newObject, .newArray, .checkCast, .instanceOf, .newMultiArray, .loadConstant]

def mnemonic : InstructionKind → String
  | .getStatic => "getstatic"
  | .putStatic => "putstatic"
  | .getField => "getfield"
  | .putField => "putfield"
  | .invokeVirtual => "invokevirtual"
  | .invokeSpecial => "invokespecial"
  | .invokeStatic => "invokestatic"
  | .invokeInterface => "invokeinterface"
  | .newObject => "new"
  | .newArray => "anewarray"
  | .checkCast => "checkcast"
  | .instanceOf => "instanceof"
  | .newMultiArray => "multianewarray"
  | .loadConstant => "ldc"

def ofMnemonic? (text : String) : Option InstructionKind := all.find? (·.mnemonic == text)

/-- The operation code that is written; constants are always loaded through a wide index. -/
def opcode : InstructionKind → UInt8
  | .getStatic => 0xB2
  | .putStatic => 0xB3
  | .getField => 0xB4
  | .putField => 0xB5
  | .invokeVirtual => 0xB6
  | .invokeSpecial => 0xB7
  | .invokeStatic => 0xB8
  | .invokeInterface => 0xB9
  | .newObject => 0xBB
  | .newArray => 0xBD
  | .checkCast => 0xC0
  | .instanceOf => 0xC1
  | .newMultiArray => 0xC5
  | .loadConstant => 0x13

/-- The kind an operation code stands for; constants also have a code with a narrow index. -/
def ofOpcode? (code : UInt8) : Option InstructionKind :=
  if code = 0x12 then some .loadConstant else all.find? (·.opcode == code)

def isFieldAccess : InstructionKind → Bool
  | .getStatic | .putStatic | .getField | .putField => true
  | _ => false

def isStaticFieldAccess : InstructionKind → Bool
  | .getStatic | .putStatic => true
  | _ => false

def isInvocation : InstructionKind → Bool
  | .invokeVirtual | .invokeSpecial | .invokeStatic | .invokeInterface => true
  | _ => false

end InstructionKind

/-- An instruction at its offset in the code, which is kept in 32 bits. -/
structure Instruction where
  offset : UInt32
  kind : InstructionKind
  reference : Reference
  /-- The method is referred to as a member of an interface. -/
  interfaceOwner : Bool
  deriving DecidableEq, Repr

namespace Instruction

/-- An instruction by itself: only a method called through an interface has an interface owner. -/
def of (kind : InstructionKind) (reference : Reference) (offset : UInt32) : Instruction where
  offset := offset
  kind := kind
  reference := reference
  interfaceOwner :=
    match reference with
    | .method _ => kind == .invokeInterface
    | _ => false

/-- The kind of instruction takes the kind of reference, and only methods have interface owners. -/
def Fits (i : Instruction) : Prop :=
  match i.reference with
  | .type _ => i.kind.isFieldAccess = false ∧ i.kind.isInvocation = false ∧ i.interfaceOwner = false
  | .field _ => i.kind.isFieldAccess = true ∧ i.interfaceOwner = false
  | .method _ => i.kind.isInvocation = true

instance (i : Instruction) : Decidable i.Fits := by
  unfold Fits; split <;> infer_instance

/-- Bytes the instruction takes when it is written. -/
def size (i : Instruction) : Nat :=
  match i.kind with
  | .invokeInterface => 5
  | .newMultiArray => 4
  | _ => 3

end Instruction
end Linkage

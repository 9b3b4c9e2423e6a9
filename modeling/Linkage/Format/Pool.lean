import Linkage.Format.Cursor

/-! The constant pool: the numbered strings, names and references of a class file. -/
namespace Linkage.Format

/-- One slot of a constant pool. -/
inductive Constant where
  | utf8 (text : String)
  | integer (value : Int32)
  | float (bits : UInt32)
  | long (value : Int64)
  | double (bits : UInt64)
  | type (name : UInt16)
  | string (text : UInt16)
  | fieldRef (owner nameAndType : UInt16)
  | methodRef (owner nameAndType : UInt16)
  | interfaceMethodRef (owner nameAndType : UInt16)
  | nameAndType (name descriptor : UInt16)
  | methodHandle (kind : UInt8) (reference : UInt16)
  | methodType (descriptor : UInt16)
  | dynamic (bootstrap nameAndType : UInt16)
  | invokeDynamic (bootstrap nameAndType : UInt16)
  | module (name : UInt16)
  | package (name : UInt16)
  /-- Slot zero, and the second slot of a long or a double. -/
  | unusable
  deriving DecidableEq, Repr

namespace Constant

/-- The name of the constant's type. -/
def tagName : Constant → String
  | .utf8 _ => "Utf8"
  | .integer _ => "Integer"
  | .float _ => "Float"
  | .long _ => "Long"
  | .double _ => "Double"
  | .type _ => "Class"
  | .string _ => "String"
  | .fieldRef .. => "Fieldref"
  | .methodRef .. => "Methodref"
  | .interfaceMethodRef .. => "InterfaceMethodref"
  | .nameAndType .. => "NameAndType"
  | .methodHandle .. => "MethodHandle"
  | .methodType _ => "MethodType"
  | .dynamic .. => "Dynamic"
  | .invokeDynamic .. => "InvokeDynamic"
  | .module _ => "Module"
  | .package _ => "Package"
  | .unusable => "unusable slot"

/-- Longs and doubles take two slots. -/
def isWide : Constant → Bool
  | .long _ | .double _ => true
  | _ => false

/-- Reads the constant that is numbered `index`. -/
def read (index : Nat) : Decoder Constant := do
  let tag ← readU8
  match tag.toNat with
  | 1 =>
    let length ← readU16
    match ModifiedUtf8.decode (← takeBytes length.toNat) with
    | .ok text => return .utf8 text
    | .error fault => throw (.invalidText fault)
  | 3 => return .integer (← readI32)
  | 4 => return .float (← readU32)
  | 5 => return .long (← readU64).toInt64
  | 6 => return .double (← readU64)
  | 7 => return .type (← readU16)
  | 8 => return .string (← readU16)
  | 9 => return .fieldRef (← readU16) (← readU16)
  | 10 => return .methodRef (← readU16) (← readU16)
  | 11 => return .interfaceMethodRef (← readU16) (← readU16)
  | 12 => return .nameAndType (← readU16) (← readU16)
  | 15 => return .methodHandle (← readU8) (← readU16)
  | 16 => return .methodType (← readU16)
  | 17 => return .dynamic (← readU16) (← readU16)
  | 18 => return .invokeDynamic (← readU16) (← readU16)
  | 19 => return .module (← readU16)
  | 20 => return .package (← readU16)
  | _ => throw (.unknownTag tag index)

end Constant

/-- A constant pool, slot zero included. -/
structure Pool where
  slots : Array Constant
  deriving Repr

namespace Pool

/-- Reads constants into the `free` slots that are left. Both slots of a wide constant have to be
free. -/
def readSlots : (free : Nat) → (slots : Array Constant) → Decoder (Array Constant)
  | 0, slots => return slots
  | 1, slots => do
    let constant ← Constant.read slots.size
    if constant.isWide then throw (.badIndex (UInt16.ofNat slots.size))
    return slots.push constant
  | free + 2, slots => do
    let constant ← Constant.read slots.size
    if constant.isWide then readSlots free ((slots.push constant).push .unusable)
    else readSlots (free + 1) (slots.push constant)

/-- Reads the number of slots and the constants that fill them. -/
def read : Decoder Pool := do
  let count ← readU16
  return ⟨← readSlots (count.toNat - 1) #[.unusable]⟩

def size (pool : Pool) : Nat := pool.slots.size

def isEmpty (pool : Pool) : Bool := pool.slots.size ≤ 1

/-- The constant at an index, which has to be a usable slot. -/
def get (pool : Pool) (index : UInt16) : Except Fault Constant :=
  match pool.slots[index.toNat]? with
  | none | some .unusable => .error (.badIndex index)
  | some constant => .ok constant

def utf8 (pool : Pool) (index : UInt16) : Except Fault String := do
  match ← pool.get index with
  | .utf8 text => return text
  | other => throw (.wrongConstant index "Utf8" other.tagName)

/-- The name in a class constant. -/
def typeName (pool : Pool) (index : UInt16) : Except Fault String := do
  match ← pool.get index with
  | .type name => pool.utf8 name
  | other => throw (.wrongConstant index "Class" other.tagName)

def nameAndType (pool : Pool) (index : UInt16) : Except Fault (String × String) := do
  match ← pool.get index with
  | .nameAndType name descriptor => return (← pool.utf8 name, ← pool.utf8 descriptor)
  | other => throw (.wrongConstant index "NameAndType" other.tagName)

end Pool

/-- What a member constant stands for. -/
inductive MemberKind where
  | field | method | interfaceMethod
  deriving DecidableEq, Repr, Hashable

namespace Pool

/-- The member that a field or method constant refers to. -/
def member (pool : Pool) (index : UInt16) : Except Fault (MemberKind × MemberRef) := do
  let (kind, owner, nameAndType) ←
    match ← pool.get index with
    | .fieldRef owner nat => pure (MemberKind.field, owner, nat)
    | .methodRef owner nat => pure (MemberKind.method, owner, nat)
    | .interfaceMethodRef owner nat => pure (MemberKind.interfaceMethod, owner, nat)
    | other => throw (.wrongConstant index "member reference" other.tagName)
  let owner ← pool.typeName owner
  let (name, descriptor) ← pool.nameAndType nameAndType
  return (kind, ⟨owner, name, descriptor⟩)

end Pool
end Linkage.Format

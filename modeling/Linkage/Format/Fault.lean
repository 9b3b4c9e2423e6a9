import Linkage.Class.Instruction
import Linkage.Text.ModifiedUtf8

/-! What can be wrong with the bytes of a class file. -/
namespace Linkage.Format

/-- What can be wrong with the code of one method. -/
inductive CodeFault where
  | fieldTarget (kind : InstructionKind) (offset : Nat)
  | methodTarget (kind : InstructionKind) (offset : Nat)
  | reversedTable (offset : Nat)
  | negativePairs (offset : Nat)
  | unknownOpcode (code : UInt8) (offset : Nat)
  deriving DecidableEq, Repr

def CodeFault.message : CodeFault → String
  | .fieldTarget kind offset => s!"{kind.mnemonic} at {offset} references a field"
  | .methodTarget kind offset => s!"{kind.mnemonic} at {offset} references a method"
  | .reversedTable offset => s!"tableswitch at {offset} has high < low"
  | .negativePairs offset => s!"lookupswitch at {offset} has negative npairs"
  | .unknownOpcode code offset => s!"unknown opcode 0x{Hex.padded 2 code.toNat} at {offset}"

/-- Why a byte string is no class file. -/
inductive Fault where
  | badMagic (magic : UInt32)
  | unexpectedEnd (offset needed : Nat)
  | badIndex (index : UInt16)
  | wrongConstant (index : UInt16) (expected found : String)
  | unknownTag (tag : UInt8) (index : Nat)
  | malformedCode (method : String) (fault : CodeFault)
  | invalidText (fault : ModifiedUtf8.Fault)
  deriving DecidableEq, Repr

def Fault.message : Fault → String
  | .badMagic magic => s!"Invalid class file magic: 0x{Hex.padded 8 magic.toNat}"
  | .unexpectedEnd offset needed =>
    s!"Unexpected end of class data at offset {offset} ({needed} more bytes needed)"
  | .badIndex index => s!"Invalid constant pool index {index.toNat}"
  | .wrongConstant index expected found =>
    s!"Constant pool entry {index.toNat} is {found}, expected {expected}"
  | .unknownTag tag index => s!"Unknown constant pool tag {tag.toNat} at index {index}"
  | .malformedCode method fault => s!"Malformed code in method {method}: {fault.message}"
  | .invalidText fault => s!"Invalid modified UTF-8 string: {fault.message}"

end Linkage.Format

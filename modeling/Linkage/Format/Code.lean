import Linkage.Format.Pool

/-! Method bodies: the instructions that refer to something, found among all others. -/
namespace Linkage.Format

/-- The bytes of operands of an instruction of fixed length that refers to nothing the checks
look at. -/
def plainOperands (code : UInt8) : Option Nat :=
  let code := code.toNat
  if code ≤ 0x0F then some 0
  else if code = 0x10 then some 1
  else if code = 0x11 || code = 0x14 then some 2
  else if 0x15 ≤ code && code ≤ 0x19 then some 1
  else if 0x1A ≤ code && code ≤ 0x35 then some 0
  else if 0x36 ≤ code && code ≤ 0x3A then some 1
  else if 0x3B ≤ code && code ≤ 0x83 then some 0
  else if code = 0x84 then some 2
  else if 0x85 ≤ code && code ≤ 0x98 then some 0
  else if 0x99 ≤ code && code ≤ 0xA8 then some 2
  else if code = 0xA9 then some 1
  else if 0xAC ≤ code && code ≤ 0xB1 then some 0
  else if code = 0xBA then some 4
  else if code = 0xBC then some 1
  else if code = 0xBE || code = 0xBF || code = 0xC2 || code = 0xC3 then some 0
  else if code = 0xC6 || code = 0xC7 then some 2
  else if code = 0xC8 || code = 0xC9 then some 4
  else if code = 0xCA || code = 0xFE || code = 0xFF then some 0
  else none

/-- Bytes between a switch at `offset` and the next multiple of four. -/
def padding (offset : Nat) : Nat := (4 - (offset + 1) % 4) % 4

/-- What an instruction's code says about the operands after it. -/
inductive Operands where
  /-- A constant by narrow or wide index; only a class constant is a reference. -/
  | constant (wide : Bool)
  | member (kind : InstructionKind)
  /-- A class, and some bytes after its index. -/
  | type (kind : InstructionKind) (extra : Nat)
  | tableSwitch
  | lookupSwitch
  | widened
  | plain (length : Nat)

def Operands.of? (code : UInt8) : Option Operands :=
  match code.toNat with
  | 0x12 => some (.constant false)
  | 0x13 => some (.constant true)
  | 0xAA => some .tableSwitch
  | 0xAB => some .lookupSwitch
  | 0xC4 => some .widened
  | _ =>
    match InstructionKind.ofOpcode? code with
    | some .newMultiArray => some (.type .newMultiArray 1)
    | some kind =>
      if kind.isFieldAccess || kind.isInvocation then some (.member kind) else some (.type kind 0)
    | none => (plainOperands code).map .plain

/-- Reads the operands of the instruction at `offset` and keeps its reference. -/
def Operands.read (pool : Pool) (method : String) (offset : Nat) :
    Operands → Decoder (Option Instruction)
  | .constant wide => do
    let index ← if wide then readU16 else UInt8.toUInt16 <$> readU8
    match ← pool.get index with
    | .type _ => return some (.of .loadConstant (.type (← pool.typeName index)) (.ofNat offset))
    | _ => return none
  | .member kind => do
    let index ← readU16
    if kind = .invokeInterface then skip 2
    match ← pool.member index with
    | (.field, m) =>
      unless kind.isFieldAccess do throw (.malformedCode method (.fieldTarget kind offset))
      return some (.of kind (.field m) (.ofNat offset))
    | (owner, m) =>
      unless kind.isInvocation do throw (.malformedCode method (.methodTarget kind offset))
      return some ⟨.ofNat offset, kind, .method m, owner == .interfaceMethod⟩
  | .type kind extra => do
    let index ← readU16
    skip extra
    return some (.of kind (.type (← pool.typeName index)) (.ofNat offset))
  | .tableSwitch => do
    skip (padding offset)
    skip 4
    let low ← readI32
    let high ← readI32
    if high < low then throw (.malformedCode method (.reversedTable offset))
    skip ((high.toInt - low.toInt + 1).toNat * 4)
    return none
  | .lookupSwitch => do
    skip (padding offset)
    skip 4
    let pairs ← readI32
    if pairs < 0 then throw (.malformedCode method (.negativePairs offset))
    skip (pairs.toInt.toNat * 8)
    return none
  | .widened => do
    let code ← readU8
    skip (if code = 0x84 then 4 else 2)
    return none
  | .plain length => do
    skip length
    return none

/-- Reads one instruction. -/
def readInstruction (pool : Pool) (method : String) : Decoder (Option Instruction) := do
  let offset := (← get).position
  let code ← readU8
  match Operands.of? code with
  | some operands => operands.read pool method offset
  | none => throw (.malformedCode method (.unknownOpcode code offset))

/-- Reads instructions up to the end, at most `fuel` of them. -/
def readInstructions (pool : Pool) (method : String) : (fuel : Nat) → Decoder (List Instruction)
  | 0 => return []
  | fuel + 1 => do
    if (← get).rest.isEmpty then return []
    let instruction ← readInstruction pool method
    return instruction.toList ++ (← readInstructions pool method fuel)

/-- The referring instructions of a method body. Every instruction takes a byte at least, so there
are no more of them than bytes. -/
def decodeCode (code : List UInt8) (pool : Pool) (method : String) :
    Except Fault (List Instruction) :=
  Prod.fst <$> readInstructions pool method code.length (.start code)

end Linkage.Format

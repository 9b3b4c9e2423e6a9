import Linkage.Class.Basic
import Linkage.Format.Code

/-! Class files to classes. -/
namespace Linkage.Format

def magic : UInt32 := 0xCAFEBABE

/-- An attribute's name and its bytes. -/
def readAttribute (pool : Pool) : Decoder (String × List UInt8) := do
  let name ← pool.utf8 (← readU16)
  let length ← readU32
  return (name, ← takeBytes length.toNat)

/-- Passes over one attribute without a look at its name. -/
def skipAttribute : Decoder Unit := do
  skip 2
  skip (← readU32).toNat

def readField (pool : Pool) : Decoder Field := do
  let access ← readU16
  let name ← pool.utf8 (← readU16)
  let descriptor ← pool.utf8 (← readU16)
  let _ ← repeatDecoder skipAttribute (← readU16).toNat
  return ⟨name, descriptor, ⟨access⟩⟩

/-- The instructions in the body of a `Code` attribute. -/
def readCodeBody (pool : Pool) (method : String) : Decoder (List Instruction) := do
  skip 4
  let length ← readU32
  decodeCode (← takeBytes length.toNat) pool method

/-- Reads attributes of a method; of several bodies the last one counts. -/
def readMethodAttributes (pool : Pool) (method : String) :
    Nat → List Instruction → Decoder (List Instruction)
  | 0, instructions => return instructions
  | n + 1, instructions => do
    let (name, bytes) ← readAttribute pool
    if name = "Code" then
      readMethodAttributes pool method n (← (readCodeBody pool method).within bytes)
    else readMethodAttributes pool method n instructions

def readMethod (pool : Pool) : Decoder Method := do
  let access ← readU16
  let name ← pool.utf8 (← readU16)
  let descriptor ← pool.utf8 (← readU16)
  let instructions ← readMethodAttributes pool (name ++ descriptor) (← readU16).toNat []
  return ⟨name, descriptor, ⟨access⟩, instructions⟩

/-- What the attributes of a class say about its nest. -/
structure Nest where
  host : Option String := none
  members : List String := []

def readTypeName (pool : Pool) : Decoder String := do
  pool.typeName (← readU16)

/-- Reads attributes of a class; of several hosts the last one counts, members add up. -/
def readClassAttributes (pool : Pool) : Nat → Nest → Decoder Nest
  | 0, nest => return nest
  | n + 1, nest => do
    let (name, bytes) ← readAttribute pool
    if name = "NestHost" then
      let host ← (readTypeName pool).within bytes
      readClassAttributes pool n { nest with host := some host }
    else if name = "NestMembers" then
      let members ← Decoder.within (do repeatDecoder (readTypeName pool) (← readU16).toNat) bytes
      readClassAttributes pool n { nest with members := nest.members ++ members }
    else readClassAttributes pool n nest

/-- Reads a class file from its first byte. -/
def readClass : Decoder ClassFile := do
  let found ← readU32
  if found ≠ magic then throw (.badMagic found)
  let _minor ← readU16
  let major ← readU16
  let pool ← Pool.read
  let access ← readU16
  let name ← readTypeName pool
  let superIndex ← readU16
  let superName ← if superIndex = 0 then pure none else some <$> pool.typeName superIndex
  let interfaces ← repeatDecoder (readTypeName pool) (← readU16).toNat
  let fields ← repeatDecoder (readField pool) (← readU16).toNat
  let methods ← repeatDecoder (readMethod pool) (← readU16).toNat
  let nest ← readClassAttributes pool (← readU16).toNat {}
  return {
    name, superName, interfaces, access := ⟨access⟩, majorVersion := major, fields, methods
    nestHost := nest.host, nestMembers := nest.members }

/-- The class that a byte string starts with; bytes after it do not matter. -/
def decodeClass (bytes : List UInt8) : Except Fault ClassFile :=
  Prod.fst <$> readClass (.start bytes)

end Linkage.Format

import Linkage.Text.Hex
import Linkage.Text.Utf16

/-! The string form of class files: each 16-bit unit in one to three bytes, none of them zero. -/
namespace Linkage.ModifiedUtf8

/-- Why a byte string is no text. -/
inductive Fault where
  | rawNull (offset : Nat)
  | badContinuation (byte : UInt8) (offset : Nat)
  | truncated
  | unexpectedByte (byte : UInt8) (offset : Nat)
  | loneSurrogate
  deriving DecidableEq, Repr

def Fault.message : Fault → String
  | .rawNull offset => s!"raw null byte at {offset}"
  | .badContinuation byte offset =>
    s!"bad continuation byte 0x{Hex.padded 2 byte.toNat} at {offset}"
  | .truncated => "truncated multi-byte sequence"
  | .unexpectedByte byte offset => s!"unexpected byte 0x{Hex.padded 2 byte.toNat} at {offset}"
  | .loneSurrogate => "invalid utf-16: lone surrogate found"

/-- What the first byte of a group says: the whole unit, or its leading bits and the group's size. -/
inductive Lead where
  | null
  | single (unit : UInt16)
  | double (high : UInt16)
  | triple (high : UInt16)
  | unexpected

def lead (b : UInt8) : Lead :=
  if b &&& 0x80 == 0 then (if b == 0 then .null else .single b.toUInt16)
  else if b &&& 0xE0 == 0xC0 then .double (b &&& 0x1F).toUInt16
  else if b &&& 0xF0 == 0xE0 then .triple (b &&& 0x0F).toUInt16
  else .unexpected

/-- The six bits of a continuation byte. -/
def continuation (b : UInt8) (offset : Nat) : Except Fault UInt16 :=
  if b &&& 0xC0 == 0x80 then .ok (b &&& 0x3F).toUInt16 else .error (.badContinuation b offset)

/-- The units of the groups of a byte string whose first byte stands at `offset`. -/
def decodeUnits (offset : Nat) : List UInt8 → Except Fault (List UInt16)
  | [] => .ok []
  | b :: rest =>
    match lead b with
    | .null => .error (.rawNull offset)
    | .unexpected => .error (.unexpectedByte b offset)
    | .single u => do
      let us ← decodeUnits (offset + 1) rest
      return u :: us
    | .double high =>
      match rest with
      | [] => .error .truncated
      | b₂ :: rest => do
        let low ← continuation b₂ (offset + 1)
        let us ← decodeUnits (offset + 2) rest
        return (high <<< 6 ||| low) :: us
    | .triple high =>
      match rest with
      | [] => .error .truncated
      | [b₂] => do
        let _ ← continuation b₂ (offset + 1)
        .error .truncated
      | b₂ :: b₃ :: rest => do
        let mid ← continuation b₂ (offset + 1)
        let low ← continuation b₃ (offset + 2)
        let us ← decodeUnits (offset + 3) rest
        return (high <<< 12 ||| mid <<< 6 ||| low) :: us

/-- Decodes any byte string: groups to units, units to text. -/
def decodeGeneral (bytes : List UInt8) : Except Fault String := do
  let units ← decodeUnits 0 bytes
  match Utf16.decode units with
  | some text => .ok (String.ofList text)
  | none => .error .loneSurrogate

/-- A byte that is a character of its own. -/
def isPlain (b : UInt8) : Bool := b != 0 && b < 0x80

/-- Plain bytes are taken as they are, all else goes through the groups. -/
def decode (bytes : List UInt8) : Except Fault String :=
  if bytes.all isPlain then .ok (String.ofList (bytes.map fun b => Char.ofNat b.toNat))
  else decodeGeneral bytes

/-- One byte for 1 to 7F, two for 0 and up to 7FF, three for all else. -/
def encodeUnit (u : UInt16) : List UInt8 :=
  if 0x0001 ≤ u && u ≤ 0x007F then [u.toUInt8]
  else
    let low := (u &&& 0x3F).toUInt8 ||| 0x80
    if u ≤ 0x07FF then [(u >>> 6 &&& 0x1F).toUInt8 ||| 0xC0, low]
    else [(u >>> 12 &&& 0x0F).toUInt8 ||| 0xE0, (u >>> 6 &&& 0x3F).toUInt8 ||| 0x80, low]

def encode (text : String) : List UInt8 := (Utf16.encode text.toList).flatMap encodeUnit

end Linkage.ModifiedUtf8

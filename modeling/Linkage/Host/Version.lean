import Linkage.Data.Decimal
import Linkage.Text.Blank

/-! Versions of hosts: a product code and numbers, of which the last may stand for any. -/
namespace Linkage

/-- A part of a host version. -/
inductive VersionPart where
  | number (n : Nat)
  /-- Any number; it lies above all of them. -/
  | any
  deriving DecidableEq, Repr

namespace VersionPart

/-- The code of the part that stands for any number; numbers are smaller. -/
def anyCode : Nat := 0xFFFFFFFF

def code : VersionPart → Nat
  | .number n => n
  | .any => anyCode

def compare : VersionPart → VersionPart → Ordering
  | .number a, .number b => Ord.compare a b
  | .number _, .any => .lt
  | .any, .number _ => .gt
  | .any, .any => .eq

def display : VersionPart → String
  | .number n => toString n
  | .any => "*"

end VersionPart

/-- A host version. The product code is not part of what is compared. -/
structure HostVersion where
  product : Option String := none
  parts : List VersionPart
  deriving DecidableEq, Repr

/-- Why a text is no host version. -/
inductive VersionFault where
  | empty
  | badProduct
  | wildcardInside
  | notANumber (part : String)
  | outOfRange
  deriving DecidableEq, Repr

/-- A text that is no host version. -/
structure InvalidVersion where
  text : String
  fault : VersionFault
  deriving DecidableEq, Repr

def VersionFault.message : VersionFault → String
  | .empty => "empty version"
  | .badProduct => "malformed product code"
  | .wildcardInside => "wildcard must be the last component"
  | .notANumber part => s!"'{part}' is not a number"
  | .outOfRange => "component out of range"

def InvalidVersion.message (e : InvalidVersion) : String :=
  s!"Invalid host version '{e.text}': {e.fault.message}"

namespace HostVersion

/-- A product code, if there is a dash, and what follows it. -/
def splitProduct (cs : List Char) : Except VersionFault (Option String × List Char) :=
  match cs.span (· ≠ '-') with
  | (product, _ :: numbers) =>
    if !product.isEmpty && product.all isAsciiLetter then
      .ok (some (String.ofList product), numbers)
    else .error .badProduct
  | _ => .ok (none, cs)

/-- A part that stands for any number. -/
def isWildcard (part : List Char) : Bool := part = ['*'] || part = "SNAPSHOT".toList

/-- A part that is a number. -/
def number (part : List Char) : Except VersionFault VersionPart :=
  match Decimal.unsigned? UInt32.size (String.ofList part) with
  | none => .error (.notANumber (String.ofList part))
  | some n => if n = VersionPart.anyCode then .error .outOfRange else .ok (.number n)

/-- The parts between dots; a wildcard has to be the last. -/
def readParts : List (List Char) → Except VersionFault (List VersionPart)
  | [] => .ok []
  | part :: parts =>
    if isWildcard part then
      if parts.isEmpty then .ok [.any] else .error .wildcardInside
    else do
      let first ← number part
      return first :: (← readParts parts)

/-- Reads what is left of a version without white space around it. -/
def ofChars (cs : List Char) : Except VersionFault HostVersion :=
  if cs.isEmpty then .error .empty
  else do
    let (product, numbers) ← splitProduct cs
    return ⟨product, ← readParts (numbers.splitOn '.')⟩

/-- Reads a version; white space around it does not count. -/
def parse (text : String) : Except InvalidVersion HostVersion :=
  (ofChars (trim text).toList).mapError (⟨text, ·⟩)

def display (v : HostVersion) : String :=
  v.product.elim "" (· ++ "-") ++ ".".intercalate (v.parts.map VersionPart.display)

/-- The order of parts from left to right; what only goes on is greater. -/
def compare (v w : HostVersion) : Ordering := List.compareLex VersionPart.compare v.parts w.parts

def le (v w : HostVersion) : Bool := v.compare w != .gt

/-- Two versions that differ at most in their product codes. -/
def same (v w : HostVersion) : Bool := v.parts == w.parts

/-- The parts as numbers, of which the one that stands for any number is the greatest. -/
def components (v : HostVersion) : List Nat := v.parts.map VersionPart.code

/-- The first part. -/
def baseline (v : HostVersion) : Nat := v.parts.head?.elim 0 VersionPart.code

def isWildcardVersion (v : HostVersion) : Bool := v.parts.getLast? == some .any

/-- Tells whether a version lies between two bounds, both of them included. -/
def isWithin (v : HostVersion) (since untilVersion : Option HostVersion) : Bool :=
  since.all (·.le v) && untilVersion.all (v.le ·)

/-- The same version of a product. -/
def withProduct (v : HostVersion) (product : String) : HostVersion := { v with product := some product }

/-- A version as text. -/
def ofText? (text : String) : Option HostVersion := (parse text).toOption

end HostVersion
end Linkage

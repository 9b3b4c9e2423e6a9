import Linkage.Data.Decimal

/-! The order of plugin versions. -/
namespace Linkage.PluginVersion

/-- A part of a plugin version: numbers count as such, and all else is text. -/
inductive Part where
  | number (n : Nat)
  | text (t : String)
  deriving DecidableEq, Repr

/-- Numbers below 2^64 count as numbers. -/
def Part.ofText (text : String) : Part :=
  match Decimal.unsigned? UInt64.size text with
  | some n => .number n
  | none => .text text

/-- A number is newer than a text. -/
def Part.compare : Part → Part → Ordering
  | .number a, .number b => Ord.compare a b
  | .number _, .text _ => .gt
  | .text _, .number _ => .lt
  | .text a, .text b => Ord.compare a b

/-- The parts between dots and dashes. -/
def parts (version : String) : List Part :=
  (version.toList.splitOnP fun c => c = '.' || c = '-').map fun cs => Part.ofText (String.ofList cs)

/-- Compares part by part. A version that goes on with a number is newer, and one that goes on with
a text is older. -/
def compareParts : List Part → List Part → Ordering
  | [], [] => .eq
  | [], .number _ :: _ => .lt
  | [], .text _ :: _ => .gt
  | .number _ :: _, [] => .gt
  | .text _ :: _, [] => .lt
  | a :: as, b :: bs => (a.compare b).then (compareParts as bs)

/-- The order of versions: `1.10` is newer than `1.9`, and `1.0` is newer than `1.0-beta`. -/
def compare (a b : String) : Ordering := compareParts (parts a) (parts b)

def le (a b : String) : Bool := compare a b != .gt

end Linkage.PluginVersion

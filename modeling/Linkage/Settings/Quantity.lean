import Linkage.Data.Binary64
import Linkage.Text.Blank
import Linkage.Text.Case

/-! Sizes such as `5GB` and intervals such as `10m`. -/
namespace Linkage

/-- Why a text is no size or interval. -/
inductive QuantityFault where
  | badSize (text : String)
  | badUnit (unit : String)
  | badInterval (text : String)
  /-- The interval is longer than any that can be kept. -/
  | overlong
  deriving DecidableEq, Repr

def QuantityFault.message : QuantityFault → String
  | .badSize text =>
    "Invalid size format: " ++ text ++ ". Expected format like '512MB', '5GB', '2048K'"
  | .badUnit unit =>
    "Invalid size unit: " ++ unit
      ++ ". Supported units: B, K, M, G, T (with optional 'B' suffix)"
  | .badInterval text =>
    "Invalid duration: " ++ text ++ ". Expected format like '30s', '10m', '2h'"
  | .overlong => "cannot convert float seconds to Duration"

namespace Quantity

/-- Digits with at most one point among them, and what follows them. -/
def splitNumber (cs : List Char) : List Char × List Char :=
  let (whole, rest) := cs.span isAsciiDigit
  match rest with
  | '.' :: rest =>
    let (fraction, rest) := rest.span isAsciiDigit
    (whole ++ '.' :: fraction, rest)
  | _ => (whole, rest)

/-- A number and its unit, without white space around the unit. -/
def number? (cs : List Char) : Option (Float × String) := do
  let (number, unit) := splitNumber cs
  return (Binary64.ofDecimal (← Decimal.float? number), trim (String.ofList unit))

/-- The bytes in a unit of size. -/
def sizeUnit? : String → Option Nat
  | "" | "B" | "BYTES" => some 1
  | "K" | "KB" | "KIB" => some (1 <<< 10)
  | "M" | "MB" | "MIB" => some (1 <<< 20)
  | "G" | "GB" | "GIB" => some (1 <<< 30)
  | "T" | "TB" | "TIB" => some (1 <<< 40)
  | _ => none

/-- The bytes of a size, rounded down and at most as many as a word can count. Case does not count;
faults show the text in upper case. -/
def size (text : String) : Except QuantityFault Nat :=
  let text := upperCase (trim text)
  match number? text.toList with
  | none => .error (.badSize text)
  | some (value, unit) =>
    match sizeUnit? unit with
    | none => .error (.badUnit unit)
    | some bytes => .ok (value * Float.ofNat bytes).toUInt64.toNat

/-- The seconds in a unit of time. -/
def timeUnit? : String → Option Nat
  | "" | "s" | "sec" | "secs" => some 1
  | "m" | "min" | "mins" => some 60
  | "h" | "hour" | "hours" => some 3600
  | _ => none

/-- The nanoseconds of a second. -/
def second : Nat := 1000000000

/-- A number of seconds in nanoseconds, rounded to the nearest; 2^64 seconds are too many. -/
def nanoseconds? (seconds : Float) : Option Nat :=
  match Binary64.form seconds with
  | .finite false units exponent =>
    let (num, den) :=
      if exponent < 0 then (units, 1 <<< exponent.natAbs) else (units <<< exponent.natAbs, 1)
    if num / den < UInt64.size then some (Binary64.roundEven (num * second) den) else none
  | .finite true 0 _ => some 0
  | _ => none

/-- The nanoseconds of an interval. Case does not count. -/
def interval (text : String) : Except QuantityFault Nat :=
  match number? (lowerCase (trim text)).toList with
  | none => .error (.badInterval text)
  | some (value, unit) =>
    match timeUnit? unit with
    | none => .error (.badInterval text)
    | some seconds =>
      match nanoseconds? (value * Float.ofNat seconds) with
      | none => .error .overlong
      | some n => .ok n

end Quantity
end Linkage

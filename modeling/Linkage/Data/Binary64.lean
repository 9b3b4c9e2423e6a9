import Linkage.Data.Decimal

/-! Doubles: their exact values, and their shortest decimal text. -/
namespace Linkage.Binary64

/-- A double as it is stored: a sign, and a whole number of units that are a power of two. -/
inductive Form where
  | finite (negative : Bool) (units : Nat) (exponent : Int)
  | infinite (negative : Bool)
  | notANumber
  deriving DecidableEq, Repr

/-- The form of a double. Below the smallest normal number the unit stays the same. -/
def form (f : Float) : Form :=
  let bits := f.toBits.toNat
  let negative := bits >>> 63 = 1
  let exponent : Nat := bits >>> 52 % 0x800
  let fraction := bits % (1 <<< 52)
  if exponent = 2047 then if fraction = 0 then .infinite negative else .notANumber
  else if exponent = 0 then .finite negative fraction (-1074)
  else .finite negative (1 <<< 52 + fraction) ((exponent : Int) - 1075)

/-- The double nearest to a decimal number. -/
def ofDecimal (d : Decimal.Float) : Float :=
  let size := (toString d.digits).length + d.exponent
  let f : Float :=
    if d.digits = 0 || size < -400 then 0
    else if size > 400 then Float.ofBits 0x7FF0000000000000
    else Float.ofScientific d.digits (d.exponent < 0) d.exponent.natAbs
  if d.negative then -f else f

/-- The double that a literal writes. -/
def parse? (text : String) : Option Float := (Decimal.float? text.toList).map ofDecimal

/-- The nearest whole number to a fraction; a half goes to the even neighbour. -/
def roundEven (num den : Nat) : Nat :=
  let q := num / den
  let twice := 2 * (num % den)
  if twice > den || (twice = den && q % 2 = 1) then q + 1 else q

private def power (base : Nat) (e : Int) : Nat × Nat :=
  if e < 0 then (1, base.pow e.natAbs) else (base.pow e.natAbs, 1)

/-- The multiple of a power of ten that is nearest to a number, if it reads back as that number: if
it is within half a unit of it, or a quarter where the units become smaller below. The ends of this
range belong to it if the number of units is even. -/
def onGrid? (units : Nat) (exponent : Int) (p : Int) : Option Nat :=
  let (a, b) := power 2 (exponent - 2)
  let (s, t) := power 10 p
  let below := if units = 1 <<< 52 && exponent > -1074 then 1 else 2
  let scaled (quarters : Nat) : Nat := quarters * a * t
  let reads (k : Nat) : Bool :=
    let point := k * s * b
    let (low, high) := (scaled (4 * units - below), scaled (4 * units + 2))
    if units % 2 = 0 then low ≤ point && point ≤ high else low < point && point < high
  let value := scaled (4 * units)
  let k := value / (s * b)
  let (left, right) := (value - k * s * b, (k + 1) * s * b - value)
  if k ≠ 0 && reads k && (left ≤ right || !reads (k + 1)) then some k
  else if reads (k + 1) then some (k + 1)
  else none

/-- The fewest digits that read back as a positive number, and the power of ten that they count. -/
def shortest (units : Nat) (exponent : Int) : Nat × Int :=
  ((List.range 700).findSome? fun (i : Nat) =>
    let p : Int := 320 - (i : Int)
    (onGrid? units exponent p).map (·, p)).getD (0, 0)

/-- Digits that count a power of ten, written without an exponent. -/
def positional (digits : Nat) (p : Int) : String :=
  let ds := toString digits
  let zeros (n : Nat) : String := String.ofList (List.replicate n '0')
  if p ≥ 0 then ds ++ zeros p.natAbs
  else if ds.length > p.natAbs then
    let whole := ds.length - p.natAbs
    String.ofList (ds.toList.take whole) ++ "." ++ String.ofList (ds.toList.drop whole)
  else "0." ++ zeros (p.natAbs - ds.length) ++ ds

/-- The shortest text of a double. -/
def display (f : Float) : String :=
  match form f with
  | .notANumber => "NaN"
  | .infinite negative => if negative then "-inf" else "inf"
  | .finite negative units exponent =>
    let text :=
      if units = 0 then "0"
      else
        let (digits, p) := shortest units exponent
        positional digits p
    if negative then "-" ++ text else text

end Linkage.Binary64

import Linkage.Text.Ascii

/-! Decimal numbers as text. -/
namespace Linkage.Decimal

/-- The number that a non-empty run of ASCII digits writes. -/
def digits? (cs : List Char) : Option Nat :=
  if cs.isEmpty || !cs.all isAsciiDigit then none
  else some (cs.foldl (fun n c => n * 10 + (c.toNat - 48)) 0)

/-- An unsigned number below `limit`; a plus sign may stand in front. -/
def unsigned? (limit : Nat) (text : String) : Option Nat := do
  let n ← digits? (match text.toList with | '+' :: cs => cs | cs => cs)
  if n < limit then some n else none

/-- The parts of a decimal floating-point literal: sign, digits as one number, and exponent of ten.
Digits may be missing on one side of the point. -/
structure Float where
  negative : Bool
  digits : Nat
  exponent : Int
  deriving Repr, DecidableEq

def sign (cs : List Char) : Bool × List Char :=
  match cs with
  | '-' :: cs => (true, cs)
  | '+' :: cs => (false, cs)
  | cs => (false, cs)

/-- Reads a floating-point literal in full. -/
def float? (cs : List Char) : Option Float := do
  let (negative, cs) := sign cs
  let (whole, cs) := cs.span isAsciiDigit
  let (fraction, cs) := match cs with
    | '.' :: cs => cs.span isAsciiDigit
    | cs => ([], cs)
  let digits ← digits? (whole ++ fraction)
  let exponent : Int ← match cs with
    | [] => some 0
    | e :: cs =>
      if e = 'e' || e = 'E' then
        let (down, cs) := sign cs
        (digits? cs).map fun n => if down then -(n : Int) else n
      else none
  return ⟨negative, digits, exponent - fraction.length⟩

end Linkage.Decimal

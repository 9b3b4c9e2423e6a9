/-! How far a task has come. -/
namespace Linkage

/-- A share of work done that never shrinks, and what is being done. The share is a double from 0 to
1 in its binary form, where a greater number has a greater form. -/
structure Progress where
  fraction : UInt64 := 0
  text : String := ""
  deriving DecidableEq, Repr

namespace Progress

/-- The form of 1. -/
def one : UInt64 := 0x3FF0000000000000

/-- The form of infinity. Beyond it come what is not a number and all that has a sign. -/
def infinity : UInt64 := 0x7FF0000000000000

/-- Brings a double into the range from 0 to 1; what is not a number counts as 0. -/
def clamp (bits : UInt64) : UInt64 :=
  if bits > infinity then 0 else if bits > one then one else bits

/-- Goes up to a share; a smaller one changes nothing. -/
def setFraction (p : Progress) (bits : UInt64) : Progress :=
  { p with fraction := max p.fraction (clamp bits) }

def setText (p : Progress) (text : String) : Progress := { p with text }

def update (p : Progress) (bits : UInt64) (text : String) : Progress := (p.setFraction bits).setText text

/-- The share in hundredths; a half goes to the even neighbour. -/
def percent (p : Progress) : Nat :=
  let hundredths := Float.ofBits p.fraction * 100
  let floor := hundredths.floor
  let n := floor.toUInt64.toNat
  let rest := hundredths - floor
  if rest > 0.5 || (rest == 0.5 && n % 2 = 1) then n + 1 else n

end Progress
end Linkage

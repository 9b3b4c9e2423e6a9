import Linkage.Text.Ascii
import Linkage.Data.Decimal

/-! Dates and times in TOML. -/
namespace Linkage.Toml.Moment

/-- So many digits, and what follows them. -/
def digits? (n : Nat) (cs : List Char) : Option (Nat × List Char) := do
  let (ds, rest) := (cs.take n, cs.drop n)
  if ds.length < n then none
  return (← Decimal.digits? ds, rest)

/-- A number of two digits within bounds. -/
def two? (low high : Nat) (cs : List Char) : Option (Nat × List Char) := do
  let (n, cs) ← digits? 2 cs
  if low ≤ n && n ≤ high then some (n, cs) else none

private def char? (c : Char) : List Char → Option (List Char)
  | d :: cs => if c = d then some cs else none
  | [] => none

private def padded (width n : Nat) : String :=
  let ds := toString n
  String.ofList (List.replicate (width - ds.length) '0') ++ ds

def isLeapYear (year : Nat) : Bool := year % 4 = 0 && (year % 100 ≠ 0 || year % 400 = 0)

def daysIn (year month : Nat) : Nat :=
  match month with
  | 2 => if isLeapYear year then 29 else 28
  | 4 | 6 | 9 | 11 => 30
  | _ => 31

/-- A date that the calendar has. -/
def date? (cs : List Char) : Option (String × List Char) := do
  let (year, cs) ← digits? 4 cs
  let (month, cs) ← two? 1 12 (← char? '-' cs)
  let (day, cs) ← two? 1 (daysIn year month) (← char? '-' cs)
  return (padded 4 year ++ "-" ++ padded 2 month ++ "-" ++ padded 2 day, cs)

/-- The part of a second after its point, to the nanosecond and without needless zeros. -/
private def fraction (cs : List Char) : Option (String × List Char) :=
  match cs with
  | '.' :: cs =>
    let (ds, cs) := cs.span isAsciiDigit
    if ds.isEmpty then none
    else
      let ds := ((ds.take 9).reverse.dropWhile (· = '0')).reverse
      some (if ds.isEmpty then "" else "." ++ String.ofList ds, cs)
  | cs => some ("", cs)

/-- A time of day; a minute can have a leap second. -/
def time? (cs : List Char) : Option (String × List Char) := do
  let (hour, cs) ← two? 0 23 cs
  let (minute, cs) ← two? 0 59 (← char? ':' cs)
  let (second, cs) ← two? 0 60 (← char? ':' cs)
  let (part, cs) ← fraction cs
  return (padded 2 hour ++ ":" ++ padded 2 minute ++ ":" ++ padded 2 second ++ part, cs)

/-- The distance from universal time, if there is one. -/
def offset? : List Char → Option (String × List Char)
  | 'Z' :: cs | 'z' :: cs => some ("Z", cs)
  | c :: cs =>
    if c = '+' || c = '-' then do
      let (hours, cs) ← two? 0 23 cs
      let (minutes, cs) ← two? 0 59 (← char? ':' cs)
      let sign := if c = '-' && hours + minutes ≠ 0 then "-" else "+"
      return (sign ++ padded 2 hours ++ ":" ++ padded 2 minutes, cs)
    else some ("", c :: cs)
  | [] => some ("", [])

/-- A time after a date, which a letter or a space joins. -/
private def timeAfterDate? : List Char → Option (String × List Char)
  | c :: cs =>
    if c = 'T' || c = 't' || c = ' ' then do
      let (time, cs) ← time? cs
      let (offset, cs) ← offset? cs
      return ("T" ++ time ++ offset, cs)
    else none
  | [] => none

/-- A date with or without a time, or a time. -/
def read? (cs : List Char) : Option (String × List Char) :=
  match date? cs with
  | some (date, cs) =>
    match timeAfterDate? cs with
    | some (time, cs) => some (date ++ time, cs)
    | none => some (date, cs)
  | none => time? cs

end Linkage.Toml.Moment

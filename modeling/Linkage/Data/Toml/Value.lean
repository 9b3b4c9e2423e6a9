import Linkage.Data.Binary64
import Linkage.Text.Hex

/-! TOML values and their text on one line. -/
namespace Linkage

/-- A TOML value; the members of a table are in ascending order of their names. -/
inductive Toml where
  | str (text : String)
  | int (n : Int)
  | float (f : Float)
  | bool (b : Bool)
  /-- A date, a time or both, as it is written in full. -/
  | moment (text : String)
  | arr (items : List Toml)
  | table (members : List (String × Toml))
  deriving Inhabited

namespace Toml

def isTable : Toml → Bool
  | .table _ => true
  | _ => false

/-- The members of a table; any other value has none. -/
def members : Toml → List (String × Toml)
  | .table members => members
  | _ => []

/-- A name needs no quotes. -/
def isBareChar (c : Char) : Bool := isAsciiLetter c || isAsciiDigit c || c = '_' || c = '-'

/-- A control character that only an escape can write, wherever it stands. -/
private def isControl (c : Char) : Bool :=
  (c.toNat < 32 && c ≠ '\t' && c ≠ '\n') || c.toNat = 127

/-- The greatest number of times that a character stands in a row. -/
private def longestRun (mark : Char) (cs : List Char) : Nat :=
  (cs.foldl (fun (best, run) c => if c = mark then (max best (run + 1), run + 1) else (best, 0))
    (0, 0)).1

private def escapedForm? (multiline : Bool) (c : Char) : Option String :=
  if c = '\n' then (if multiline then none else some "\\n")
  else if c = '\x08' then some "\\b"
  else if c = '\t' then some "\\t"
  else if c = '\x0c' then some "\\f"
  else if c = '\r' then some "\\r"
  else if c = '\\' then some "\\\\"
  else if isControl c then some ("\\u" ++ (Hex.padded 4 c.toNat).map Char.toUpper)
  else none

/-- The text between quotes, of which two in a row may stand in text of several lines. -/
private def escapedBody (multiline : Bool) : (run : Nat) → List Char → String
  | _, [] => ""
  | run, '"' :: cs =>
    if run < (if multiline then 2 else 0) then "\"" ++ escapedBody multiline (run + 1) cs
    else "\\\"" ++ escapedBody multiline 0 cs
  | _, c :: cs => (escapedForm? multiline c).getD c.toString ++ escapedBody multiline 0 cs

/-- A text between three marks; a line feed after the first three is no part of it. -/
private def spread (mark : String) (cs : List Char) (body : String) : String :=
  let marks := mark ++ mark ++ mark
  marks ++ (if cs.contains '\n' then "\n" else "") ++ body ++ marks

/-- A string between quotes or apostrophes, one or three of them: the first way that needs no
escapes. -/
def quoted (text : String) : String :=
  let cs := text.toList
  let controls := cs.any isControl
  let (newline, backslash) := (cs.contains '\n', cs.contains '\\')
  let (quotes, apostrophes) := (longestRun '"' cs, longestRun '\'' cs)
  let plain := !controls && !backslash
  if plain && !newline && quotes = 0 then "\"" ++ escapedBody false 0 cs ++ "\""
  else if !controls && !newline && apostrophes = 0 then "\x27" ++ text ++ "\x27"
  else if plain && quotes ≤ 2 then spread "\"" cs (escapedBody true 0 cs)
  else if !controls && apostrophes ≤ 2 then spread "\x27" cs text
  else if newline then spread "\"" cs (escapedBody true 0 cs)
  else "\"" ++ escapedBody false 0 cs ++ "\""

/-- A name, between quotes or apostrophes if it needs them. -/
def quotedName (name : String) : String :=
  let cs := name.toList
  let controls := cs.any fun c => isControl c || c = '\n'
  if !cs.isEmpty && cs.all isBareChar then name
  else if (cs.contains '"' || cs.contains '\\') && !controls && !cs.contains '\'' then
    "\x27" ++ name ++ "\x27"
  else "\"" ++ escapedBody false 0 cs ++ "\""

/-- A float, which a point tells from an integer. -/
def floatText (f : Float) : String :=
  match Binary64.form f with
  | .notANumber => "nan"
  | .infinite _ => Binary64.display f
  | .finite .. =>
    let text := Binary64.display f
    if text.contains '.' then text else text ++ ".0"

mutual
/-- The text of a value inside of another one. -/
def inline : Toml → String
  | .str text => quoted text
  | .int n => toString n
  | .float f => floatText f
  | .bool b => if b then "true" else "false"
  | .moment text => text
  | .arr items => "[" ++ ", ".intercalate (inlineItems items) ++ "]"
  | .table [] => "\x7b\x7d"
  | .table members => "\x7b " ++ ", ".intercalate (inlineMembers members) ++ " \x7d"

private def inlineItems : List Toml → List String
  | [] => []
  | item :: items => inline item :: inlineItems items

private def inlineMembers : List (String × Toml) → List String
  | [] => []
  | (name, value) :: members =>
    (quotedName name ++ " = " ++ inline value) :: inlineMembers members
end

/-- The text of an item of a list of texts, which it should not be. A moment is shown as a table. -/
def entryText : Toml → String
  | .moment text => "\x7b \"$__toml_private_datetime\" = " ++ quoted text ++ " \x7d"
  | value => inline value

/-- The text of a value by itself: a string is its own text, and a float is written in its shortest
form. -/
def display : Toml → String
  | .str text => text
  | .float f => Binary64.display f
  | value => inline value

end Toml
end Linkage

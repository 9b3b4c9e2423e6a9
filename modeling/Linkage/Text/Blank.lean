/-! White space. -/
namespace Linkage

/-- Tab to carriage return, the spaces of all scripts, and the separators of lines and
paragraphs. -/
def isBlank (c : Char) : Bool :=
  let n := c.toNat
  (9 ≤ n && n ≤ 13) || n = 0x20 || n = 0x85 || n = 0xA0 || n = 0x1680
    || (0x2000 ≤ n && n ≤ 0x200A) || n = 0x2028 || n = 0x2029 || n = 0x202F || n = 0x205F
    || n = 0x3000

/-- Characters that are commands to a terminal. -/
def isControl (c : Char) : Bool :=
  let n := c.toNat
  n < 0x20 || (0x7F ≤ n && n < 0xA0)

def trimStart (cs : List Char) : List Char := cs.dropWhile isBlank

def trimEnd (cs : List Char) : List Char := (cs.reverse.dropWhile isBlank).reverse

/-- A text without white space at its ends. -/
def trim (text : String) : String := String.ofList (trimEnd (trimStart text.toList))

/-- The parts of a text between line feeds; a carriage return before a line feed belongs to the line
end, and an empty last part is no line. -/
def lines (text : String) : List String :=
  let parts := text.splitOn "\n"
  let ended := parts.dropLast.map fun line =>
    if line.endsWith "\r" then String.ofList line.toList.dropLast else line
  match parts.getLast? with
  | some "" | none => ended
  | some last => ended ++ [last]

/-- What stands before and after the first such character. -/
def splitOnce? (mark : Char) (text : String) : Option (String × String) :=
  match text.toList.span (· ≠ mark) with
  | (before, _ :: after) => some (String.ofList before, String.ofList after)
  | _ => none

end Linkage

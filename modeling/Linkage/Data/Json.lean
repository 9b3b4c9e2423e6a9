import Linkage.Text.Hex

/-! JSON values, and their compact and their indented text. -/
namespace Linkage

/-- A JSON value; members of an object keep their order and may repeat a name. -/
inductive Json where
  | null
  | bool (value : Bool)
  /-- A number as it is written. -/
  | num (literal : String)
  | str (text : String)
  /-- A string whose escapes leave a surrogate unpaired, which is no text, or an object with such a
  name. -/
  | unpaired
  | arr (items : List Json)
  | obj (members : List (String × Json))
  deriving Repr, Inhabited

namespace Json

/-- A decimal integer. -/
def int (n : Int) : Json := .num (if n < 0 then s!"-{n.natAbs}" else s!"{n.natAbs}")

def nat (n : Nat) : Json := .num s!"{n}"

/-- A string, or null. -/
def str? (text : Option String) : Json := text.elim .null .str

def strs (texts : List String) : Json := .arr (texts.map .str)

private def escapeChar (c : Char) : String :=
  if c = '"' then "\\\""
  else if c = '\\' then "\\\\"
  else if c = '\n' then "\\n"
  else if c = '\r' then "\\r"
  else if c = '\t' then "\\t"
  else if c = '\x08' then "\\b"
  else if c = '\x0c' then "\\f"
  else if c.toNat < 32 then "\\u" ++ Hex.padded 4 c.toNat
  else c.toString

/-- A string between quotes: quotes, backslashes and control characters are escaped. -/
def quoted (text : String) : String :=
  text.foldl (fun out c => out ++ escapeChar c) "\"" ++ "\""

mutual
/-- The text without spaces. -/
def compact : Json → String
  | .null | .unpaired => "null"
  | .bool true => "true"
  | .bool false => "false"
  | .num literal => literal
  | .str text => quoted text
  | .arr items => "[" ++ ",".intercalate (compactItems items) ++ "]"
  | .obj members => "\x7b" ++ ",".intercalate (compactMembers members) ++ "\x7d"

private def compactItems : List Json → List String
  | [] => []
  | item :: items => compact item :: compactItems items

private def compactMembers : List (String × Json) → List String
  | [] => []
  | (name, value) :: members => (quoted name ++ ":" ++ compact value) :: compactMembers members
end

private def newline (depth : Nat) : String := "\n" ++ String.ofList (List.replicate (2 * depth) ' ')

mutual
/-- The text with each item and each member on a line of its own, two spaces deeper than what holds
it. -/
def indented (depth : Nat) : Json → String
  | .arr [] => "[]"
  | .obj [] => "\x7b\x7d"
  | .arr items =>
    "[" ++ ",".intercalate (indentedItems (depth + 1) items) ++ newline depth ++ "]"
  | .obj members =>
    "\x7b" ++ ",".intercalate (indentedMembers (depth + 1) members) ++ newline depth ++ "\x7d"
  | .null | .unpaired => "null"
  | .bool true => "true"
  | .bool false => "false"
  | .num literal => literal
  | .str text => quoted text

private def indentedItems (depth : Nat) : List Json → List String
  | [] => []
  | item :: items => (newline depth ++ indented depth item) :: indentedItems depth items

private def indentedMembers (depth : Nat) : List (String × Json) → List String
  | [] => []
  | (name, value) :: members =>
    (newline depth ++ quoted name ++ ": " ++ indented depth value) :: indentedMembers depth members
end

/-- The last member of that name. -/
def get? (json : Json) (name : String) : Option Json :=
  match json with
  | .obj members => (members.reverse.find? (·.1 == name)).map (·.2)
  | _ => none

def asStr? : Json → Option String
  | .str text => some text
  | _ => none

def asBool? : Json → Option Bool
  | .bool b => some b
  | _ => none

/-- The items of an array; any other value has none. -/
def items : Json → List Json
  | .arr items => items
  | _ => []

/-- The members of an object; any other value has none. -/
def members : Json → List (String × Json)
  | .obj members => members
  | _ => []

def asInt? : Json → Option Int
  | .num literal => literal.toInt?
  | _ => none

/-! Access that takes anything else for nothing: a missing member or item is null, what is no string
is empty, and what is no number is zero. -/

def field (json : Json) (name : String) : Json := (json.get? name).getD .null

def item (json : Json) (i : Nat) : Json := json.items[i]?.getD .null

def string (json : Json) : String := json.asStr?.getD ""

def natural (json : Json) : Nat := (json.asInt?.getD 0).toNat

/-- The items of a member. -/
def list (json : Json) (name : String) : List Json := (json.field name).items

def strings (json : Json) : List String := json.items.map string

/-- The string at a place of an array. -/
def stringAt (json : Json) (i : Nat) : String := (json.item i).string

/-- A member that is a string, or else a default. -/
def text (json : Json) (name default : String) : String := (json.field name).asStr?.getD default

/-- A member that is a number, or else a default. -/
def number (json : Json) (name : String) (default : Nat) : Nat :=
  (json.field name).asInt?.elim default Int.toNat

/-- A member that is true. -/
def flag (json : Json) (name : String) : Bool := (json.field name).asBool?.getD false

/-- The value of an option, or null. -/
def ofOption {α : Type} (f : α → Json) (x : Option α) : Json := x.elim .null f

def ofList {α : Type} (f : α → Json) (xs : List α) : Json := .arr (xs.map f)

end Json
end Linkage

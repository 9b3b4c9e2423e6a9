import Linkage.Data.Decimal
import Linkage.Data.Yaml.Node

/-! What YAML scalars stand for, and documents as values without aliases. -/
namespace Linkage.Yaml

/-- A value by what it is, whatever it is read as. -/
inductive Value where
  | null
  | bool (b : Bool)
  | natural (n : Nat)
  /-- A number below zero or with a fraction. -/
  | number
  | text (text : String)
  | list (items : List Value)
  | record (pairs : List (Value × Value))
  deriving Repr, Inhabited

/-- A tag of an application, which no reader knows. One that is no text is none. -/
def isForeign (tag : String) : Bool := tag.startsWith "!" && !tag.contains '\x00'

namespace Scalar

def isNullWord (text : String) : Bool := ["null", "Null", "NULL", "~"].contains text

def boolWord? (text : String) : Option Bool :=
  if ["true", "True", "TRUE"].contains text then some true
  else if ["false", "False", "FALSE"].contains text then some false
  else none

private def inBase? (base : Nat) (cs : List Char) : Option Nat := do
  if cs.isEmpty then none
  cs.foldlM (fun n c => do
    let d ← Hex.digit? c
    if d < base then some (n * base + d) else none) 0

/-- The number that digits write, which may be in a base after its mark. Digits after a needless
zero write none. -/
private def magnitude? (cs : List Char) : Option Nat :=
  let based : Option Nat := match cs with
    | '0' :: 'x' :: cs => inBase? 16 cs
    | '0' :: 'o' :: cs => inBase? 8 cs
    | '0' :: 'b' :: cs => inBase? 2 cs
    | _ => none
  based.orElse fun _ => if cs.head? = some '0' && cs.length > 1 then none else Decimal.digits? cs

/-- An integer of at most 128 bits, with a sign or without. -/
def integer? (text : String) : Option Int :=
  match text.toList with
  | '-' :: cs => (magnitude? cs).bind fun n => if n ≤ 1 <<< 127 then some (-(n : Int)) else none
  | '+' :: cs | cs => (magnitude? cs).bind fun n => if n < 1 <<< 128 then some (n : Int) else none

/-- A decimal number is not rounded to infinity. -/
def isFinite (f : Decimal.Float) : Bool :=
  let width := (Nat.toDigits 10 f.digits).length + f.exponent
  f.digits = 0 || width ≤ 308
    || (width ≤ 309 && f.digits * Nat.pow 10 f.exponent.toNat
        < (1 <<< 1024 - 1 <<< 970) * Nat.pow 10 (-f.exponent).toNat)

/-- A text that is a finite number, or the word for one that is not. -/
def isReal (text : String) : Bool :=
  let cs := text.toList
  let unsigned := match cs with | '+' :: cs => cs | cs => cs
  if [".inf", "+.inf", "-.inf", ".Inf", "+.Inf", "-.Inf", ".INF", "+.INF", "-.INF", ".nan",
      ".NaN", ".NAN"].contains text then true
  else if unsigned.length < cs.length && unsigned.head?.any fun c => c = '+' || c = '-' then false
  else (Decimal.float? unsigned).any isFinite

/-- Digits after a needless zero, which are text. -/
private def isPadded (text : String) : Bool :=
  match text.toList with
  | '+' :: '0' :: c :: cs | '-' :: '0' :: c :: cs | '0' :: c :: cs => (c :: cs).all isAsciiDigit
  | _ => false

/-- The value of an integer; one of more than 64 bits has none. -/
private def integerValue? (n : Int) : Option Value :=
  match n with
  | .ofNat n => if n < UInt64.size then some (.natural n) else none
  | n => if -0x8000000000000000 ≤ n then some .number else none

/-- The value of a plain scalar without a tag. -/
def plain? (text : String) : Option Value :=
  if text.isEmpty || isNullWord text then some .null
  else
    match boolWord? text, integer? text with
    | some b, _ => some (.bool b)
    | none, some n =>
      if n = 0 && text.startsWith "-" then some .number else integerValue? n
    | none, none => some (if !isPadded text && isReal text then .number else .text text)

/-- The value of a scalar; a tag says what it has to be, and one that is not standard is refused. -/
def value? (text : String) (style : ScalarStyle) (tag : Option String) : Option Value :=
  match tag with
  | none => if style = .plain then plain? text else some (.text text)
  | some "tag:yaml.org,2002:bool" => (boolWord? text).map .bool
  | some "tag:yaml.org,2002:int" => (integer? text).bind integerValue?
  | some "tag:yaml.org,2002:float" => if isReal text then some .number else none
  | some "tag:yaml.org,2002:null" => if isNullWord text then some .null else none
  | some tag =>
    if isForeign tag then none
    else if tag.startsWith "!" && style = .plain then plain? text
    else some (.text text)

end Scalar

namespace Document

/-- Follows an alias, as long as there are some that may be followed. -/
private def follow (d : Document) (n : Node) : StateT Nat Option Node :=
  match n with
  | .alias _ => do
    let left + 1 ← get | failure
    set left
    d.target? n
  | n => pure n

/-- The value of a node with collections in it to the given depth. -/
private def value (d : Document) : (depth : Nat) → Node → StateT Nat Option Value
  | 0, n => do
    match ← d.follow n with
    | .scalar text style tag => Scalar.value? text style tag
    | _ => failure
  | depth + 1, n => do
    match ← d.follow n with
    | .scalar text style tag => Scalar.value? text style tag
    | .sequence items tag =>
      if tag.any isForeign then failure
      return .list (← items.mapM (value d depth))
    | .mapping pairs tag =>
      if tag.any isForeign then failure
      return .record (← pairs.mapM fun (k, v) => do return (← value d depth k, ← value d depth v))
    | .alias _ => failure

/-- The text of a scalar, whatever its tag says. -/
private def text (d : Document) (n : Node) : StateT Nat Option Value := do
  match ← d.follow n with
  | .scalar text _ _ => return .text text
  | _ => failure

/-- The value of a record, or a list of its fields, that has its type in a field of that name or in
front. -/
private def entry (d : Document) (type : String) (depth : Nat) (n : Node) :
    StateT Nat Option Value := do
  match ← d.follow n with
  | .sequence (first :: items) tag =>
    if tag.any isForeign then failure
    return .list ((← d.text first) :: (← items.mapM (d.value depth)))
  | .mapping pairs tag =>
    if tag.any isForeign then failure
    return .record (← pairs.mapM fun (k, v) => do
      match ← d.value depth k with
      | .text name => return (.text name, ← if name = type then d.text v else d.value depth v)
      | k => return (k, ← d.value depth v))
  | _ => failure

/-- The records in the list that a document is, with their types in a field of that name.
Collections are nested in no more than 128 levels, and aliases are followed a hundred times as often as the
document is long. -/
def entries? (d : Document) (type : String) : Option (List Value) := do
  let items ← match d.root with
    | .sequence items _ => some items
    | .scalar "" .plain _ => some []
    | _ => none
  let (values, _) ← (items.mapM (d.entry type 126)).run (100 * d.size)
  return values

end Document
end Linkage.Yaml

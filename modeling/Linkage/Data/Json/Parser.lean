import Linkage.Data.Json
import Linkage.Text.Utf16

/-! Reading JSON texts, and where and why a text is none. -/
namespace Linkage

/-- What is wrong where a text stops being what is read. -/
inductive JsonError where
  | endInList
  | endInObject
  | endInString
  | endInValue
  | noColon
  | noListEnd
  | noObjectEnd
  | noWord
  | noValue
  | noName
  | badEscape
  | badNumber
  | control
  | commaBeforeEnd
  | moreText
  /-- A record has to have this field. -/
  | missingField (name : String)
  /-- The value is not of the form that its reader expects. -/
  | unlike
  deriving DecidableEq, Repr

def JsonError.message : JsonError → String
  | .endInList => "EOF while parsing a list"
  | .endInObject => "EOF while parsing an object"
  | .endInString => "EOF while parsing a string"
  | .endInValue => "EOF while parsing a value"
  | .noColon => "expected `:`"
  | .noListEnd => "expected `,` or `]`"
  | .noObjectEnd => "expected `,` or `\x7d`"
  | .noWord => "expected ident"
  | .noValue => "expected value"
  | .noName => "key must be a string"
  | .badEscape => "invalid escape"
  | .badNumber => "invalid number"
  | .control => "control character (\\u0000-\\u001F) found while parsing a string"
  | .commaBeforeEnd => "trailing comma"
  | .moreText => "trailing characters"
  | .missingField name => "missing field `" ++ name ++ "`"
  | .unlike => "invalid value"

/-- An error and its place: lines count from one, and columns count bytes. -/
structure JsonFault where
  error : JsonError
  line : Nat
  column : Nat
  deriving DecidableEq, Repr

def JsonFault.message (f : JsonFault) : String :=
  s!"{f.error.message} at line {f.line} column {f.column}"

/-- An error after some bytes of a text. -/
def JsonFault.after (text : String) (bytes : Nat) (error : JsonError) : JsonFault :=
  let before := text.toUTF8.toList.take bytes
  ⟨error, 1 + before.count 10, (before.reverse.takeWhile (· ≠ 10)).length⟩

namespace Json

/-- Where reading stopped: what is left of the text, and whether the error is in the first character
of that. -/
structure Stuck where
  error : JsonError
  rest : List Char
  ahead : Bool

private def stuck {α : Type} (error : JsonError) (rest : List Char) : Except Stuck α :=
  .error ⟨error, rest, false⟩

private def stuckAhead {α : Type} (error : JsonError) (rest : List Char) : Except Stuck α :=
  .error ⟨error, rest, true⟩

private def isBlank (c : Char) : Bool := c = ' ' || c = '\n' || c = '\t' || c = '\r'

private def skipBlanks (cs : List Char) : List Char := cs.dropWhile isBlank

private def isDigit (c : Char) : Bool := '0' ≤ c && c ≤ '9'

/-- The digits before a point: no needless zeros. -/
private def whole : List Char → Except Stuck (List Char × List Char)
  | [] => stuck .endInValue []
  | '0' :: d :: cs => if isDigit d then stuckAhead .badNumber (d :: cs) else .ok (['0'], d :: cs)
  | c :: cs => if isDigit c then .ok ((c :: cs).span isDigit) else stuck .badNumber cs

/-- A point and the digits after it. -/
private def fraction (cs : List Char) : Except Stuck (List Char × List Char) :=
  match cs with
  | '.' :: cs =>
    match cs.span isDigit with
    | ([], cs) => stuckAhead (if cs.isEmpty then .endInValue else .badNumber) cs
    | (ds, cs) => .ok ('.' :: ds, cs)
  | cs => .ok ([], cs)

private def power (mark : List Char) (cs : List Char) : Except Stuck (List Char × List Char) :=
  match cs.span isDigit with
  | ([], []) => stuck .endInValue []
  | ([], _ :: cs) => stuck .badNumber cs
  | (ds, cs) => .ok (mark ++ ds, cs)

private def exponent (cs : List Char) : Except Stuck (List Char × List Char) :=
  match cs with
  | e :: cs' =>
    if e = 'e' || e = 'E' then
      match cs' with
      | '+' :: cs' => power [e, '+'] cs'
      | '-' :: cs' => power [e, '-'] cs'
      | cs' => power [e] cs'
    else .ok ([], cs)
  | [] => .ok ([], [])

/-- A number: an integer, then maybe a fraction, then maybe an exponent. -/
private def numberLiteral (cs : List Char) : Except Stuck (String × List Char) := do
  let (sign, cs) := match cs with | '-' :: cs => (['-'], cs) | cs => ([], cs)
  let (ws, cs) ← whole cs
  let (fs, cs) ← fraction cs
  let (es, cs) ← exponent cs
  return (String.ofList (sign ++ ws ++ fs ++ es), cs)

private def hex4? : List Char → Option (UInt16 × List Char)
  | a :: b :: c :: d :: cs => (Hex.toNat? [a, b, c, d]).map fun n => (UInt16.ofNat n, cs)
  | _ => none

/-- What a backslash and a letter stand for. -/
private def escape? : Char → Option UInt16
  | '"' => some 34
  | '\\' => some 92
  | '/' => some 47
  | 'b' => some 8
  | 'f' => some 12
  | 'n' => some 10
  | 'r' => some 13
  | 't' => some 9
  | _ => none

/-- The units of a string up to its closing quote. -/
private def units : (fuel : Nat) → List Char → Except Stuck (List UInt16 × List Char)
  | 0, cs => stuck .endInString cs
  | _ + 1, [] | _ + 1, ['\\'] => stuck .endInString []
  | _ + 1, '"' :: cs => .ok ([], cs)
  | fuel + 1, '\\' :: 'u' :: cs =>
    match hex4? cs with
    | some (u, cs) => do
      let (us, cs) ← units fuel cs
      return (u :: us, cs)
    | none => stuck (if cs.length < 4 then .endInString else .badEscape) (cs.drop 4)
  | fuel + 1, '\\' :: e :: cs =>
    match escape? e with
    | some u => do
      let (us, cs) ← units fuel cs
      return (u :: us, cs)
    | none => stuck .badEscape cs
  | fuel + 1, c :: cs =>
    if c.toNat < 32 then stuck .control cs
    else do
      let (us, cs) ← units fuel cs
      return (Utf16.encodeChar c ++ us, cs)

private def stringLiteral (cs : List Char) : Except Stuck (Json × List Char) := do
  let (us, cs) ← units (cs.length + 1) cs
  match Utf16.decode us with
  | some text => return (.str (String.ofList text), cs)
  | none => return (.unpaired, cs)

private def word : List Char → List Char → Except Stuck (List Char)
  | [], cs => .ok cs
  | _ :: _, [] => stuck .endInValue []
  | w :: ws, c :: cs => if c = w then word ws cs else stuck .noWord cs

mutual
/-- A value, blanks before it included, of nesting below `fuel`. -/
private def value : (fuel : Nat) → List Char → Except Stuck (Json × List Char)
  | 0, cs => stuck .noValue cs
  | fuel + 1, cs =>
    match skipBlanks cs with
    | [] => stuck .endInValue []
    | '"' :: cs => stringLiteral cs
    | '[' :: cs =>
      match skipBlanks cs with
      | ']' :: cs => .ok (.arr [], cs)
      | [] => stuck .endInList []
      | cs => do
        let (items, cs) ← listItems fuel cs
        return (.arr items, cs)
    | '\x7b' :: cs =>
      match skipBlanks cs with
      | '\x7d' :: cs => .ok (.obj [], cs)
      | [] => stuck .endInObject []
      | cs => do
        let (members, cs) ← objectMembers fuel cs
        return (members.elim .unpaired .obj, cs)
    | 'n' :: cs => do return (.null, ← word ['u', 'l', 'l'] cs)
    | 't' :: cs => do return (.bool true, ← word ['r', 'u', 'e'] cs)
    | 'f' :: cs => do return (.bool false, ← word ['a', 'l', 's', 'e'] cs)
    | c :: cs =>
      if c = '-' || isDigit c then do
        let (literal, cs) ← numberLiteral (c :: cs)
        return (.num literal, cs)
      else stuckAhead .noValue (c :: cs)

/-- The items of a list from one of them on. -/
private def listItems : (fuel : Nat) → List Char → Except Stuck (List Json × List Char)
  | 0, cs => stuck .noValue cs
  | fuel + 1, cs => do
    let (item, cs) ← value fuel cs
    match skipBlanks cs with
    | ']' :: cs => return ([item], cs)
    | ',' :: cs =>
      match skipBlanks cs with
      | ']' :: cs => stuckAhead .commaBeforeEnd (']' :: cs)
      | cs =>
        let (items, cs) ← listItems fuel cs
        return (item :: items, cs)
    | [] => stuck .endInList []
    | cs => stuckAhead .noListEnd cs

/-- The members of an object from the name of one of them on; none if a name is no text. -/
private def objectMembers :
    (fuel : Nat) → List Char → Except Stuck (Option (List (String × Json)) × List Char)
  | 0, cs => stuck .noName cs
  | fuel + 1, '"' :: cs => do
    let (name, cs) ← stringLiteral cs
    match skipBlanks cs with
    | ':' :: cs =>
      let (member, cs) ← value fuel cs
      let first := name.asStr?.map (·, member)
      match skipBlanks cs with
      | '\x7d' :: cs => return (first.map ([·]), cs)
      | ',' :: cs =>
        match skipBlanks cs with
        | '\x7d' :: cs => stuckAhead .commaBeforeEnd ('\x7d' :: cs)
        | [] => stuck .endInValue []
        | cs =>
          let (members, cs) ← objectMembers fuel cs
          return ((· :: ·) <$> first <*> members, cs)
      | [] => stuck .endInObject []
      | cs => stuckAhead .noObjectEnd cs
    | [] => stuck .endInObject []
    | cs => stuckAhead .noColon cs
  | _ + 1, cs => stuckAhead .noName cs
end

private def document (cs : List Char) : Except Stuck Json := do
  let (v, cs) ← value (cs.length + 1) cs
  match skipBlanks cs with
  | [] => return v
  | cs => stuckAhead .moreText cs

/-- The value that a whole text writes. -/
def parse (text : String) : Except JsonFault Json :=
  (document text.toList).mapError fun s =>
    let read := text.utf8ByteSize - (String.ofList s.rest).utf8ByteSize
    .after text (if s.ahead then read + 1 else read) s.error

def parse? (text : String) : Option Json := (parse text).toOption

/-- An error in the value that a whole text writes, found at its end. -/
def faultAtEnd (text : String) (error : JsonError) : JsonFault :=
  .after text (String.ofList (text.toList.reverse.dropWhile isBlank)).utf8ByteSize error

end Json
end Linkage

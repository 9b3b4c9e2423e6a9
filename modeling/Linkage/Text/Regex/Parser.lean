import Linkage.Text.Ascii
import Linkage.Text.Blank
import Linkage.Text.Case
import Linkage.Text.CharName
import Linkage.Text.Hex
import Linkage.Text.Regex.Size

/-! Reading regular expressions. -/
namespace Linkage.Regex

/-- Switches that an expression sets for what follows in its group. -/
structure Switches where
  ignoreCase : Bool := false
  multiLine : Bool := false
  dotAll : Bool := false
  unicode : Bool := true
  verbose : Bool := false
  crlf : Bool := false
  fewFirst : Bool := false

/-- What is left to read, the switches in force, the names of groups so far and their number. -/
structure Reading where
  rest : List Char
  switches : Switches := {}
  names : List String := []
  groups : Nat := 0

/-- A step of reading, which fails where the expression is malformed. -/
abbrev Reader := StateT Reading Option

private def rest : Reader (List Char) := return (← get).rest

private def peek : Reader (Option Char) := return (← rest).head?

private def switches : Reader Switches := return (← get).switches

private def drop (n : Nat) : Reader Unit := modify fun s => { s with rest := s.rest.drop n }

/-- The next character, which has to be there. -/
private def next : Reader Char := do
  let c :: rest ← rest | failure
  modify fun s => { s with rest }
  return c

/-- Takes this text off the front, if it is there. -/
private def accept (text : String) : Reader Bool := do
  if text.toList.isPrefixOf (← rest) then
    drop text.length
    return true
  else return false

private def isHexDigit (c : Char) : Bool := (Hex.digit? c).isSome

/-! ### White space and comments -/

private def afterComments : (fuel : Nat) → List Char → List Char
  | 0, cs => cs
  | fuel + 1, cs =>
    match cs.dropWhile isBlank with
    | '#' :: cs => afterComments fuel ((cs.dropWhile (· ≠ '\n')).drop 1)
    | cs => cs

/-- In verbose mode white space and comments stand for nothing. -/
private def skipSpace : Reader Unit := do
  if (← switches).verbose then
    modify fun s => { s with rest := afterComments (s.rest.length + 1) s.rest }

/-- Takes one character and what stands for nothing after it. -/
private def advance : Reader Unit := do
  drop 1
  skipSpace

/-- The first character that is not blank, in a comment or before it. -/
private def firstVisible : (inComment : Bool) → List Char → Option Char
  | _, [] => none
  | inComment, c :: cs =>
    if isBlank c then firstVisible inComment cs
    else if c = '#' && !inComment then firstVisible true cs
    else some c

/-- The character after the next one. In verbose mode white space and one comment sign do not count,
if something else stands behind them. -/
private def peekSecond : Reader (Option Char) := do
  let tail := (← rest).drop 1
  return if (← switches).verbose then firstVisible false tail <|> tail.head? else tail.head?

/-! ### Escapes -/

/-- Something that one escape or one plain character writes. -/
inductive Atom where
  | literal (c : Char)
  | set (set : CharSet)
  | boundary (b : Boundary)

private def isMeta (c : Char) : Bool := "\\.+*?()|[]\x7b\x7d^$#&-~".toList.contains c

/-- A code point of a character. -/
private def scalar (digits : List Char) : Reader Char := do
  let some n := Hex.toNat? digits | failure
  if n.isValidChar then return Char.ofNat n else failure

/-- So many hexadecimal digits. -/
private def hexDigits : (width : Nat) → Reader (List Char)
  | 0 => return []
  | width + 1 => do
    let some c ← peek | failure
    unless isHexDigit c do failure
    advance
    return c :: (← hexDigits width)

/-- The characters up to a closing brace. -/
private def bracedChars : (fuel : Nat) → Reader (List Char)
  | 0 => failure
  | fuel + 1 => do
    match ← peek with
    | none => failure
    | some '}' => return []
    | some c =>
      advance
      return c :: (← bracedChars fuel)

/-- What stands in the braces that begin here. -/
private def braced : Reader (List Char) := do
  advance
  bracedChars ((← rest).length + 1)

private def hexEscape (width : Nat) : Reader Char := do
  skipSpace
  if (← peek) = some '{' then
    let digits ← braced
    advance
    unless digits.all isHexDigit do failure
    scalar digits
  else scalar (← hexDigits width)

/-- The character of two hexadecimal digits. Bytes beyond ASCII are no characters. -/
private def byteEscape : Reader Char := do
  skipSpace
  let isBraced := (← peek) = some '{'
  let c ← hexEscape 2
  if isBraced || (← switches).unicode || c.toNat < 128 then return c else failure

/-- Cuts a text at the first occurrence of a mark. -/
private def cutAt? (mark : List Char) : List Char → Option (String × String)
  | [] => none
  | c :: cs =>
    if mark.isPrefixOf (c :: cs) then some ("", String.ofList ((c :: cs).drop mark.length))
    else (cutAt? mark cs).map fun (before, after) => (String.singleton c ++ before, after)

/-- A set of characters by the names of its properties. -/
private def propertyEscape (negated : Bool) : Reader CharSet := do
  skipSpace
  let set? ←
    if (← peek) = some '{' then do
      let name ← braced
      drop 1
      pure <| match cutAt? ['!', '='] name <|> cutAt? [':'] name <|> cutAt? ['='] name with
        | some (property, value) => CharSet.withValue? property value
        | none => CharSet.named? (String.ofList name)
    else do
      let some c ← peek | failure
      if c = '\\' then failure
      advance
      pure (CharSet.named? (String.singleton c))
  let some set := set? | failure
  unless (← switches).unicode do failure
  let set := if (← switches).ignoreCase then set.anyCase else set
  return if negated then set.compl else set

/-- One of the sets with a letter of their own. Without Unicode it cannot hold what is not ASCII. -/
private def letterSet (set : CharSet) (negated : Bool) : Reader CharSet := do
  if (← switches).unicode then return if negated then set.compl else set
  else if negated then failure
  else return set.inter .ascii

/-- The letters of the word boundary that is named in braces. -/
private def edgeName : (fuel : Nat) → Reader (List Char)
  | 0 => failure
  | fuel + 1 => do
    match ← peek with
    | some c =>
      if isAsciiLetter c || c = '-' then
        advance
        return c :: (← edgeName fuel)
      else return []
    | none => return []

/-- The word boundary that a name in braces means; braces with anything else first are a number of
repetitions. -/
private def wordEdge : Reader Boundary := do
  let unicode := (← switches).unicode
  if (← peek) ≠ some '{' then return .wordEdge unicode
  let start ← get
  advance
  let some c ← peek | failure
  unless isAsciiLetter c || c = '-' do
    set start
    return .wordEdge unicode
  let name ← edgeName ((← rest).length + 1)
  unless ← accept "\x7d" do failure
  match String.ofList name with
  | "start" => return .wordStart unicode
  | "end" => return .wordEnd unicode
  | "start-half" => return .wordStartHalf unicode
  | "end-half" => return .wordEndHalf unicode
  | _ => failure

/-- What follows a backslash. -/
private def escape : Reader Atom := do
  let unicode := (← switches).unicode
  let c ← next
  match c with
  | 'x' => return .literal (← byteEscape)
  | 'u' => return .literal (← hexEscape 4)
  | 'U' => return .literal (← hexEscape 8)
  | 'p' => return .set (← propertyEscape false)
  | 'P' => return .set (← propertyEscape true)
  | 'd' => return .set (← letterSet (category "nd") false)
  | 'D' => return .set (← letterSet (category "nd") true)
  | 's' => return .set (← letterSet whiteSpace false)
  | 'S' => return .set (← letterSet whiteSpace true)
  | 'w' => return .set (← letterSet wordChars false)
  | 'W' => return .set (← letterSet wordChars true)
  | 'a' => return .literal '\x07'
  | 'f' => return .literal '\x0c'
  | 't' => return .literal '\t'
  | 'n' => return .literal '\n'
  | 'r' => return .literal '\r'
  | 'v' => return .literal '\x0b'
  | 'A' => return .boundary .textStart
  | 'z' => return .boundary .textEnd
  | 'b' => return .boundary (← wordEdge)
  | 'B' => return .boundary (.noWordEdge unicode)
  | '<' => return .boundary (.wordStart unicode)
  | '>' => return .boundary (.wordEnd unicode)
  | c =>
    if isMeta c then return .literal c
    else if c.toNat < 128 && !isAsciiLetter c && !isAsciiDigit c then return .literal c
    else failure

/-! ### Sets in brackets -/

/-- The ASCII classes that have names. -/
private def namedClass? : String → Option CharSet
  | "alnum" => some (.unions [digits, upper, lower])
  | "alpha" => some (.union upper lower)
  | "ascii" => some .ascii
  | "blank" => some (.ofList [9, 32])
  | "cntrl" => some (.union (.range 0 31) (.range 127 127))
  | "digit" => some digits
  | "graph" => some (.range 33 126)
  | "lower" => some lower
  | "print" => some (.range 32 126)
  | "punct" => some ((CharSet.range 33 126).minus (.unions [digits, upper, lower]))
  | "space" => some (.union (.range 9 13) (.range 32 32))
  | "upper" => some upper
  | "word" => some asciiWordChars
  | "xdigit" => some (.unions [digits, .range 65 70, .range 97 102])
  | _ => none
where
  digits : CharSet := .range 48 57
  upper : CharSet := .range 65 90
  lower : CharSet := .range 97 122

/-- A named class in brackets and colons, if one stands next, and whether it is negated. -/
private def bracketClass? (cs : List Char) : Option (CharSet × Bool × Nat) :=
  match cs with
  | '[' :: ':' :: cs =>
    let (negated, cs) := match cs with | '^' :: cs => (true, cs) | cs => (false, cs)
    match cs.span (· ≠ ':') with
    | (name, ':' :: ']' :: _) => do
      let set ← namedClass? (String.ofList name)
      some (set, negated, name.length + (if negated then 5 else 4))
    | _ => none
  | _ => none

/-- The set with what differs in case alone, if case does not matter. -/
private def withCase (s : Switches) (set : CharSet) : CharSet :=
  if !s.ignoreCase then set else if s.unicode then set.anyCase else set.anyAsciiCase

/-- A set with all case variants, or all characters without them. -/
private def settled (set : CharSet) (negated : Bool) : Reader CharSet := do
  let s ← switches
  let set := withCase s set
  if !negated then return set
  else if s.unicode then return set.compl
  else failure

private def setAtom : Reader Atom := do
  match ← next with
  | '\\' => escape
  | c => return .literal c

/-- The character of an atom. Without Unicode sets hold ASCII characters alone. -/
private def setChar (atom : Atom) : Reader Char := do
  match atom with
  | .literal c => if (← switches).unicode || c.toNat < 128 then return c else failure
  | _ => failure

/-- An item of a set: a character, a class, or a range between two characters. -/
private def setItem : Reader CharSet := do
  let first ← setAtom
  skipSpace
  let mark ← peekSecond
  match ← peek with
  | none => failure
  | some '-' =>
    if mark = some ']' || mark = some '-' then one first
    else
      advance
      let a ← setChar first
      let b ← setChar (← setAtom)
      if a ≤ b then return .range a.toNat b.toNat else failure
  | _ => one first
where
  one (atom : Atom) : Reader CharSet := do
    match atom with
    | .set s => return s
    | _ => return .single (← setChar atom)

/-- Some set and how deep sets are nested in it. -/
structure Nested where
  set : CharSet := {}
  depth : Nat := 0

/-- Items of a set that stand side by side. -/
structure Items where
  set : CharSet := {}
  count : Nat := 0
  depth : Nat := 0

/-- Adds an item. -/
private def Items.add (items : Items) (item : Nested) : Items where
  set := items.set.union item.set
  count := items.count + 1
  depth := max items.depth item.depth

/-- Several items are nested in their union. -/
private def Items.nested (items : Items) : Nested :=
  ⟨items.set, if 2 ≤ items.count then items.depth + 1 else items.depth⟩

/-- How the sets on the two sides of an operator combine. -/
inductive SetOperator where
  | both | difference | exclusive

private def SetOperator.apply : SetOperator → CharSet → CharSet → CharSet
  | .both => .inter
  | .difference => .minus
  | .exclusive => .exclusive

/-- The left side of an operator that waits for its right side. -/
abbrev Pending := Option (SetOperator × Nested)

private def combine (pending : Pending) (items : Items) : Reader Nested := do
  let right := items.nested
  match pending with
  | none => return right
  | some (op, left) =>
    let s ← switches
    return ⟨op.apply (withCase s left.set) (withCase s right.set), max left.depth right.depth + 1⟩

/-- The hyphens at the beginning of a set, which stand for themselves. -/
private def leadingHyphens : (fuel : Nat) → Items → Reader Items
  | 0, items => return items
  | fuel + 1, items => do
    if (← peek) = some '-' then
      advance
      leadingHyphens fuel (items.add ⟨.single '-', 0⟩)
    else return items

mutual
/-- A set after its opening bracket. -/
private def bracketSet : (fuel : Nat) → Reader Nested
  | 0 => failure
  | fuel + 1 => do
    skipSpace
    let negated := (← peek) = some '^'
    if negated then advance
    let hyphens ← leadingHyphens (← rest).length {}
    let items ←
      if hyphens.count = 0 && (← peek) = some ']' then do
        advance
        pure (({} : Items).add ⟨.single ']', 0⟩)
      else pure hyphens
    let ⟨set, depth⟩ ← setItems fuel none items
    return ⟨← settled set negated, depth + 1⟩

/-- The items of a set up to its closing bracket. -/
private def setItems : (fuel : Nat) → Pending → Items → Reader Nested
  | 0, _, _ => failure
  | fuel + 1, pending, items => do
    skipSpace
    let operator (op : SetOperator) : Reader Nested := do
      let left ← combine pending items
      drop 2
      setItems fuel (some (op, left)) {}
    match ← rest with
    | [] => failure
    | ']' :: _ =>
      drop 1
      combine pending items
    | '&' :: '&' :: _ => operator .both
    | '-' :: '-' :: _ => operator .difference
    | '~' :: '~' :: _ => operator .exclusive
    | '[' :: cs =>
      match bracketClass? ('[' :: cs) with
      | some (set, negated, length) =>
        drop length
        setItems fuel pending (items.add ⟨← settled set negated, 0⟩)
      | none =>
        drop 1
        let inner ← bracketSet fuel
        setItems fuel pending (items.add inner)
    | _ =>
      let item ← setItem
      setItems fuel pending (items.add ⟨item, 0⟩)
end

/-! ### Repetitions -/

private def skipBlanks : Reader Unit :=
  modify fun s => { s with rest := s.rest.dropWhile isBlank }

private def decimalDigits : (fuel : Nat) → Reader (List Char)
  | 0 => return []
  | fuel + 1 => do
    match ← peek with
    | some c =>
      if isAsciiDigit c then
        advance
        return c :: (← decimalDigits fuel)
      else return []
    | none => return []

/-- A decimal number, which fits 32 bits, with white space around it. -/
private def decimal : Reader Nat := do
  skipBlanks
  let digits ← decimalDigits (← rest).length
  skipBlanks
  skipSpace
  let some n := (String.ofList digits).toNat? | failure
  if n < UInt32.size then return n else failure

/-- The numbers of repetitions in braces. -/
private def counts : Reader (Nat × Option Nat) := do
  advance
  let least ← decimal
  let most ←
    if (← peek) = some ',' then do
      advance
      if (← peek) = some '}' then pure none else some <$> decimal
    else pure (some least)
  unless (← peek) = some '}' do failure
  advance
  if most.any (· < least) then failure
  return (least, most)

/-! ### Groups and switches -/

/-- Sets one switch. -/
private def Switches.put (s : Switches) (letter : Char) (on : Bool) : Option Switches :=
  match letter with
  | 'i' => some { s with ignoreCase := on }
  | 'm' => some { s with multiLine := on }
  | 's' => some { s with dotAll := on }
  | 'u' => some { s with unicode := on }
  | 'x' => some { s with verbose := on }
  | 'R' => some { s with crlf := on }
  | 'U' => some { s with fewFirst := on }
  | _ => none

/-- The letters of switches; those after a hyphen are put off, and none comes twice. -/
private def switchLetters : List Char → (on : Bool) → (seen : List Char) → Switches →
    Option Switches
  | [], _, seen, s => if seen.head? = some '-' then none else some s
  | c :: cs, on, seen, s =>
    if c ∈ seen then none
    else if c = '-' then switchLetters cs false (c :: seen) s
    else do switchLetters cs on (c :: seen) (← s.put c on)

/-- The letters of names, some of which are newer than the properties of characters. -/
private def nameLetters : CharSet :=
  alphabetic.union (.ofTable "
    dgHBblKBeXBcgrPCCBBBbCBbkwCbAcbJDbYCesAIwMbSbepGZCZlAFjcJIbxPWdTeLbhqJbFBWICdawGGiwGMbgfAgjI")

/-- The digits and other numbers of names. -/
private def nameNumbers : CharSet := numbers.union (.ofTable "eegUKbfbUD")

private def isNameChar (first : Bool) (c : Char) : Bool :=
  c = '_' || nameLetters.contains c
    || (!first && (nameNumbers.contains c || c = '.' || c = '[' || c = ']'))

/-- The name of a group up to the closing angle bracket, which no other group has. -/
private def groupName : Reader Unit := do
  let (name, tail) := (← rest).span (· ≠ '>')
  let text := String.ofList name
  let sound := match name with
    | [] => false
    | c :: cs => isNameChar true c && cs.all (isNameChar false)
  if tail.isEmpty || !sound || (← get).names.contains text then failure
  drop (name.length + 1)
  modify fun s => { s with names := text :: s.names }

/-- What an opening parenthesis starts. -/
inductive Opening where
  | switches
  | group
  | numbered (n : Nat)

private def nextNumber : Reader Opening := do
  modify fun s => { s with groups := s.groups + 1 }
  return .numbered (← get).groups

private def opening : Reader Opening := do
  advance
  let cs ← rest
  if ["?=", "?!", "?<=", "?<!"].any fun t => t.toList.isPrefixOf cs then failure
  if (← accept "?P<") || (← accept "?<") then
    groupName
    nextNumber
  else if ← accept "?" then
    let (letters, tail) := (← rest).span fun c => c ≠ ':' && c ≠ ')'
    drop (letters.length + 1)
    let some switches := switchLetters letters true [] (← switches) | failure
    modify fun s => { s with switches }
    match tail.head? with
    | some ':' => return .group
    | some ')' => if letters.isEmpty then failure else return .switches
    | _ => failure
  else nextNumber

/-! ### Expressions -/

/-- An expression and how deep its parts are nested. -/
structure Part where
  regex : Regex := .empty
  depth : Nat := 0
  /-- A change of switches is no part that can be repeated. -/
  isSwitch : Bool := false

private def ofAtom (s : Switches) : Atom → Regex
  | .literal c => ofSet (withCase s (.single c))
  | .set set => ofSet set
  | .boundary b => .boundary b

/-- Any character. Without Unicode it would be any byte. -/
private def dot : Reader Regex := do
  let s ← switches
  unless s.unicode do failure
  return ofSet <|
    if s.dotAll then .all
    else if s.crlf then (CharSet.ofList [10, 13]).compl
    else (CharSet.ofList [10]).compl

/-- Parts that follow each other, from the last to the first. -/
private def sequence (parts : List Part) : Part where
  regex := inSequence (parts.reverse.map (·.regex))
  depth := match parts with
    | [] => 0
    | [part] => part.depth
    | _ => (parts.map (·.depth)).foldl max 0 + 1

/-- Alternatives, from the last to the first. -/
private def choice (alternatives : List Part) : Part :=
  match alternatives with
  | [part] => part
  | _ => ⟨anyOf (alternatives.reverse.map (·.regex)),
      (alternatives.map (·.depth)).foldl max 0 + 1, false⟩

/-- Repeats the part that was read last. -/
private def repeatLast (parts : List Part) (least : Nat) (most : Option Nat) :
    Reader (List Part) := do
  let part :: parts := parts | failure
  if part.isSwitch then failure
  let fewFirst := (← accept "?") != (← switches).fewFirst
  return ⟨repeated part.regex least most fewFirst, part.depth + 1, false⟩ :: parts

/-- What stands up to the end of a group or of the text, after some alternatives and some parts of
the next one. -/
private def expression : (fuel : Nat) → (alternatives parts : List Part) → Reader Part
  | 0, _, _ => failure
  | fuel + 1, alternatives, parts => do
    skipSpace
    let s ← switches
    let continue_ (parts : List Part) : Reader Part := expression fuel alternatives parts
    let add (r : Regex) : Reader Part := continue_ ({ regex := r } :: parts)
    match ← rest with
    | [] | ')' :: _ => return choice (sequence parts :: alternatives)
    | '|' :: _ =>
      drop 1
      expression fuel (sequence parts :: alternatives) []
    | '(' :: _ =>
      match ← opening with
      | .switches => continue_ ({ isSwitch := true } :: parts)
      | .group => continue_ ((← inGroup fuel s) :: parts)
      | .numbered n =>
        let part ← inGroup fuel s
        continue_ ({ part with regex := .group n part.regex } :: parts)
    | '[' :: _ =>
      drop 1
      let ⟨set, depth⟩ ← bracketSet fuel
      continue_ ({ regex := ofSet set, depth } :: parts)
    | '*' :: _ =>
      drop 1
      continue_ (← repeatLast parts 0 none)
    | '+' :: _ =>
      drop 1
      continue_ (← repeatLast parts 1 none)
    | '?' :: _ =>
      drop 1
      continue_ (← repeatLast parts 0 (some 1))
    | '{' :: _ =>
      let (least, most) ← counts
      continue_ (← repeatLast parts least most)
    | '\\' :: _ =>
      drop 1
      let atom ← escape
      add (ofAtom s atom)
    | '.' :: _ =>
      drop 1
      add (← dot)
    | '^' :: _ =>
      drop 1
      add (.boundary (if s.multiLine then .lineStart s.crlf else .textStart))
    | '$' :: _ =>
      drop 1
      add (.boundary (if s.multiLine then .lineEnd s.crlf else .textEnd))
    | c :: _ =>
      drop 1
      add (ofAtom s (.literal c))
where
  /-- The rest of a group, after which the switches before it are in force again. -/
  inGroup (fuel : Nat) (outer : Switches) : Reader Part := do
    let inner ← expression fuel [] []
    unless ← accept ")" do failure
    modify fun s => { s with switches := outer }
    return { regex := inner.regex, depth := inner.depth + 1 }

/-- How deep the parts of an expression may be nested. -/
def depthLimit : Nat := 250

/-- The expression that a text writes, if it is neither too deep nor too large. -/
def parse? (text : String) : Option Regex := do
  let chars := text.toList
  let (part, s) ← (expression (2 * chars.length + 2) [] []).run { rest := chars }
  if s.rest.isEmpty && part.depth ≤ depthLimit && part.regex.isSmall then some part.regex else none

end Linkage.Regex

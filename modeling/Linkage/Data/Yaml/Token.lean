import Linkage.Text.Hex

/-! The tokens of a YAML text. -/
namespace Linkage.Yaml

/-- How a scalar is written. -/
inductive ScalarStyle where
  | plain | quoted | literal | folded
  deriving DecidableEq, Repr

/-- A tag as it is written: a handle, empty for a whole tag, and what follows it. -/
structure TagText where
  handle : String
  suffix : String
  deriving DecidableEq, Repr

/-- What a text consists of. The starts and ends of blocks stand for changes of indentation. -/
inductive Token where
  | versionDirective
  | tagDirective (handle replacement : String)
  | documentStart | documentEnd
  | blockSequenceStart | blockMappingStart | blockEnd
  | flowSequenceStart | flowSequenceEnd | flowMappingStart | flowMappingEnd
  | blockEntry | flowEntry | key | value
  | alias (name : String)
  | anchor (name : String)
  | tag (tag : TagText)
  | scalar (text : String) (style : ScalarStyle)
  | streamEnd
  deriving DecidableEq, Repr

namespace Token

/-- A token that may turn out to be the key of a mapping. -/
structure KeyCandidate where
  /-- Without a colon after it the text is malformed. -/
  required : Bool
  tokenIndex : Nat
  index : Nat
  line : Nat
  column : Nat

/-- What is known in the middle of a text. -/
structure ScanState where
  rest : List Char
  index : Nat := 0
  line : Nat := 0
  column : Nat := 0
  tokens : Array Token := #[]
  /-- The column of the block at hand; none outside of all blocks. -/
  indent : Option Nat := none
  /-- The columns of the blocks around it. -/
  indents : List (Option Nat) := []
  keyAllowed : Bool := true
  /-- The candidate of each flow collection that is open, the innermost first, then of the block. -/
  candidates : List (Option KeyCandidate) := [none]

/-- A step of the scan, which fails where the text is malformed. -/
abbrev Scan := StateT ScanState Option

private def isBreak (c : Char) : Bool :=
  c = '\n' || c = '\r' || c = '\u0085' || c = '\u2028' || c = '\u2029'

private def isSpace (c : Char) : Bool := c = ' ' || c = '\t'

/-- A blank, a line break or the end. -/
private def endsWord (c : Option Char) : Bool := c.all fun c => isSpace c || isBreak c

private def charAt (n : Nat) : Scan (Option Char) := return (← get).rest[n]?

private def peek : Scan (Option Char) := charAt 0

private def skip : Scan Unit :=
  modify fun s => { s with rest := s.rest.drop 1, index := s.index + 1, column := s.column + 1 }

private def skipMany (n : Nat) : Scan Unit :=
  modify fun s => { s with rest := s.rest.drop n, index := s.index + n, column := s.column + n }

/-- Takes a line break and gives the character that it stands for. -/
private def takeBreak : Scan (List Char) := do
  let (out, n) ← match (← get).rest with
    | '\r' :: '\n' :: _ => pure (['\n'], 2)
    | c :: _ => pure (if c = '\u2028' || c = '\u2029' then [c] else ['\n'], 1)
    | [] => pure ([], 0)
  modify fun s =>
    { s with rest := s.rest.drop n, index := s.index + n, line := s.line + 1, column := 0 }
  return out

private def takeWhile (p : Char → Bool) : Scan (List Char) := do
  let found := (← get).rest.takeWhile p
  skipMany found.length
  return found

private def inFlow : Scan Bool := return (← get).candidates.length > 1

private def emit (t : Token) : Scan Unit := modify fun s => { s with tokens := s.tokens.push t }

private def allowKey (b : Bool) : Scan Unit := modify fun s => { s with keyAllowed := b }

/-- Puts a token before those from `index` on. -/
private def insertToken (index : Nat) (t : Token) : Scan Unit :=
  modify fun s =>
    { s with tokens := (s.tokens.take index).push t ++ s.tokens.drop index }

/-- Closes blocks that are indented deeper than `column`. -/
private def closeBlocks (column : Option Nat) : Scan Unit := do
  if ← inFlow then return
  let deeper (i : Option Nat) : Bool :=
    match i, column with
    | some i, some c => i > c
    | some _, none => true
    | none, _ => false
  let s ← get
  let open' := s.indent :: s.indents
  let closed := open'.takeWhile deeper
  let left := open'.dropWhile deeper
  set { s with
    indent := left.head?.join
    indents := left.tail
    tokens := s.tokens ++ (closed.map fun _ => Token.blockEnd) }

/-- Opens a block at a column that is deeper than the block at hand. -/
private def openBlock (column : Nat) (at? : Option Nat) (t : Token) : Scan Unit := do
  if ← inFlow then return
  let s ← get
  if s.indent.all (· < column) then
    set { s with indent := some column, indents := s.indent :: s.indents }
    match at? with
    | some index => insertToken index t
    | none => emit t

/-- Gives up the candidate at hand, which must not be a required key. -/
private def dropCandidate : Scan Unit := do
  match (← get).candidates with
  | some c :: rest =>
    if c.required then failure
    modify fun s => { s with candidates := none :: rest }
  | _ => return

/-- The next token may be a key. -/
private def saveCandidate : Scan Unit := do
  let s ← get
  if s.keyAllowed then
    let required := s.candidates.length ≤ 1 && s.indent == some s.column
    dropCandidate
    modify fun s => { s with
      candidates := some ⟨required, s.tokens.size, s.index, s.line, s.column⟩ :: s.candidates.tail }

/-- Keys stay on one line and are not longer than 1024 characters. -/
private def dropStale : Scan Unit := do
  let s ← get
  let stale (c : KeyCandidate) : Bool := c.line < s.line || c.index + 1024 < s.index
  if s.candidates.any fun c => c.any fun c => stale c && c.required then failure
  set { s with candidates := s.candidates.map (Option.filter (!stale ·)) }

private def skipComment : Scan Unit := do
  if (← peek) = some '#' then
    let _ ← takeWhile (!isBreak ·)

/-- Passes over blanks, comments and line breaks. A byte order mark may start a line; tabs are no
indentation. -/
private def skipToToken : (fuel : Nat) → Scan Unit
  | 0 => return
  | fuel + 1 => do
    if (← get).column = 0 && (← peek) = some '\ufeff' then skip
    let s ← get
    let tabs := s.candidates.length > 1 || !s.keyAllowed
    let _ ← takeWhile fun c => c = ' ' || (tabs && c = '\t')
    skipComment
    if (← peek).any isBreak then
      let _ ← takeBreak
      unless ← inFlow do allowKey true
      skipToToken fuel

/-- Three dashes or dots at the start of a line, and nothing more in the word. -/
private def isDocumentMark : Scan (Option Token) := do
  let s ← get
  if s.column ≠ 0 || !endsWord s.rest[3]? then return none
  match s.rest with
  | '-' :: '-' :: '-' :: _ => return some .documentStart
  | '.' :: '.' :: '.' :: _ => return some .documentEnd
  | _ => return none

private def isNameChar (c : Char) : Bool := c.isAlphanum || c = '_' || c = '-'

private def isUriChar (c : Char) : Bool :=
  isNameChar c || ";/?:@&=+$.!~*\x27()%".toList.contains c

/-- In whole tags, the marks of flow collections are characters like all others. -/
private def isWholeUriChar (c : Char) : Bool := isUriChar c || c = ',' || c = '[' || c = ']'

/-- The bytes of a tag. Those of one character, of which `pending` are still to come, are escaped
together. -/
private def uriBytes : (pending : Nat) → List Char → Option (List UInt8)
  | 0, [] => some []
  | _ + 1, [] => none
  | pending, '%' :: a :: b :: rest => do
    let n ← Hex.toNat? [a, b]
    let pending ←
      if pending > 0 then (if n / 64 = 2 then some (pending - 1) else none)
      else if n < 0x80 then some 0
      else if n / 32 = 6 then some 1
      else if n / 16 = 14 then some 2
      else if n / 8 = 30 then some 3
      else none
    return UInt8.ofNat n :: (← uriBytes pending rest)
  | 0, c :: rest => do
    if c = '%' then none
    return c.toString.toUTF8.toList ++ (← uriBytes 0 rest)
  | _ + 1, _ :: _ => none

/-- The text of a tag up to a null character. A null character stands for what is no text. -/
private def uriText (cs : List Char) : Option String := do
  let bytes := (← uriBytes 0 cs).takeWhile (· ≠ 0)
  return (String.fromUTF8? ⟨bytes.toArray⟩).getD "\x00"

/-- A tag in one of its forms: whole, with a handle, or local. -/
private def scanTag : Scan Unit := do
  if (← charAt 1) = some '<' then
    skipMany 2
    let uri ← takeWhile isWholeUriChar
    if uri.isEmpty || (← peek) ≠ some '>' then failure
    skip
    emit (.tag ⟨"", ← uriText uri⟩)
  else
    skip
    let name ← takeWhile isNameChar
    if (← peek) = some '!' then
      skip
      let suffix ← takeWhile isUriChar
      if suffix.isEmpty then failure
      emit (.tag ⟨"!" ++ String.ofList name ++ "!", ← uriText suffix⟩)
    else
      let suffix ← uriText (name ++ (← takeWhile isUriChar))
      emit (.tag (if suffix.isEmpty then ⟨"", "!"⟩ else ⟨"!", suffix⟩))
  let next ← peek
  unless endsWord next || ((← inFlow) && next = some ',') do failure

/-- A part of a version: a number of at most nine digits. -/
private def scanVersionNumber : Scan Nat := do
  let digits ← takeWhile Char.isDigit
  if digits.isEmpty || digits.length > 9 then failure
  return (String.ofList digits).toNat?.getD 0

/-- The handle of tags in a directive. -/
private def scanHandle : Scan String := do
  if (← peek) ≠ some '!' then failure
  skip
  let name ← takeWhile isNameChar
  if (← peek) = some '!' then
    skip
    return "!" ++ String.ofList name ++ "!"
  else if name.isEmpty then return "!"
  else failure

/-- A line that begins with a percent sign. -/
private def scanDirective : Scan Unit := do
  skip
  let name ← takeWhile isNameChar
  unless endsWord (← peek) do failure
  let _ ← takeWhile isSpace
  match String.ofList name with
  | "YAML" =>
    let major ← scanVersionNumber
    if (← peek) ≠ some '.' then failure
    skip
    let minor ← scanVersionNumber
    unless major = 1 && (minor = 1 || minor = 2) do failure
    emit .versionDirective
  | "TAG" =>
    let handle ← scanHandle
    unless (← peek).any isSpace do failure
    let _ ← takeWhile isSpace
    let replacement ← takeWhile isWholeUriChar
    if replacement.isEmpty || !endsWord (← peek) then failure
    emit (.tagDirective handle (← uriText replacement))
  | _ => failure
  let _ ← takeWhile isSpace
  skipComment
  match ← peek with
  | none => return
  | some c => if isBreak c then let _ ← takeBreak else failure

/-- Joins the lines of a scalar that flows: one line break is a space, more are one less. -/
private def foldBreaks (first : List Char) (others : List Char) : List Char :=
  if first = ['\n'] then (if others.isEmpty then [' '] else others) else first ++ others

/-- The blanks and line breaks between two words of a scalar. -/
structure Gap where
  blanks : List Char := []
  first : Option (List Char) := none
  others : List Char := []

private def Gap.text (g : Gap) : List Char :=
  match g.first with
  | none => g.blanks
  | some first => foldBreaks first g.others

/-- Passes over blanks and line breaks; in a plain scalar a tab must not stand for indentation. -/
private def scanGap (tabLimit : Nat) : (fuel : Nat) → Gap → Scan Gap
  | 0, g => return g
  | fuel + 1, g => do
    match ← peek with
    | none => return g
    | some c =>
      if isSpace c then
        if g.first.isSome && c = '\t' && (← get).column < tabLimit then failure
        skip
        scanGap tabLimit fuel (if g.first.isSome then g else { g with blanks := g.blanks ++ [c] })
      else if isBreak c then
        let b ← takeBreak
        scanGap tabLimit fuel <|
          if g.first.isSome then { g with others := g.others ++ b }
          else { g with blanks := [], first := some b }
      else return g

/-- The characters of a word of a plain scalar. -/
private def plainWord (flow : Bool) : List Char → Option (List Char)
  | [] => some []
  | c :: rest =>
    if isSpace c || isBreak c then some []
    else if flow && c = ':' && rest.head?.any fun d => ",?[]\x7b\x7d".toList.contains d then none
    else if c = ':' && endsWord rest.head? then some []
    else if flow && ",[]\x7b\x7d".toList.contains c then some []
    else (plainWord flow rest).map (c :: ·)

private def scanPlain : (fuel : Nat) → (out : List Char) → (gap : Gap) → Scan (List Char × Gap)
  | 0, out, gap => return (out, gap)
  | fuel + 1, out, gap => do
    if (← isDocumentMark).isSome || (← peek) = some '#' then return (out, gap)
    let flow ← inFlow
    let word ← plainWord flow (← get).rest
    skipMany word.length
    let (out, gap) := if word.isEmpty then (out, gap) else (out ++ gap.text ++ word, {})
    unless (← peek).any fun c => isSpace c || isBreak c do return (out, gap)
    let limit := (← get).indent.elim 0 (· + 1)
    let gap ← scanGap limit ((← get).rest.length + 1) gap
    if !flow && (← get).column < limit then return (out, gap)
    scanPlain fuel out gap

/-- The character that an escape in double quotes stands for. -/
private def scanEscape : Scan Char := do
  let some c ← peek | failure
  skip
  let hex (n : Nat) : Scan Char := do
    let digits := (← get).rest.take n
    if digits.length < n then failure
    skipMany n
    let code ← Hex.toNat? digits
    if code.isValidChar then return Char.ofNat code else failure
  match c with
  | '0' => return '\x00'
  | 'a' => return '\x07'
  | 'b' => return '\x08'
  | 't' | '\t' => return '\t'
  | 'n' => return '\n'
  | 'v' => return '\x0b'
  | 'f' => return '\x0c'
  | 'r' => return '\r'
  | 'e' => return '\x1b'
  | ' ' => return ' '
  | '"' => return '"'
  | '/' => return '/'
  | '\\' => return '\\'
  | 'N' => return '\u0085'
  | '_' => return '\u00a0'
  | 'L' => return '\u2028'
  | 'P' => return '\u2029'
  | 'x' => hex 2
  | 'u' => hex 4
  | 'U' => hex 8
  | _ => failure

/-- The rest of a scalar in quotes, the closing quote included. -/
private def scanQuoted (double : Bool) : (fuel : Nat) → (out : List Char) → Scan (List Char)
  | 0, _ => failure
  | fuel + 1, out => do
    if (← isDocumentMark).isSome then failure
    match (← get).rest with
    | [] => failure
    | '\x27' :: '\x27' :: _ =>
      if double then
        skip
        scanQuoted double fuel (out ++ ['\x27'])
      else
        skipMany 2
        scanQuoted double fuel (out ++ ['\x27'])
    | '\\' :: c :: _ =>
      if !double then
        skip
        scanQuoted double fuel (out ++ ['\\'])
      else if isBreak c then
        skip
        let _ ← takeBreak
        let gap ← scanGap 0 ((← get).rest.length + 1) { first := some [] }
        scanQuoted double fuel (out ++ gap.text)
      else
        skip
        let c ← scanEscape
        scanQuoted double fuel (out ++ [c])
    | c :: _ =>
      if c = (if double then '"' else '\x27') then
        skip
        return out
      else if isSpace c || isBreak c then
        let gap ← scanGap 0 ((← get).rest.length + 1) {}
        scanQuoted double fuel (out ++ gap.text)
      else
        skip
        scanQuoted double fuel (out ++ [c])

/-- What happens to the line breaks at the end of a block scalar. -/
inductive Chomping where
  | strip | clip | keep
  deriving DecidableEq

/-- The indicators after the mark of a block scalar: chomping and indentation, in either order. -/
private def blockHeader (cs : List Char) : Option (Chomping × Option Nat × List Char) :=
  let chomp? : Char → Option Chomping
    | '+' => some .keep
    | '-' => some .strip
    | _ => none
  let digit? (c : Char) : Option Nat := if c.isDigit then some (c.toNat - 48) else none
  let sound (d : Nat) := if d = 0 then none else some d
  match cs with
  | a :: rest =>
    match chomp? a, digit? a with
    | some chomping, _ =>
      match rest with
      | b :: rest' =>
        match digit? b with
        | some d => (sound d).map fun d => (chomping, some d, rest')
        | none => some (chomping, none, rest)
      | [] => some (chomping, none, rest)
    | _, some d =>
      match rest with
      | b :: rest' =>
        match chomp? b with
        | some chomping => (sound d).map fun d => (chomping, some d, rest')
        | none => (sound d).map fun d => (.clip, some d, rest)
      | [] => (sound d).map fun d => (.clip, some d, rest)
    | _, _ => some (.clip, none, cs)
  | [] => some (.clip, none, [])

/-- Passes over empty lines of a block scalar and the indentation of the next one. -/
private def blockBreaks (indent : Option Nat) :
    (fuel : Nat) → (widest : Nat) → (out : List Char) → Scan (Nat × List Char)
  | 0, widest, out => return (widest, out)
  | fuel + 1, widest, out => do
    let column := (← get).column
    let spaces := ((← get).rest.takeWhile (· = ' ')).length
    skipMany (indent.elim spaces fun i => min spaces (i - column))
    let column := (← get).column
    let widest := max widest column
    if indent.all (column < ·) && (← peek) = some '\t' then failure
    if (← peek).any isBreak then
      let b ← takeBreak
      blockBreaks indent fuel widest (out ++ b)
    else return (widest, out)

/-- The lines of a block scalar: `leading` is the break after the line before, `trailing` holds the
empty lines since then. -/
private def blockLines (literal : Bool) (indent : Nat) :
    (fuel : Nat) → (out leading trailing : List Char) → (spaced : Bool) →
      Scan (List Char × List Char × List Char)
  | 0, out, leading, trailing, _ => return (out, leading, trailing)
  | fuel + 1, out, leading, trailing, spaced => do
    let next ← peek
    if (← get).column ≠ indent || next.isNone then return (out, leading, trailing)
    let blank := next.any isSpace
    let out :=
      if !literal && leading = ['\n'] && !spaced && !blank then
        out ++ (if trailing.isEmpty then [' '] else []) ++ trailing
      else out ++ leading ++ trailing
    let line ← takeWhile (!isBreak ·)
    let leading ← takeBreak
    let (_, trailing) ← blockBreaks (some indent) ((← get).rest.length + 1) 0 []
    blockLines literal indent fuel (out ++ line) leading trailing blank

private def scanBlock (literal : Bool) : Scan Unit := do
  skip
  let (chomping, increment, _) ← blockHeader (← get).rest
  skipMany ((if chomping = .clip then 0 else 1) + (if increment.isSome then 1 else 0))
  let _ ← takeWhile isSpace
  skipComment
  if (← peek).any (!isBreak ·) then failure
  let _ ← takeBreak
  let base := (← get).indent
  let fuel := (← get).rest.length + 1
  let (indent, trailing) ← match increment with
    | some d =>
      let indent := base.elim d (· + d)
      pure (indent, (← blockBreaks (some indent) fuel 0 []).2)
    | none =>
      let (widest, out) ← blockBreaks none fuel 0 []
      pure (max (max widest (base.elim 0 (· + 1))) 1, out)
  let (out, leading, trailing) ← blockLines literal indent fuel [] [] trailing false
  let out := out ++ (if chomping = .strip then [] else leading)
    ++ (if chomping = .keep then trailing else [])
  emit (.scalar (String.ofList out) (if literal then .literal else .folded))

private def startFlow (t : Token) : Scan Unit := do
  saveCandidate
  modify fun s => { s with candidates := none :: s.candidates }
  allowKey true
  skip
  emit t

private def endFlow (t : Token) : Scan Unit := do
  dropCandidate
  modify fun s => { s with
    candidates := if s.candidates.length > 1 then s.candidates.tail else s.candidates }
  allowKey false
  skip
  emit t

private def scanValue : Scan Unit := do
  match (← get).candidates with
  | some c :: rest =>
    insertToken c.tokenIndex .key
    openBlock c.column (some c.tokenIndex) .blockMappingStart
    modify fun s => { s with candidates := none :: rest }
    allowKey false
  | _ =>
    unless ← inFlow do
      unless (← get).keyAllowed do failure
      openBlock (← get).column none .blockMappingStart
    allowKey (!(← inFlow))
  skip
  emit .value

private def scanExplicitKey : Scan Unit := do
  unless ← inFlow do
    unless (← get).keyAllowed do failure
    openBlock (← get).column none .blockMappingStart
  dropCandidate
  allowKey (!(← inFlow))
  skip
  emit .key

private def scanBlockEntry : Scan Unit := do
  unless ← inFlow do
    unless (← get).keyAllowed do failure
    openBlock (← get).column none .blockSequenceStart
  dropCandidate
  allowKey true
  skip
  emit .blockEntry

private def scanMark (t : Token) : Scan Unit := do
  closeBlocks none
  dropCandidate
  allowKey false
  skipMany 3
  emit t

/-- An anchor or an alias after its mark. -/
private def scanName (make : String → Token) : Scan Unit := do
  saveCandidate
  allowKey false
  skip
  let name ← takeWhile isNameChar
  let next ← peek
  if name.isEmpty then failure
  unless endsWord next || next.any fun c => "?:,]\x7d%@\x60".toList.contains c do failure
  emit (make (String.ofList name))

private def scanQuotedToken (double : Bool) : Scan Unit := do
  saveCandidate
  allowKey false
  skip
  let text ← scanQuoted double ((← get).rest.length + 1) []
  emit (.scalar (String.ofList text) .quoted)

private def scanPlainToken : Scan Unit := do
  saveCandidate
  allowKey false
  let (text, gap) ← scanPlain ((← get).rest.length + 1) [] {}
  if gap.first.isSome then allowKey true
  emit (.scalar (String.ofList text) .plain)

private def startsPlain (c : Char) (next : Option Char) (flow : Bool) : Bool :=
  if c = '-' then !next.any isSpace
  else if c = '?' || c = ':' then !flow && !endsWord next
  else !endsWord c && !"-?:,[]\x7b\x7d#&*!|>\x27\"%@\x60".toList.contains c

/-- Scans one token; tells whether there are more. -/
private def scanToken : Scan Bool := do
  skipToToken ((← get).rest.length + 1)
  dropStale
  closeBlocks (some (← get).column)
  if let some t ← isDocumentMark then
    scanMark t
    return true
  let flow ← inFlow
  let next ← charAt 1
  match ← peek with
  | none =>
    closeBlocks none
    dropCandidate
    emit .streamEnd
    return false
  | some c =>
    match c with
    | '[' => startFlow .flowSequenceStart
    | '\x7b' => startFlow .flowMappingStart
    | ']' => endFlow .flowSequenceEnd
    | '\x7d' => endFlow .flowMappingEnd
    | ',' =>
      dropCandidate
      allowKey true
      skip
      emit .flowEntry
    | '*' => scanName .alias
    | '&' => scanName .anchor
    | '!' =>
      saveCandidate
      allowKey false
      scanTag
    | '"' => scanQuotedToken true
    | '\x27' => scanQuotedToken false
    | _ =>
      if c = '%' && (← get).column = 0 then
        closeBlocks none
        dropCandidate
        allowKey false
        scanDirective
      else if c = '-' && endsWord next then scanBlockEntry
      else if c = '?' && (flow || endsWord next) then scanExplicitKey
      else if c = ':' && (flow || endsWord next) then scanValue
      else if (c = '|' || c = '>') && !flow then
        dropCandidate
        allowKey true
        scanBlock (c = '|')
      else if startsPlain c next flow then scanPlainToken
      else failure
    return true

private def scanAll : (fuel : Nat) → Scan Unit
  | 0 => failure
  | fuel + 1 => do
    if ← scanToken then scanAll fuel

/-- Characters that may stand in a text. -/
private def isAllowed (c : Char) : Bool :=
  let n := c.toNat
  n = 9 || n = 10 || n = 13 || (0x20 ≤ n && n ≤ 0x7E) || n = 0x85 || (0xA0 ≤ n && n ≤ 0xFFFD)
    || 0x10000 ≤ n

/-- All tokens of a text; every one but the last takes a character at least. -/
def scan? (text : String) : Option (List Token) := do
  let chars := text.toList
  unless chars.all isAllowed do none
  let (_, s) ← (scanAll (chars.length + 1)).run { rest := chars }
  return s.tokens.toList

end Token
end Linkage.Yaml

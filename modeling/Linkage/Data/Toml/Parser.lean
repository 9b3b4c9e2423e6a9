import Linkage.Data.Toml.Moment
import Linkage.Data.Toml.Value

/-! Reading TOML documents. -/
namespace Linkage.Toml

/-- What is left of a text is read from the front. -/
abbrev Rest := List Char

private def isSpace (c : Char) : Bool := c = ' ' || c = '\t'

private def skipSpaces (cs : Rest) : Rest := cs.dropWhile isSpace

private def newline? : Rest → Option Rest
  | '\n' :: cs => some cs
  | '\r' :: '\n' :: cs => some cs
  | _ => none

/-- What follows line ends and spaces. -/
private def skipEmptyLines : Rest → Rest
  | '\r' :: '\n' :: cs => skipEmptyLines cs
  | c :: cs => if isSpace c || c = '\n' then skipEmptyLines cs else c :: cs
  | [] => []

/-- Characters that may stand in comments. -/
private def isPlain (c : Char) : Bool := c = '\t' || (c.toNat ≥ 32 && c.toNat ≠ 127)

private def skipComment : Rest → Rest
  | '#' :: cs => cs.dropWhile isPlain
  | cs => cs

/-- Skips blanks, comments and line ends. -/
private def skipLines : (fuel : Nat) → Rest → Rest
  | 0, cs => cs
  | fuel + 1, cs =>
    let cs := skipComment (skipSpaces cs)
    match newline? cs with
    | some cs => skipLines fuel cs
    | none => cs

/-! ## Strings -/

private def scalar? (digits : List Char) : Option Char := do
  let n ← Hex.toNat? digits
  if n.isValidChar then some (Char.ofNat n) else none

/-- What an escape after its backslash stands for. -/
private def escape? : Rest → Option (Char × Rest)
  | 'b' :: cs => some ('\x08', cs)
  | 't' :: cs => some ('\t', cs)
  | 'n' :: cs => some ('\n', cs)
  | 'f' :: cs => some ('\x0c', cs)
  | 'r' :: cs => some ('\r', cs)
  | '"' :: cs => some ('"', cs)
  | '\\' :: cs => some ('\\', cs)
  | 'u' :: cs =>
    if (cs.take 4).length < 4 then none else (scalar? (cs.take 4)).map (·, cs.drop 4)
  | 'U' :: cs =>
    if (cs.take 8).length < 8 then none else (scalar? (cs.take 8)).map (·, cs.drop 8)
  | _ => none

/-- A string with escapes, up to its closing quote. -/
private def basic? : (fuel : Nat) → Rest → Option (List Char × Rest)
  | 0, _ | _, [] => none
  | _ + 1, '"' :: cs => some ([], cs)
  | fuel + 1, '\\' :: cs => do
    let (c, cs) ← escape? cs
    let (text, cs) ← basic? fuel cs
    return (c :: text, cs)
  | fuel + 1, c :: cs =>
    if isPlain c then (basic? fuel cs).map fun (text, cs) => (c :: text, cs) else none

/-- A string without escapes, up to its closing apostrophe. -/
private def literal? (cs : Rest) : Option (List Char × Rest) :=
  match cs.span fun c => isPlain c && c ≠ '\'' with
  | (text, '\'' :: cs) => some (text, cs)
  | _ => none

/-- Quotes in a string of several lines: three of them end it, and one or two may stand before
these. -/
private def quotes (mark : Char) (cs : Rest) : List Char × Bool × Rest :=
  let run := (cs.takeWhile (· = mark)).length
  if run < 3 then (List.replicate run mark, false, cs.drop run)
  else
    let kept := min (run - 3) 2
    (List.replicate kept mark, true, cs.drop (kept + 3))

/-- A string of several lines, up to its closing marks. A backslash at the end of a line joins it
to what comes next. -/
private def multiline? (mark : Char) : (fuel : Nat) → Rest → Option (List Char × Rest)
  | 0, _ | _, [] => none
  | fuel + 1, c :: cs =>
    let more (found : List Char) (rest : Rest) : Option (List Char × Rest) :=
      (multiline? mark fuel rest).map fun (text, cs) => (found ++ text, cs)
    if c = mark then
      let (found, ends, rest) := quotes mark (c :: cs)
      if ends then some (found, rest) else more found rest
    else if c = '\\' && mark = '"' then
      match newline? (skipSpaces cs) with
      | some rest => more [] (skipEmptyLines rest)
      | none =>
        match escape? cs with
        | some (e, rest) => more [e] rest
        | none => none
    else
      match newline? (c :: cs) with
      | some rest => more ['\n'] rest
      | none => if isPlain c then more [c] cs else none

/-- A string of one of the four kinds. A line end right after three quotes is not part of it. -/
private def string? (cs : Rest) : Option (String × Rest) :=
  let body (mark : Char) (cs : Rest) := multiline? mark (cs.length + 1) ((newline? cs).getD cs)
  let found := match cs with
    | '"' :: '"' :: '"' :: cs => body '"' cs
    | '"' :: cs => basic? (cs.length + 1) cs
    | '\'' :: '\'' :: '\'' :: cs => body '\'' cs
    | '\'' :: cs => literal? cs
    | _ => none
  found.map fun (text, cs) => (String.ofList text, cs)

/-! ## Names -/

private def name? : Rest → Option (String × Rest)
  | '"' :: cs => (basic? (cs.length + 1) cs).map fun (t, cs) => (String.ofList t, cs)
  | '\'' :: cs => (literal? cs).map fun (t, cs) => (String.ofList t, cs)
  | cs =>
    match cs.span isBareChar with
    | ([], _) => none
    | (t, cs) => some (String.ofList t, cs)

/-- The depth beyond which neither names nor values may be nested. -/
def depthLimit : Nat := 80

private def names? : (fuel : Nat) → Rest → Option (List String × Rest)
  | 0, _ => none
  | fuel + 1, cs => do
    let (n, cs) ← name? (skipSpaces cs)
    match skipSpaces cs with
    | '.' :: cs =>
      let (ns, cs) ← names? fuel cs
      return (n :: ns, cs)
    | cs => return ([n], cs)

/-- Names joined by dots. -/
private def path? (cs : Rest) : Option (List String × Rest) := names? (depthLimit - 1) cs

/-! ## Numbers -/

/-- Digits, between which single underscores may stand. -/
private def digitRun? (isDigit : Char → Bool) (cs : Rest) : Option (List Char × Rest) :=
  let (run, rest) := cs.span fun c => isDigit c || c = '_'
  let parts := run.splitOn '_'
  if parts.any (·.isEmpty) then none else some (parts.flatten, rest)

private def sign (cs : Rest) : List Char × Rest :=
  match cs with
  | '+' :: cs => (['+'], cs)
  | '-' :: cs => (['-'], cs)
  | cs => ([], cs)

/-- Decimal digits with no needless zero in front, and the sign before them. -/
private def decimal? (cs : Rest) : Option (List Char × Rest) :=
  let (s, cs) := sign cs
  match cs with
  | '0' :: cs => some (s ++ ['0'], cs)
  | cs => (digitRun? isAsciiDigit cs).map fun (ds, cs) => (s ++ ds, cs)

def integer (digits : List Char) : Option Toml := do
  let (s, ds) := sign digits
  let n : Int ← Decimal.digits? ds
  let n := if s = ['-'] then -n else n
  if -0x8000000000000000 ≤ n && n < 0x8000000000000000 then some (.int n) else none

/-- An integer in a base that is a power of two. -/
def based? (base : Nat) (cs : Rest) : Option (Toml × Rest) := do
  let value (c : Char) : Nat := (Hex.digit? c).getD 16
  let (ds, cs) ← digitRun? (fun c => value c < base) cs
  let n := ds.foldl (fun n c => n * base + value c) 0
  if n < 1 <<< 63 then some (.int n, cs) else none

private def fractionPart? : Rest → Option (List Char × Rest)
  | '.' :: cs => (digitRun? isAsciiDigit cs).map fun (ds, cs) => ('.' :: ds, cs)
  | cs => some ([], cs)

private def exponentPart? : Rest → Option (List Char × Rest)
  | c :: cs =>
    if c = 'e' || c = 'E' then
      let (s, cs) := sign cs
      (digitRun? isAsciiDigit cs).map fun (ds, cs) => ('e' :: s ++ ds, cs)
    else some ([], c :: cs)
  | [] => some ([], [])

def word? (word : String) (value : Toml) (cs : Rest) : Option (Toml × Rest) :=
  if word.toList.isPrefixOf cs then some (value, cs.drop word.length) else none

def special? (cs : Rest) : Option (Toml × Rest) :=
  let (s, cs) := sign cs
  let signed (f : Float) : Toml := .float (if s = ['-'] then -f else f)
  (word? "inf" (signed (Float.ofBits 0x7FF0000000000000)) cs).orElse fun _ =>
    word? "nan" (signed (Float.ofBits 0x7FF8000000000000)) cs

/-- An integer, or a float if a fraction or an exponent follows. No float may be too large. -/
def number? (cs : Rest) : Option (Toml × Rest) :=
  match cs with
  | '0' :: 'x' :: cs => based? 16 cs
  | '0' :: 'o' :: cs => based? 8 cs
  | '0' :: 'b' :: cs => based? 2 cs
  | _ => do
    let (whole, cs) ← decimal? cs
    let (fraction, cs) ← fractionPart? cs
    let (exponent, cs) ← exponentPart? cs
    if fraction.isEmpty && exponent.isEmpty then return (← integer whole, cs)
    else
      let f := Binary64.ofDecimal (← Decimal.float? (whole ++ fraction ++ exponent))
      if f == Float.ofBits 0x7FF0000000000000 then none else some (.float f, cs)

def numeral? (cs : Rest) : Option (Toml × Rest) :=
  match Moment.read? cs with
  | some (text, cs) => some (.moment text, cs)
  | none => (special? cs).orElse fun _ => number? cs

/-! ## Tables in the making -/

/-- What a name in a table stands for while the document is read. -/
inductive Entry where
  | value (value : Toml)
  /-- A table; it is implicit as long as only names below it were given, and dotted if they were
  joined by dots. -/
  | table (implicit dotted : Bool) (members : List (String × Entry))
  /-- Tables that are listed under one name; the last of them is open. -/
  | tables (items : List (List (String × Entry)))

abbrev Entries := List (String × Entry)

def replace (entries : Entries) (name : String) (e : Entry) : Entries :=
  entries.map fun (n, old) => if n = name then (n, e) else (n, old)

/-- Changes the table that a path leads to; tables on the way are made where there are none. Dotted
names do not lead into tables with a heading. -/
def within (dotted : Bool) (change : (isDotted : Bool) → Entries → Option Entries) :
    (path : List String) → (isDotted : Bool) → Entries → Option Entries
  | [], isDotted, entries => change isDotted entries
  | name :: path, _, entries =>
    match entries.lookup name with
    | none => do
      return entries ++ [(name, .table true dotted (← within dotted change path dotted []))]
    | some (.value _) => none
    | some (.table implicit isDotted inner) =>
      if dotted && !implicit then none
      else do
        return replace entries name (.table implicit isDotted (← within dotted change path isDotted inner))
    | some (.tables items) => do
      let last ← items.getLast?
      return replace entries name (.tables (items.dropLast ++ [← within dotted change path false last]))

/-- Gives a name below a table its value. -/
def assign (path : List String) (value : Toml) (isDotted : Bool) (entries : Entries) :
    Option Entries := do
  let name ← path.getLast?
  let parents := path.dropLast
  within true (fun isDotted entries =>
    if isDotted == parents.isEmpty || (entries.lookup name).isSome then none
    else some (entries ++ [(name, .value value)])) parents isDotted entries

/-- Opens the table under a heading. -/
def openTable (path : List String) (root : Entries) : Option Entries := do
  let name ← path.getLast?
  within false (fun _ entries =>
    match entries.lookup name with
    | none => some (entries ++ [(name, .table false false [])])
    | some (.table true false inner) => some (replace entries name (.table false false inner))
    | some _ => none) path.dropLast false root

/-- Opens one more table of those that are listed under a heading. -/
def openListed (path : List String) (root : Entries) : Option Entries := do
  let name ← path.getLast?
  within false (fun _ entries =>
    match entries.lookup name with
    | none => some (entries ++ [(name, .tables [[]])])
    | some (.tables items) => some (replace entries name (.tables (items ++ [[]])))
    | some _ => none) path.dropLast false root

def sortMembers (members : List (String × Toml)) : List (String × Toml) :=
  members.mergeSort fun a b => a.1 ≤ b.1

mutual
def Entry.toToml : Entry → Toml
  | .value value => value
  | .table _ _ members => .table (sortMembers (membersToToml members))
  | .tables items => .arr (itemsToToml items)

def membersToToml : List (String × Entry) → List (String × Toml)
  | [] => []
  | (name, e) :: members => (name, e.toToml) :: membersToToml members

def itemsToToml : List (List (String × Entry)) → List Toml
  | [] => []
  | members :: items => .table (sortMembers (membersToToml members)) :: itemsToToml items
end

/-! ## Values -/

mutual
/-- A value of nesting below `depth`. -/
def value? : (depth fuel : Nat) → Rest → Option (Toml × Rest)
  | _, 0, _ => none
  | depth, fuel + 1, cs =>
    match cs with
    | '"' :: _ | '\'' :: _ => (string? cs).map fun (text, cs) => (.str text, cs)
    | '[' :: cs =>
      match depth with
      | 0 => none
      | depth + 1 => (items? depth fuel cs).map fun (items, cs) => (.arr items, cs)
    | '\x7b' :: cs =>
      match depth, skipSpaces cs with
      | 0, _ => none
      | _, '\x7d' :: cs => some (.table [], cs)
      | depth + 1, cs =>
        (pairs? depth fuel cs []).map fun (entries, cs) =>
          (.table (sortMembers (membersToToml entries)), cs)
    | 't' :: _ => word? "true" (.bool true) cs
    | 'f' :: _ => word? "false" (.bool false) cs
    | _ => numeral? cs

/-- The items of an array up to its closing bracket. -/
def items? : (depth fuel : Nat) → Rest → Option (List Toml × Rest)
  | _, 0, _ => none
  | depth, fuel + 1, cs =>
    match skipLines (cs.length + 1) cs with
    | ']' :: cs => some ([], cs)
    | cs => do
      let (item, cs) ← value? depth fuel cs
      match skipLines (cs.length + 1) cs with
      | ']' :: cs => return ([item], cs)
      | ',' :: cs =>
        let (items, cs) ← items? depth fuel cs
        return (item :: items, cs)
      | _ => none

/-- The members of a table on one line up to its closing brace. -/
def pairs? : (depth fuel : Nat) → Rest → Entries → Option (Entries × Rest)
  | _, 0, _, _ => none
  | depth, fuel + 1, cs, entries => do
    let (path, cs) ← path? cs
    let '=' :: cs := cs | none
    let (value, cs) ← value? depth fuel (skipSpaces cs)
    let entries ← assign path value false entries
    match skipSpaces cs with
    | '\x7d' :: cs => return (entries, cs)
    | ',' :: cs => pairs? depth fuel cs entries
    | _ => none
end

/-! ## Documents -/

/-- A document as far as it was read: all its tables, and where the open one is. -/
structure Draft where
  root : Entries := []
  current : List String := []

/-- One line, without its end. -/
def line? (draft : Draft) (cs : Rest) : Option (Draft × Rest) :=
  match cs with
  | '[' :: '[' :: cs => do
    let (path, cs) ← path? cs
    let ']' :: ']' :: cs := cs | none
    return (⟨← openListed path draft.root, path⟩, cs)
  | '[' :: cs => do
    let (path, cs) ← path? cs
    let ']' :: cs := cs | none
    return (⟨← openTable path draft.root, path⟩, cs)
  | [] | '#' :: _ | '\n' :: _ | '\r' :: _ => some (draft, cs)
  | cs => do
    let (path, cs) ← path? cs
    let '=' :: cs := cs | none
    let (value, cs) ← value? (depthLimit - 1) (cs.length + 1) (skipSpaces cs)
    let root ← within false (assign path value) draft.current false draft.root
    return ({ draft with root }, cs)

def document? : (fuel : Nat) → Draft → Rest → Option Draft
  | 0, _, _ => none
  | fuel + 1, draft, cs => do
    let (draft, cs) ← line? draft (skipSpaces cs)
    let cs := skipComment (skipSpaces cs)
    if cs.isEmpty then some draft else document? fuel draft (← newline? cs)

/-- The table that a document writes. A byte order mark in front of it does not count. -/
def parse? (text : String) : Option Toml :=
  let cs := match text.toList with
    | '\ufeff' :: cs => cs
    | cs => cs
  (document? (cs.length + 1) {} cs).map fun draft => .table (sortMembers (membersToToml draft.root))

end Linkage.Toml

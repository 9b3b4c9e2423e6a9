import Linkage.Data.Yaml.Token

/-! YAML documents as trees. -/
namespace Linkage.Yaml

/-- A node with its tag, if it has one. -/
inductive Node where
  | scalar (text : String) (style : ScalarStyle) (tag : Option String)
  | sequence (items : List Node) (tag : Option String)
  | mapping (pairs : List (Node × Node)) (tag : Option String)
  /-- A node that stands elsewhere, under the number of an anchor. -/
  | alias (anchor : Nat)
  deriving Repr, Inhabited

/-- A tree, and the nodes under the numbers of its anchors. -/
structure Document where
  root : Node
  anchored : List (Nat × Node) := []
  /-- How many nodes, and ends of collections, there are. -/
  size : Nat := 1
  deriving Repr, Inhabited

namespace Node

/-- What is left to read, the replacements of tag handles, and what has anchors. -/
structure TreeState where
  rest : List Token
  handles : List (String × String) := []
  /-- The numbers of the names of anchors. -/
  names : List (String × Nat) := []
  /-- The numbers of all anchors, the last one first. -/
  anchors : List Nat := []
  /-- The nodes with anchors, by the place of their anchor among all. -/
  nodes : List (Nat × Node) := []
  size : Nat := 0

/-- A step of reading, which fails where the tokens make no tree. -/
abbrev Tree := StateT TreeState Option

private def peek : Tree Token := do
  let some t := (← get).rest.head? | failure
  return t

private def skip : Tree Unit := modify fun s => { s with rest := s.rest.drop 1 }

private def expect (t : Token) : Tree Unit := do
  if (← peek) = t then skip else failure

/-- What stands where nothing is written. -/
private def nothing (tag : Option String) : Node := .scalar "" .plain tag

private def resolveTag (t : TagText) : Tree String := do
  if t.handle.isEmpty then return t.suffix
  let standard := [("!", "!"), ("!!", "tag:yaml.org,2002:")]
  let some start := ((← get).handles ++ standard).lookup t.handle | failure
  return start ++ t.suffix

private def count (n : Nat) : Tree Unit := modify fun s => { s with size := s.size + n }

/-- Takes note of an anchor before its node is read. A name that is used again takes the next number
of a new name, which it shares with that. -/
private def addAnchor (name : String) : Tree Unit :=
  modify fun s =>
    let number := s.names.length
    { s with
      names := (name, number) :: s.names.filter (·.1 ≠ name)
      anchors := number :: s.anchors }

/-- The anchor and the tag before a node, in either order. -/
private def properties : Tree (Option String × Option String) := do
  match ← peek with
  | .anchor name =>
    skip
    match ← peek with
    | .tag t =>
      skip
      return (some name, some (← resolveTag t))
    | _ => return (some name, none)
  | .tag t =>
    skip
    match ← peek with
    | .anchor name =>
      skip
      return (some name, some (← resolveTag t))
    | _ => return (none, some (← resolveTag t))
  | _ => return (none, none)

mutual
/-- A node; `block` allows blocks, `indentless` a sequence at the indentation of its key. -/
private def node (block indentless : Bool) : (fuel : Nat) → Tree Node
  | 0 => failure
  | fuel + 1 => do
    if let .alias name ← peek then
      skip
      count 1
      let some number := (← get).names.lookup name | failure
      return .alias number
    let (anchor, tag) ← properties
    let place := (← get).anchors.length
    if let some name := anchor then addAnchor name
    let n ← do
      match ← peek with
      | .scalar text style =>
        skip
        count 1
        pure (Node.scalar text style (tag.filter (· ≠ "!")))
      | .flowSequenceStart =>
        skip
        count 2
        pure (.sequence (← flowItems true fuel) tag)
      | .flowMappingStart =>
        skip
        count 2
        pure (.mapping (← flowPairs true fuel) tag)
      | t =>
        if t = .blockEntry && indentless then
          count 2
          pure (.sequence (← indentlessItems fuel) tag)
        else if t = .blockSequenceStart && block then
          skip
          count 2
          pure (.sequence (← blockItems fuel) tag)
        else if t = .blockMappingStart && block then
          skip
          count 2
          pure (.mapping (← blockPairs fuel) tag)
        else if anchor.isSome || tag.isSome then
          count 1
          pure (nothing tag)
        else failure
    if anchor.isSome then
      modify fun s => { s with nodes := (place, n) :: s.nodes }
    return n

/-- A node, unless one of `enders` says that there is none. -/
private def nodeUnless (enders : List Token) (block indentless : Bool) : (fuel : Nat) → Tree Node
  | 0 => failure
  | fuel + 1 => do
    if enders.contains (← peek) then
      count 1
      return nothing none
    else node block indentless fuel

private def blockItems : (fuel : Nat) → Tree (List Node)
  | 0 => failure
  | fuel + 1 => do
    match ← peek with
    | .blockEntry =>
      skip
      let item ← nodeUnless [.blockEntry, .blockEnd] true false fuel
      return item :: (← blockItems fuel)
    | t =>
      if t = .blockEnd then
        skip
        return []
      else failure

private def indentlessItems : (fuel : Nat) → Tree (List Node)
  | 0 => failure
  | fuel + 1 => do
    if (← peek) = .blockEntry then
      skip
      let item ← nodeUnless [.blockEntry, .key, .value, .blockEnd] true false fuel
      return item :: (← indentlessItems fuel)
    else return []

private def blockPairs : (fuel : Nat) → Tree (List (Node × Node))
  | 0 => failure
  | fuel + 1 => do
    match ← peek with
    | .key =>
      skip
      let k ← nodeUnless [.key, .value, .blockEnd] true true fuel
      let v ←
        if (← peek) = .value then do
          skip
          nodeUnless [.key, .value, .blockEnd] true true fuel
        else do
          count 1
          pure (nothing none)
      return (k, v) :: (← blockPairs fuel)
    | t =>
      if t = .blockEnd then
        skip
        return []
      else failure

/-- The items of a sequence between brackets. After a key mark without a key, a token is passed
over. -/
private def flowItems (first : Bool) : (fuel : Nat) → Tree (List Node)
  | 0 => failure
  | fuel + 1 => do
    if (← peek) = .flowSequenceEnd then
      skip
      return []
    unless first do expect .flowEntry
    match ← peek with
    | .flowSequenceEnd =>
      skip
      return []
    | .key =>
      skip
      let enders := [Token.value, .flowEntry, .flowSequenceEnd]
      let keyless := enders.contains (← peek)
      count 2
      let k ← nodeUnless enders false false fuel
      if keyless then skip
      let v ←
        if (← peek) = .value then do
          skip
          nodeUnless [.flowEntry, .flowSequenceEnd] false false fuel
        else do
          count 1
          pure (nothing none)
      return .mapping [(k, v)] none :: (← flowItems false fuel)
    | _ =>
      let item ← node false false fuel
      return item :: (← flowItems false fuel)

private def flowPairs (first : Bool) : (fuel : Nat) → Tree (List (Node × Node))
  | 0 => failure
  | fuel + 1 => do
    if (← peek) = .flowMappingEnd then
      skip
      return []
    unless first do expect .flowEntry
    match ← peek with
    | .flowMappingEnd =>
      skip
      return []
    | .key =>
      skip
      let k ← nodeUnless [.value, .flowEntry, .flowMappingEnd] false false fuel
      let v ←
        if (← peek) = .value then do
          skip
          nodeUnless [.flowEntry, .flowMappingEnd] false false fuel
        else do
          count 1
          pure (nothing none)
      return (k, v) :: (← flowPairs false fuel)
    | _ =>
      let k ← node false false fuel
      count 1
      return (k, nothing none) :: (← flowPairs false fuel)
end

/-- The directives before a document. -/
private def directives : (fuel : Nat) → (version : Bool) → Tree Unit
  | 0, _ => failure
  | fuel + 1, version => do
    match ← peek with
    | .versionDirective =>
      if version then failure
      skip
      directives fuel true
    | .tagDirective handle replacement =>
      skip
      if ((← get).handles.lookup handle).isSome then failure
      modify fun s => { s with handles := (handle, replacement) :: s.handles }
      directives fuel version
    | _ => return

/-- The only document of a text; a text without one has nothing in it. -/
def document (fuel : Nat) : Tree Node := do
  if (← peek) = .streamEnd then return nothing none
  let first ← peek
  directives fuel false
  let explicit := (← peek) = .documentStart
  if explicit then skip
  else if (← peek) ≠ first then failure
  let n ←
    if explicit && [Token.documentStart, .documentEnd, .streamEnd].contains (← peek) then
      count 1
      pure (nothing none)
    else node true false fuel
  modify fun s => { s with rest := s.rest.dropWhile (· = .documentEnd) }
  expect .streamEnd
  return n

end Node

namespace Document

/-- The tree that a text writes. -/
def parse? (text : String) : Option Document := do
  let tokens ← Token.scan? text
  let (root, s) ← (Node.document (3 * tokens.length + 4)).run { rest := tokens }
  let places := s.anchors.reverse.zipIdx.reverse
  return {
    root
    anchored := s.anchors.eraseDups.filterMap fun number => do
      return (number, ← s.nodes.lookup (← places.lookup number))
    size := max 1 s.size }

/-- The node that a node stands for, which is itself if it is no alias. -/
def target? (d : Document) : Node → Option Node
  | .alias number => d.anchored.lookup number
  | n => some n

end Document
end Linkage.Yaml

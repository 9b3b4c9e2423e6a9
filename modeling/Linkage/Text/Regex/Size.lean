import Linkage.Text.Regex.Normal

/-! The memory that an automaton for an expression takes. It reads the bytes of UTF-8, forwards or
backwards. A state takes 32 bytes, and more where it leads to several others: 8 for each step on a
byte, 4 for each step without one. -/
namespace Linkage

/-- The first and the last of successive bytes. -/
abbrev ByteRange := Nat × Nat

namespace CharSet

/-- Where a range of code points has to be cut, so that the bytes at each place of the encoded
characters vary without regard to the others. -/
private def cut? (first last : Nat) : Option Nat :=
  let byLength := [0x7F, 0x7FF, 0xFFFF].find? fun n => first ≤ n && n < last
  let byBlock := [0x40, 0x1000, 0x40000].findSome? fun block =>
    if first / block = last / block then none
    else if first % block ≠ 0 then some ((first / block + 1) * block)
    else if last % block ≠ block - 1 then some (last / block * block)
    else none
  match byLength with
  | some n => some (n + 1)
  | none => if last ≤ 0x7F then none else byBlock

/-- The parts of a range that need no cut, at most `2 ^ rounds` of them. -/
private def uncut : (rounds : Nat) → (first last : Nat) → List (Nat × Nat)
  | 0, first, last => [(first, last)]
  | rounds + 1, first, last =>
    match cut? first last with
    | some next => uncut rounds first (next - 1) ++ uncut rounds next last
    | none => [(first, last)]

private def utf8Bytes (n : Nat) : List Nat :=
  let rest (places : Nat) : List Nat :=
    ((List.range places).map fun i => 128 + n >>> (6 * i) % 64).reverse
  if n < 0x80 then [n]
  else if n < 0x800 then (192 + n / 64) :: rest 1
  else if n < 0x10000 then (224 + n >>> 12) :: rest 2
  else (240 + n >>> 18) :: rest 3

/-- The sequences of bytes that encode the characters of a set, in ascending order. -/
def byteSequences (s : CharSet) : List (List ByteRange) :=
  (s.ranges.flatMap fun (first, last) => uncut 20 first last).map fun (first, last) =>
    (utf8Bytes first).zip (utf8Bytes last)

end CharSet

/-- The sequences that begin alike, one after the other, without their common beginnings. -/
private def grouped (sequences : List (List ByteRange)) :
    List (ByteRange × List (List ByteRange)) :=
  sequences.foldr (fun bytes groups =>
    match bytes, groups with
    | [], _ => groups
    | b :: tail, (first, tails) :: rest =>
      if b = first then (first, tail :: tails) :: rest else (b, [tail]) :: groups
    | b :: tail, [] => [(b, [tail])]) []

/-- A state that reads one byte: where each range of bytes leads, by number. -/
abbrev ByteState := List (ByteRange × Nat)

/-- The number of the state that reads one of some sequences. States that read the same are one;
number zero is where all sequences end. -/
private def stateFor : (places : Nat) → List (List ByteRange) → StateM (List ByteState) Nat
  | 0, _ => return 0
  | places + 1, sequences => do
    match grouped sequences with
    | [] => return 0
    | groups =>
      let state ← groups.mapM fun (first, tails) => return (first, ← stateFor places tails)
      let states ← get
      match states.idxOf? state with
      | some i => return states.length - i
      | none =>
        set (state :: states)
        return states.length + 1

/-- How many states read the sequences if common beginnings alone are shared. -/
private def branches : (places : Nat) → List (List ByteRange) → Nat
  | 0, _ => 0
  | places + 1, sequences =>
    ((grouped sequences).map fun (_, tails) => branches places tails + 1).sum

namespace CharSet

/-- The memory of states that read a character of a set. -/
def memory (backwards : Bool) (s : CharSet) : Nat :=
  let sequences := s.byteSequences
  if s.isAscii then 64 + 8 * s.ranges.length
  else if backwards then 64 + 32 * branches 4 sequences + 4 * sequences.length
  else
    let (_, states) := (stateFor 4 sequences).run []
    states.foldr (fun state bytes => 32 + 8 * state.length + bytes) 32

/-- No less than `memory` in both directions. -/
def memoryBound (s : CharSet) : Nat :=
  if s.isAscii then s.memory false else 72 + 160 * s.byteSequences.length

end CharSet

/-- The texts that a state can read, byte by byte. What is added after a text that ends here does
not share steps with what was added before. -/
inductive Texts where
  | node (closed : List (List (Nat × Texts))) (steps : List (Nat × Texts))
  deriving Inhabited

namespace Texts

/-- Nothing but the empty text can be read. -/
private def isLeaf : Texts → Bool
  | .node closed steps => steps.isEmpty && closed.all List.isEmpty

/-- Adds the empty text. -/
private def finish (t : Texts) : Texts :=
  match t with
  | .node closed steps =>
    if t.isLeaf && !closed.isEmpty then t else .node (closed ++ [steps]) []

/-- Adds a text. -/
private def insert : List Nat → Texts → Texts
  | [], t => t.finish
  | b :: bs, .node closed steps =>
    let added := insert bs ((steps.lookup b).getD (.node [] []))
    let (before, after) := steps.span (·.1 ≠ b)
    .node closed (before ++ (b, added) :: after.drop 1)

/-- The memory of the states that read one of the texts, without the one at the end. -/
private def memory : (depth : Nat) → Texts → Nat
  | 0, _ => 0
  | depth + 1, .node closed steps =>
    let chunks := (closed ++ [steps]).filter (!·.isEmpty)
    let below := (chunks.flatten.filter (!·.2.isLeaf)).map fun (_, t) => t.memory depth
    let own := chunks.map fun chunk => if chunk.length = 1 then 32 else 32 + 8 * chunk.length
    32 + 4 * (chunks.length + closed.length) + own.sum + below.sum

end Texts

/-- The memory of the states for a part of an expression. -/
structure PartMemory where
  bytes : Nat
  /-- What a step out of the part adds. -/
  leaving : Nat := 0

namespace PartMemory

/-- The memory of a part that is read several times. -/
def repeated (p : PartMemory) (isNeverEmpty : Bool) (least : Nat) (most : Option Nat) :
    PartMemory :=
  let exactly (n : Nat) : Nat := if n = 0 then 32 else n * p.bytes + (n - 1) * p.leaving
  match least, most with
  | 0, none =>
    if isNeverEmpty then ⟨p.bytes + p.leaving + 36, 4⟩ else ⟨p.bytes + p.leaving + 112, 0⟩
  | 1, none => ⟨p.bytes + p.leaving + 36, 4⟩
  | n + 1, none => ⟨exactly n + p.bytes + 2 * p.leaving + 36, 4⟩
  | 0, some 1 => ⟨p.bytes + p.leaving + 72, 0⟩
  | _, some most =>
    if least = most then ⟨exactly most, p.leaving⟩
    else
      let more := (most - least) * (p.bytes + p.leaving + 40)
      ⟨exactly least + (if least = 0 then 0 else p.leaving) + 32 + more, 0⟩

end PartMemory

namespace Regex

/-- The bytes of a text. -/
private def bytesOf (cs : List Char) : List Nat := (String.ofList cs).toUTF8.toList.map (·.toNat)

/-- The texts of expressions that match no others and are not empty. -/
private def texts? (rs : List Regex) : Option (List (List Nat)) :=
  rs.mapM fun r => match r with | .text (c :: cs) => some (bytesOf (c :: cs)) | _ => none

private def alternatives (parts : List PartMemory) : PartMemory :=
  ⟨parts.foldr (fun p bytes => p.bytes + 4 + p.leaving + bytes) 64, 0⟩

private def sequenced (backwards : Bool) (parts : List PartMemory) : PartMemory :=
  let ordered := if backwards then parts.reverse else parts
  ⟨ordered.foldr (·.bytes + ·) 0 + ordered.dropLast.foldr (·.leaving + ·) 0,
    (ordered.getLast?.map (·.leaving)).getD 0⟩

mutual

/-- The memory of the states for an expression, if those for a set take what `ofSet` says. Groups
are not told apart backwards. -/
def memory (backwards : Bool) (ofSet : CharSet → Nat) : Regex → PartMemory
  | .text [] => ⟨32, 0⟩
  | .text cs => ⟨32 * (bytesOf cs).length, 0⟩
  | .char set => ⟨ofSet set, 0⟩
  | .boundary _ => ⟨32, 0⟩
  | .seq rs => sequenced backwards (memories backwards ofSet rs)
  | .alt rs =>
    match texts? rs with
    | some texts =>
      let texts := if backwards then texts.map List.reverse else texts
      let all := texts.foldl (fun t bytes => t.insert bytes) (Texts.node [] [])
      ⟨32 + all.memory ((texts.map List.length).foldl max 0 + 1), 0⟩
    | none => alternatives (memories backwards ofSet rs)
  | .times r least most _ =>
    (memory backwards ofSet r).repeated (r.extent.shortest.any (0 < ·)) least most
  | .group _ r =>
    let part := memory backwards ofSet r
    if backwards then part else ⟨part.bytes + part.leaving + 64, 0⟩

def memories (backwards : Bool) (ofSet : CharSet → Nat) : List Regex → List PartMemory
  | [] => []
  | r :: rs => memory backwards ofSet r :: memories backwards ofSet rs

end

/-- The memory of the whole automaton. Where a match may begin at any place, it starts by reading
over what stands before. -/
def totalMemory (backwards : Bool) (ofSet : CharSet → Nat) (r : Regex) : Nat :=
  let part := memory backwards ofSet (if backwards then r else .group 0 r)
  let isAnchored := if backwards then r.extent.atEnd else r.extent.atStart
  part.bytes + part.leaving + 32 + (if isAnchored then 32 else 112)

/-- The memory that an automaton may take. -/
def memoryLimit : Nat := 10 <<< 20

/-- The automatons of an expression are not too large. -/
def isSmall (r : Regex) : Bool :=
  let fits (backwards : Bool) (ofSet : CharSet → Nat) : Bool :=
    r.totalMemory backwards ofSet ≤ memoryLimit
  (fits false CharSet.memoryBound && fits true CharSet.memoryBound)
    || (fits false (CharSet.memory false) && fits true (CharSet.memory true))

end Regex
end Linkage

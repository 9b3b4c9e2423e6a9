import Linkage.Text.Property

/-! Regular expressions and the texts that contain a match of one. -/
namespace Linkage

/-- What holds between two characters, without a character of its own. -/
inductive Boundary where
  | textStart | textEnd
  | lineStart (crlf : Bool) | lineEnd (crlf : Bool)
  | wordEdge (unicode : Bool) | noWordEdge (unicode : Bool)
  | wordStart (unicode : Bool) | wordEnd (unicode : Bool)
  | wordStartHalf (unicode : Bool) | wordEndHalf (unicode : Bool)
  deriving Repr, DecidableEq

/-- A regular expression. -/
inductive Regex where
  | text (cs : List Char)
  | char (set : CharSet)
  | boundary (b : Boundary)
  | seq (rs : List Regex)
  | alt (rs : List Regex)
  /-- From `least` times to `most` times, or any number from `least`. Whether fewer times are looked
  for first has no effect on which texts contain a match. -/
  | times (r : Regex) (least : Nat) (most : Option Nat) (fewFirst : Bool)
  /-- A part with the number that refers to it. -/
  | group (number : Nat) (r : Regex)
  deriving Repr, Inhabited

/-- Letters, digits and the underscore of ASCII. -/
def asciiWordChars : CharSet := wordChars.inter .ascii

namespace Boundary

/-- The boundary lies between these two neighbours, of which the ends of the text lack one. -/
def holds (b : Boundary) (before after : Option Char) : Bool :=
  let isWord (unicode : Bool) (c : Option Char) :=
    c.any (if unicode then wordChars else asciiWordChars).contains
  match b with
  | .textStart => before.isNone
  | .textEnd => after.isNone
  | .lineStart false => before.all (· = '\n')
  | .lineEnd false => after.all (· = '\n')
  | .lineStart true => before.all (· = '\n') || (before = some '\r' && after ≠ some '\n')
  | .lineEnd true => after.all (· = '\r') || (after = some '\n' && before ≠ some '\r')
  | .wordEdge u => isWord u before != isWord u after
  | .noWordEdge u => isWord u before == isWord u after
  | .wordStart u => !isWord u before && isWord u after
  | .wordEnd u => isWord u before && !isWord u after
  | .wordStartHalf u => !isWord u before
  | .wordEndHalf u => !isWord u after

end Boundary

namespace Regex

/-- The positions of two ascending lists. -/
private def merge : List Nat → List Nat → List Nat
  | [], bs => bs
  | as, [] => as
  | a :: as, b :: bs =>
    if a < b then a :: merge as (b :: bs)
    else if b < a then b :: merge (a :: as) bs
    else a :: merge as bs
termination_by as bs => as.length + bs.length

/-- Applies `step` to what is new until nothing is, at most `rounds` times. -/
private def closure (step : List Nat → List Nat) : (rounds : Nat) → (all new : List Nat) → List Nat
  | 0, all, _ => all
  | rounds + 1, all, new =>
    match (step new).filter (· ∉ all) with
    | [] => all
    | found => closure step rounds (merge all found) found

/-- Applies `step` `n` times; what stays the same stays so. -/
private def iterate (step : List Nat → List Nat) : (n : Nat) → List Nat → List Nat
  | 0, starts => starts
  | n + 1, starts =>
    let next := step starts
    if next = starts then starts else iterate step n next

/-- Applies `step` up to `n` times and keeps all that it leads to. -/
private def upTo (step : List Nat → List Nat) : (n : Nat) → (all new : List Nat) → List Nat
  | 0, all, _ => all
  | n + 1, all, new =>
    match step new with
    | [] => all
    | next => if next = new then all else upTo step n (merge all next) next

mutual

/-- The positions, in ascending order, where matches end that begin at one of `starts`. -/
def ends (chars : Array Char) : Regex → (starts : List Nat) → List Nat
  | .text cs, starts =>
    (starts.filter fun i => cs = (chars.extract i (i + cs.length)).toList).map (· + cs.length)
  | .char set, starts => (starts.filter fun i => chars[i]?.any set.contains).map (· + 1)
  | .boundary b, starts =>
    starts.filter fun i => b.holds (if i = 0 then none else chars[i - 1]?) chars[i]?
  | .seq rs, starts => endsOfAll chars rs starts
  | .alt rs, starts => endsOfAny chars rs starts
  | .times r least most _, starts =>
    let first := iterate (ends chars r) least starts
    match most with
    | none => closure (ends chars r) (chars.size + 1) first first
    | some most => upTo (ends chars r) (most - least) first first
  | .group _ r, starts => ends chars r starts

/-- The ends of matches of expressions one after the other. -/
def endsOfAll (chars : Array Char) : List Regex → (starts : List Nat) → List Nat
  | [], starts => starts
  | r :: rs, starts => endsOfAll chars rs (ends chars r starts)

/-- The ends of matches of one of several expressions. -/
def endsOfAny (chars : Array Char) : List Regex → (starts : List Nat) → List Nat
  | [], _ => []
  | r :: rs, starts => merge (ends chars r starts) (endsOfAny chars rs starts)

end

/-- Some part of the text is matched. -/
def isMatch (r : Regex) (text : String) : Bool :=
  let chars := text.toList.toArray
  !(r.ends chars (List.range (chars.size + 1))).isEmpty

end Regex
end Linkage

/-! Sets of characters, by the code points where they begin and end. -/
namespace Linkage

/-- A set that begins at its first bound, ends before the second, begins again at the third and so
on. Bounds ascend. -/
structure CharSet where
  bounds : List Nat := []
  deriving DecidableEq, Repr, Inhabited

namespace CharSet

/-- Whether code point `n` is in, if what lies below the bounds is or not. -/
private def isInside (n : Nat) : (inside : Bool) → (bounds : List Nat) → Bool
  | inside, [] => inside
  | inside, bound :: bounds => if n < bound then inside else isInside n (!inside) bounds

/-- The code point is in. -/
def holds (s : CharSet) (n : Nat) : Bool := isInside n false s.bounds

def contains (s : CharSet) (c : Char) : Bool := s.holds c.toNat

def isEmpty (s : CharSet) : Bool := s.bounds.isEmpty

/-- The characters from `first` to `last`. Halves of surrogate pairs are no characters. -/
def range (first last : Nat) : CharSet :=
  if last < first then {}
  else if first < 0xD800 && 0xDFFF < last then ⟨[first, 0xD800, 0xE000, last + 1]⟩
  else ⟨[first, last + 1]⟩

def single (c : Char) : CharSet := range c.toNat c.toNat

def ascii : CharSet := range 0 0x7F

/-- All characters. -/
def all : CharSet := range 0 0x10FFFF

/-- The bounds of what two sets with bounds `as` and `bs` make together. -/
private def merge (op : Bool → Bool → Bool) (inA inB : Bool) : (as bs : List Nat) → List Nat
  | [], [] => []
  | a :: as, [] => change a inA inB (!inA) inB (merge op (!inA) inB as [])
  | [], b :: bs => change b inA inB inA (!inB) (merge op inA (!inB) [] bs)
  | a :: as, b :: bs =>
    if a < b then change a inA inB (!inA) inB (merge op (!inA) inB as (b :: bs))
    else if b < a then change b inA inB inA (!inB) (merge op inA (!inB) (a :: as) bs)
    else change a inA inB (!inA) (!inB) (merge op (!inA) (!inB) as bs)
termination_by as bs => as.length + bs.length
where
  change (n : Nat) (inA inB inA' inB' : Bool) (rest : List Nat) : List Nat :=
    if op inA inB = op inA' inB' then rest else n :: rest

/-- What is in one of two sets or in both. -/
def union (a b : CharSet) : CharSet := ⟨merge (· || ·) false false a.bounds b.bounds⟩

/-- What is in both of two sets. -/
def inter (a b : CharSet) : CharSet := ⟨merge (· && ·) false false a.bounds b.bounds⟩

/-- What is in `a` and not in `b`. -/
def minus (a b : CharSet) : CharSet := ⟨merge (fun a b => a && !b) false false a.bounds b.bounds⟩

/-- What is in one of two sets alone. -/
def exclusive (a b : CharSet) : CharSet := ⟨merge xor false false a.bounds b.bounds⟩

/-- All characters that are not in a set. -/
def compl (s : CharSet) : CharSet := all.minus s

def unions (sets : List CharSet) : CharSet := sets.foldl union {}

/-- The set of the code points in a list. -/
def ofList (ns : List Nat) : CharSet :=
  ⟨(ns.mergeSort (· ≤ ·)).foldr (fun n bounds =>
    match bounds with
    | next :: rest =>
      if next = n then bounds
      else if next = n + 1 then n :: rest
      else n :: (n + 1) :: bounds
    | [] => [n, n + 1]) []⟩

/-- The set is made of ASCII characters. -/
def isAscii (s : CharSet) : Bool := s.bounds.all (· ≤ 128)

/-- The first and the last code points of the unbroken parts of a set. -/
def ranges (s : CharSet) : List (Nat × Nat) := pairs s.bounds
where
  pairs : List Nat → List (Nat × Nat)
    | first :: bound :: rest => (first, bound - 1) :: pairs rest
    | _ => []

/-- The code points of a set. -/
def toList (s : CharSet) : List Nat :=
  s.ranges.flatMap fun (first, last) => (List.range (last + 1 - first)).map (first + ·)

end CharSet

/-- Numbers in base 26. Their digits are lower-case letters, but for the last one, which is an
upper-case letter; other characters stand for nothing. -/
def tableNumbers (text : String) : List Nat := go 0 text.toList
where
  go (n : Nat) : List Char → List Nat
    | [] => []
    | c :: cs =>
      if c.isUpper then (n * 26 + (c.toNat - 65)) :: go 0 cs
      else if c.isLower then go (n * 26 + (c.toNat - 97)) cs
      else go n cs

/-- The sums of a list's beginnings. -/
def runningSums (ns : List Nat) : List Nat := go 0 ns
where
  go (sum : Nat) : List Nat → List Nat
    | [] => []
    | n :: ns => (sum + n) :: go (sum + n) ns

/-- The set whose bounds lie apart by the numbers in a text. -/
def CharSet.ofTable (text : String) : CharSet := ⟨runningSums (tableNumbers text)⟩

end Linkage

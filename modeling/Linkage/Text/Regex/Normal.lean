import Linkage.Text.Regex.Basic

/-! Expressions made of smaller ones, without parts that others make needless. -/
namespace Linkage

/-- How long the matches of an expression are, and whether all of them lie at an end of the text. -/
structure Extent where
  /-- Nothing if there may be no match at all. -/
  shortest : Option Nat := some 0
  /-- Nothing if there is no bound, too. -/
  longest : Option Nat := some 0
  atStart : Bool := false
  atEnd : Bool := false

namespace Extent

/-- The extent of what is matched by one expression and then by another one. -/
def followed (a b : Extent) : Extent where
  shortest := do return (← a.shortest) + (← b.shortest)
  longest := do return (← a.longest) + (← b.longest)
  atStart := a.atStart || (a.longest = some 0 && b.atStart)
  atEnd := b.atEnd || (b.longest = some 0 && a.atEnd)

/-- The extent of what is matched by one of two expressions. -/
def or (a b : Extent) : Extent where
  shortest := do return min (← a.shortest) (← b.shortest)
  longest := do return max (← a.longest) (← b.longest)
  atStart := a.atStart && b.atStart
  atEnd := a.atEnd && b.atEnd

end Extent

namespace Regex

mutual

def extent : Regex → Extent
  | .text cs => ⟨some cs.length, some cs.length, false, false⟩
  | .char set => if set.isEmpty then ⟨none, none, false, false⟩ else ⟨some 1, some 1, false, false⟩
  | .boundary b => { atStart := b = .textStart, atEnd := b = .textEnd }
  | .seq rs => extentOfAll rs
  | .alt [] => ⟨none, none, false, false⟩
  | .alt (r :: rs) => extentOfAny (extent r) rs
  | .times r least most _ =>
    let e := extent r
    { shortest := e.shortest.map (· * least)
      longest := do return (← e.longest) * (← most)
      atStart := 0 < least && e.atStart
      atEnd := 0 < least && e.atEnd }
  | .group _ r => extent r

/-- The extent of expressions one after the other. -/
def extentOfAll : List Regex → Extent
  | [] => {}
  | r :: rs => (extent r).followed (extentOfAll rs)

/-- The extent of one of several expressions or of what has extent `e`. -/
def extentOfAny (e : Extent) : List Regex → Extent
  | [] => e
  | r :: rs => extentOfAny (e.or (extent r)) rs

end

mutual

/-- The parts of two expressions are the same throughout. -/
def same : Regex → Regex → Bool
  | .text as, .text bs => as == bs
  | .char a, .char b => a == b
  | .boundary a, .boundary b => a == b
  | .seq as, .seq bs => sameAll as bs
  | .alt as, .alt bs => sameAll as bs
  | .times a least most fewFirst, .times b least' most' fewFirst' =>
    least == least' && most == most' && fewFirst == fewFirst' && same a b
  | .group n a, .group m b => n == m && same a b
  | _, _ => false

def sameAll : List Regex → List Regex → Bool
  | [], [] => true
  | a :: as, b :: bs => same a b && sameAll as bs
  | _, _ => false

end

/-- How many expressions at the beginnings of two lists are the same. -/
def commonLength : List Regex → List Regex → Nat
  | a :: as, b :: bs => if same a b then commonLength as bs + 1 else 0
  | _, _ => 0

/-- Matches the empty text alone. -/
def empty : Regex := .text []

/-- Matches a character of a set. -/
def ofSet (set : CharSet) : Regex :=
  match set.bounds with
  | [first, bound] => if bound = first + 1 then .text [Char.ofNat first] else .char set
  | _ => .char set

/-- Expressions without empty texts, and with one text where several follow each other. -/
private def joinTexts : List Regex → List Regex
  | [] => []
  | .text [] :: rs => joinTexts rs
  | .text as :: rs =>
    match joinTexts rs with
    | .text bs :: rs => .text (as ++ bs) :: rs
    | rs => .text as :: rs
  | r :: rs => r :: joinTexts rs

/-- Matches what several expressions match one after the other. -/
def inSequence (rs : List Regex) : Regex :=
  let parts := rs.flatMap fun r => match r with | .seq rs => rs | r => [r]
  match joinTexts parts with
  | [] => empty
  | [r] => r
  | rs => .seq rs

/-- The set of the characters that expressions for one character each match. -/
private def charsOf? (rs : List Regex) : Option CharSet :=
  let singles := rs.mapM fun r => match r with | .text [c] => some c.toNat | _ => none
  let sets := rs.mapM fun r => match r with | .char set => some set | _ => none
  singles.map CharSet.ofList <|> sets.map CharSet.unions

/-- The parts of expressions that are made of several. -/
private def partsOf? (rs : List Regex) : Option (List (List Regex)) :=
  rs.mapM fun r => match r with | .seq parts => some parts | _ => none

/-- Matches what one of several expressions matches; the first `rounds` beginnings that all have in
common stand before them. -/
private def anyOfWithin : (rounds : Nat) → List Regex → Regex
  | 0, rs => .alt rs
  | rounds + 1, rs =>
    let rs := rs.flatMap fun r => match r with | .alt rs => rs | r => [r]
    match rs with
    | [r] => r
    | _ =>
      match charsOf? rs with
      | some set => ofSet set
      | none =>
        match partsOf? rs with
        | some (first :: others) =>
          let common := others.foldl (fun n parts => min n (commonLength first parts)) first.length
          if common = 0 then .alt rs
          else
            let tails := (first :: others).map fun parts => inSequence (parts.drop common)
            inSequence (first.take common ++ [anyOfWithin rounds tails])
        | _ => .alt rs

mutual

/-- How many parts an expression has on all levels. -/
def weight : Regex → Nat
  | .seq rs | .alt rs => weightOfAll rs + 1
  | .times r _ _ _ | .group _ r => weight r + 1
  | _ => 1

def weightOfAll : List Regex → Nat
  | [] => 0
  | r :: rs => weight r + weightOfAll rs

end

/-- Matches what one of several expressions matches. -/
def anyOf (rs : List Regex) : Regex := anyOfWithin (weightOfAll rs + 1) rs

/-- Matches what an expression matches several times. What is always empty is matched once. -/
def repeated (r : Regex) (least : Nat) (most : Option Nat) (fewFirst : Bool) : Regex :=
  let (least, most) :=
    if r.extent.longest = some 0 then (min least 1, some ((most.getD 1).min 1)) else (least, most)
  if most = some 0 then empty
  else if least = 1 && most = some 1 then r
  else .times r least most fewFirst

end Regex
end Linkage

/-! Breadth-first search through what names lead to. -/
namespace Linkage.Search

/-- The names that are not in `seen`, each where it first occurs. -/
def fresh (seen : List String) : List String → List String
  | [] => []
  | n :: ns => if n ∈ seen then fresh seen ns else n :: fresh (n :: seen) ns

/-- The fresh names of a level, then those of the level that they lead to, for at most `rounds`
levels. -/
def breadthFirst (next : String → List String) :
    (rounds : Nat) → (seen level : List String) → List String
  | 0, _, _ => []
  | rounds + 1, seen, level =>
    let found := fresh seen level
    found ++ breadthFirst next rounds (seen ++ found) (found.flatMap next)

end Linkage.Search

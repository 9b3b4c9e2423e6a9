/-! Strings in ascending order without repetition. -/
namespace Linkage

/-- Puts a string into its place, unless it is there. -/
def insertDistinct (x : String) : List String → List String
  | [] => [x]
  | y :: ys => if x < y then x :: y :: ys else if x = y then y :: ys else y :: insertDistinct x ys

/-- The strings of a list in ascending order, each once. -/
def sortDistinct : List String → List String
  | [] => []
  | x :: xs => insertDistinct x (sortDistinct xs)

end Linkage

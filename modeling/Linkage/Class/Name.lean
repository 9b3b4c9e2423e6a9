/-! Class names in internal form (`java/lang/Object`) and what is read off them. -/
namespace Linkage.ClassName

/-- The root of every class hierarchy. -/
def object : String := "java/lang/Object"

/-- Everything before the last slash; empty for the unnamed package. -/
def package (name : String) : String :=
  match name.toList.reverse.dropWhile (· ≠ '/') with
  | [] => ""
  | _ :: front => String.ofList front.reverse

/-- The dotted form that source code uses. -/
def display (name : String) : String :=
  name.map fun c => if c = '/' then '.' else c

/-- The slashed form of a dotted name. -/
def ofDotted (name : String) : String :=
  name.map fun c => if c = '.' then '/' else c

/-- The class that a class constant is about: of an array its element class, which an array of
primitives lacks. -/
def element? (name : String) : Option String :=
  match name.toList with
  | '[' :: dims =>
    match dims.dropWhile (· = '[') with
    | 'L' :: rest => if rest.getLast? = some ';' then some (String.ofList rest.dropLast) else none
    | _ => none
  | _ => some name

end Linkage.ClassName

/-! Paths as text: their parts, names and extensions. -/
namespace Linkage.Path

def isAbsolute (path : String) : Bool := path.startsWith "/"

/-- The names in a path; empty ones and single dots stand for nothing. -/
def parts (path : String) : List String :=
  (path.splitOn "/").filter fun part => part ≠ "" && part ≠ "."

/-- The names that lead from a directory to a path below it. -/
def below? (directory path : String) : Option (List String) :=
  if path = directory then some []
  else if path.startsWith (directory ++ "/") then
    some (parts (String.ofList (path.toList.drop directory.length)))
  else none

/-- `path` seen from `base`. -/
def join (base path : String) : String :=
  if isAbsolute path || base.isEmpty then path
  else if base.endsWith "/" then base ++ path
  else base ++ "/" ++ path

/-- Tells whether a path ends in such a way that only a directory can be meant. -/
def namesDirectory (path : String) : Bool := path.endsWith "/" || path.endsWith "/."

/-- Keeps parts of a path until some names are among them. -/
private def takeNames : (count : Nat) → List String → List String
  | 0, _ | _, [] => []
  | count + 1, part :: rest =>
    part :: if part = "" || part = "." then takeNames (count + 1) rest else takeNames count rest

/-- A path up to its name of that number, as it is written but for what leads nowhere in front. An
absolute path that has no more names is kept whole. -/
def upTo (count : Nat) (path : String) : String :=
  let segments := path.splitOn "/"
  if isAbsolute path then
    if (parts path).length ≤ count then path else "/".intercalate (takeNames count segments)
  else
    "/".intercalate (takeNames count (segments.dropWhile fun part => part = "" || part = "."))

/-- The last name, unless the path ends by going up. -/
def fileName? (path : String) : Option String :=
  match (parts path).getLast? with
  | some ".." => none
  | name => name

/-- A name before and after its last dot; a dot in front starts no extension. -/
def splitExtension (name : String) : String × Option String :=
  match name.toList.reverse.span (· ≠ '.') with
  | (extension, '.' :: stem) =>
    if stem.isEmpty then (name, none)
    else (String.ofList stem.reverse, some (String.ofList extension.reverse))
  | _ => (name, none)

end Linkage.Path

import Linkage.Classpath.Basic
import Linkage.Files.Tree

/-! Directories of class files: `a/b/C.class` below the root is the class `a/b/C`. -/
namespace Linkage.Classpath

/-- The root of a class directory is none. -/
structure NotADirectory where
  path : String

def NotADirectory.message (e : NotADirectory) : String :=
  s!"Class root is not a directory: {e.path}"

/-- The class name of a file below the root. A stem that is only a dot stands for the way up. -/
def nameOfFile? (names : List String) : Option String := do
  let (stem, extension) := Path.splitExtension (← names.getLast?)
  if extension = some "class" then
    some ("/".intercalate (names.dropLast ++ [if stem = "." then ".." else stem]))
  else none

/-- The class files below a directory. -/
def openDirectory (tree : FileTree) (path : String) : Except NotADirectory Classpath :=
  match tree.isDirectory path, tree.place? path with
  | true, some place =>
    .ok (.files path ((tree.filesBelow place).filterMap fun (file, bytes) =>
      (nameOfFile? file).map (·, bytes)))
  | _, _ => .error ⟨path⟩

end Linkage.Classpath

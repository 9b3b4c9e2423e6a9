import Linkage.Data.Sorted
import Linkage.Files.Path

/-! A tree of files and directories below the current directory. -/
namespace Linkage

/-- What stands at a place in a file tree. -/
inductive FileEntry where
  | directory
  | file (bytes : List UInt8)
  deriving DecidableEq, Repr

/-- A place: the names on the way to it from the current directory, or from the root of all. -/
inductive Place where
  | here (names : List String)
  | root (names : List String)
  deriving DecidableEq, Repr

/-- What stands where; only the directories that are listed exist. -/
structure FileTree where
  /-- What stands below the current directory. -/
  entries : List (List String × FileEntry) := []
  /-- What stands below the root. -/
  elsewhere : List (List String × FileEntry) := []
  /-- Where paths start that do not start at the root. -/
  start : Place := .here []
  /-- The path of the current directory from outside, if it has one. -/
  outside : Option String := none
  deriving Repr

namespace FileTree

/-- What stands at a place. The current directory and the root are there always. -/
def entry? (tree : FileTree) : Place → Option FileEntry
  | .here [] => some .directory
  | .here names => (tree.entries.find? (·.1 == names)).map (·.2)
  | .root [] => some .directory
  | .root names => (tree.elsewhere.find? (·.1 == names)).map (·.2)

/-- Goes on from a place by names, as long as there are directories to go on from. -/
def walk (tree : FileTree) (place : Place) : List String → Option Place
  | [] => some place
  | part :: rest =>
    if tree.entry? place ≠ some .directory then none
    else
      match part, place with
      | "..", .here [] => walk tree (.root []) rest
      | "..", .here names => walk tree (.here names.dropLast) rest
      | "..", .root names => walk tree (.root names.dropLast) rest
      | part, .here names => walk tree (.here (names ++ [part])) rest
      | part, .root names => walk tree (.root (names ++ [part])) rest

/-- Where a path starts, and the names that follow. -/
def route (tree : FileTree) (path : String) : Place × List String :=
  match tree.outside.bind fun here => Path.below? here path with
  | some names => (.here [], names)
  | none => (if Path.isAbsolute path then .root [] else tree.start, Path.parts path)

/-- The place of a path whose directories all exist; the last name may be free. -/
def place? (tree : FileTree) (path : String) : Option Place :=
  if path.isEmpty then none
  else
    let (start, names) := tree.route path
    walk tree start names

/-- What stands at a path. -/
def at? (tree : FileTree) (path : String) : Option FileEntry := do
  match ← tree.entry? (← tree.place? path) with
  | .directory => some .directory
  | .file bytes => if Path.namesDirectory path then none else some (.file bytes)

def isDirectory (tree : FileTree) (path : String) : Bool := tree.at? path == some .directory

def isFile (tree : FileTree) (path : String) : Bool :=
  match tree.at? path with
  | some (.file _) => true
  | _ => false

def exists? (tree : FileTree) (path : String) : Bool := (tree.at? path).isSome

def bytes? (tree : FileTree) (path : String) : Option (List UInt8) :=
  match tree.at? path with
  | some (.file bytes) => some bytes
  | _ => none

/-- The text of a file, if it is text. -/
def text? (tree : FileTree) (path : String) : Option String := do
  String.fromUTF8? ⟨(← tree.bytes? path).toArray⟩

/-- What stands where a place is, and the names that lead to it there. -/
def listing (tree : FileTree) : Place → List (List String × FileEntry) × List String
  | .here names => (tree.entries, names)
  | .root names => (tree.elsewhere, names)

/-- The names in a directory in ascending order. -/
def children (tree : FileTree) (place : Place) : List String :=
  let (entries, names) := tree.listing place
  sortDistinct (entries.filterMap fun (names', _) =>
    if names'.dropLast = names then names'.getLast? else none)

/-- The names in the directory at a path. -/
def childrenAt (tree : FileTree) (path : String) : List String :=
  (tree.place? path).elim [] tree.children

/-- The files below a directory, by the names on the way from it. -/
def filesBelow (tree : FileTree) (place : Place) : List (List String × List UInt8) :=
  let (entries, names) := tree.listing place
  entries.filterMap fun (names', entry) =>
    match entry with
    | .file bytes =>
      if names.isPrefixOf names' then some (names'.drop names.length, bytes) else none
    | .directory => none

private def addDirectories (tree : FileTree) (names : List String) : FileTree :=
  (List.range (names.length + 1)).foldl
    (fun tree n =>
      let place := names.take n
      if n = 0 || (tree.entry? (.here place)).isSome then tree
      else { tree with entries := tree.entries ++ [(place, .directory)] })
    tree

/-- Adds a directory and all directories on the way to it. -/
def addDirectory (tree : FileTree) (path : String) : FileTree :=
  tree.addDirectories (Path.parts path)

/-- Adds a file, or replaces it, and makes the directories on the way to it. -/
def addFile (tree : FileTree) (path : String) (bytes : List UInt8) : FileTree :=
  let names := Path.parts path
  let tree := tree.addDirectories names.dropLast
  { tree with entries := tree.entries.filter (·.1 ≠ names) ++ [(names, .file bytes)] }

/-- Adds what stands at some names from the root, if nothing is there yet. -/
def addElsewhere (tree : FileTree) (names : List String) (entry : FileEntry) : FileTree :=
  if (tree.entry? (.root names)).isSome then tree
  else { tree with elsewhere := tree.elsewhere ++ [(names, entry)] }

/-- Appends to a file, which is made if it is not there, in a directory that has to be there. -/
def append? (tree : FileTree) (path text : String) : Option FileTree := do
  if Path.namesDirectory path then none
  let .here names ← tree.place? path | none
  let old ← match tree.entry? (.here names) with
    | some (.file bytes) => some bytes
    | some .directory => none
    | none => if tree.entry? (.here names.dropLast) = some .directory then some [] else none
  let bytes := old ++ text.toUTF8.toList
  return { tree with entries := tree.entries.filter (·.1 ≠ names) ++ [(names, .file bytes)] }

/-- Takes a file away. -/
def removeFile (tree : FileTree) (names : List String) : FileTree :=
  { tree with entries := tree.entries.filter (·.1 ≠ names) }

/-- All files below the current directory, as paths in ascending order. -/
def filePaths (tree : FileTree) : List String :=
  sortDistinct ((tree.filesBelow (.here [])).map fun (names, _) => "/".intercalate names)

end FileTree
end Linkage

import Linkage.Files.Tree

/-! Locks on paths, which cover all that is below them. -/
namespace Linkage

namespace Place

/-- A place further down. -/
def extend : Place → List String → Place
  | .here names, more => .here (names ++ more)
  | .root names, more => .root (names ++ more)

/-- A place and all that it lies in, from the place itself up to the root. -/
def ancestors : Place → List Place
  | .here names =>
    ((List.range (names.length + 1)).reverse.map fun n => .here (names.take n)) ++ [.root []]
  | .root names => (List.range (names.length + 1)).reverse.map fun n => .root (names.take n)

/-- The path of a place, seen from the current directory if it lies below that. -/
def display : Place → String
  | .here names => "/".intercalate names
  | .root names => "/" ++ "/".intercalate names

/-- The names on the way to a place. -/
def names : Place → List String
  | .here names | .root names => names

end Place

namespace FileTree

/-- The place that names lead to, the last name first. Names that lead nowhere stand for themselves,
and so does all up to a way up among them. -/
private def placeOfNames (tree : FileTree) (start : Place) : List String → Place
  | [] => start
  | name :: before =>
    match (tree.walk start (name :: before).reverse).filter fun p => (tree.entry? p).isSome with
    | some place => place
    | none =>
      if name = ".." then start.extend (name :: before).reverse
      else (placeOfNames tree start before).extend [name]

/-- The one place that a path names, whether there is something or not. -/
def canonical (tree : FileTree) (path : String) : Place :=
  let (start, names) := tree.route path
  placeOfNames tree start names.reverse

/-- The text of the place that names lead to, the last name first. All up to a way up that leads
nowhere is shown as `path` has it. -/
private def textOfNames (tree : FileTree) (start : Place) (path : String) : List String → String
  | [] => start.display
  | name :: before =>
    match (tree.walk start (name :: before).reverse).filter fun p => (tree.entry? p).isSome with
    | some place => place.display
    | none =>
      if name = ".." then Path.upTo (before.length + 1) path
      else Path.join (textOfNames tree start path before) name

/-- The text of the place that a path names. -/
def canonicalText (tree : FileTree) (path : String) : String :=
  let (start, names) := tree.route path
  textOfNames tree start path names.reverse

/-- Why a file cannot be removed. -/
inductive RemoveFault where
  | missing
  | notADirectory
  | isADirectory
  | nameTooLong
  /-- No path has a null character in it. -/
  | notAPath
  deriving DecidableEq, Repr

/-- The kind of a fault in words. -/
def RemoveFault.display : RemoveFault → String
  | .missing => "entity not found"
  | .notADirectory => "not a directory"
  | .isADirectory => "is a directory"
  | .nameTooLong => "invalid filename"
  | .notAPath => "invalid input parameter"

/-- What is wrong on the way through names from the current directory. -/
def fault? (tree : FileTree) : (done rest : List String) → Option RemoveFault
  | _, [] => none
  | done, name :: rest =>
    match tree.entry? (.here done) with
    | none => some .missing
    | some (.file _) => some .notADirectory
    | some .directory =>
      if name.utf8ByteSize > 255 then some .nameTooLong
      else fault? tree (if name = ".." then done.dropLast else done ++ [name]) rest

/-- Removes the file at a place. -/
def removeAt (tree : FileTree) (place : Place) : Except RemoveFault FileTree :=
  if place.names.any fun name => name.contains '\x00' then .error .notAPath
  else match place with
  | .root names => .error (if names.isEmpty then .isADirectory else .missing)
  | .here names =>
    match tree.fault? [] names with
    | some fault => .error fault
    | none =>
      match tree.entry? (.here names) with
      | none => .error .missing
      | some .directory => .error .isADirectory
      | some (.file _) => .ok (tree.removeFile names)

end FileTree

/-- The places that are locked, and how often. -/
structure LockTable where
  counts : List (Place × Nat) := []
  deriving Repr

namespace LockTable

/-- How often a place itself is locked. -/
def count (t : LockTable) (place : Place) : Nat := (t.counts.lookup place).getD 0

/-- Locks a place once more. -/
def lock (t : LockTable) (place : Place) : LockTable :=
  if t.count place = 0 then ⟨t.counts ++ [(place, 1)]⟩
  else ⟨t.counts.map fun (p, n) => if p = place then (p, n + 1) else (p, n)⟩

/-- Takes one lock off a place. -/
def unlock (t : LockTable) (place : Place) : LockTable :=
  ⟨t.counts.filterMap fun (p, n) =>
    if p = place then (if n ≤ 1 then none else some (p, n - 1)) else some (p, n)⟩

/-- Tells whether a place itself is locked. -/
def contains (t : LockTable) (place : Place) : Bool := t.counts.any (·.1 = place)

/-- Tells whether a place, or one above it, is locked. -/
def isLocked (t : LockTable) (place : Place) : Bool := place.ancestors.any t.contains

/-- The number of locked places. -/
def size (t : LockTable) : Nat := t.counts.length

/-- Locks the places of some paths. -/
def ofPaths (tree : FileTree) (paths : List String) : LockTable :=
  paths.foldl (fun t path => t.lock (tree.canonical path)) {}

/-- Removes what is at a place, in the way that is given, if it is not locked, and tells whether it
did. -/
def removeUnlocked (t : LockTable) {ε σ : Type} (remove : Place → Except ε σ) (place : Place) :
    Except ε (Option σ) :=
  if t.isLocked place then .ok none else some <$> remove place

/-- Removes what a path names, if it is not locked. A single name with a slash behind it is no
file's. -/
def removePath (t : LockTable) (tree : FileTree) (path : String) :
    Except FileTree.RemoveFault (Option FileTree) :=
  let place := tree.canonical path
  match Path.parts path, tree.entry? place with
  | [name], some (.file _) =>
    if path.startsWith (name ++ "/") && !t.isLocked place then .error .notADirectory
    else t.removeUnlocked tree.removeAt place
  | _, _ => t.removeUnlocked tree.removeAt place

end LockTable
end Linkage

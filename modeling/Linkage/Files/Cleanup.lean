import Linkage.Data.Json
import Linkage.Files.Lock

/-! Keeping a directory within a quota by removing the files that were not used for longest. Bytes
are counted in 64 bits, and sums of them wrap around. -/
namespace Linkage.Cleanup

/-- A file below a root: where it is, its size, and when it was last read or written. -/
structure UsedFile where
  place : Place
  size : UInt64
  lastUsed : Int
  deriving DecidableEq, Repr

/-- What a cleanup did. -/
structure Report where
  scanned : Nat := 0
  total : UInt64 := 0
  removed : Nat := 0
  freed : UInt64 := 0
  skipped : Nat := 0
  deriving DecidableEq, Repr

def Report.toJson (r : Report) : Json :=
  .obj [("scanned_files", .nat r.scanned), ("total_bytes", .nat r.total.toNat),
    ("removed_files", .nat r.removed), ("freed_bytes", .nat r.freed.toNat),
    ("skipped_locked", .nat r.skipped)]

/-- The root of the files is no directory. -/
structure MissingRoot where
  path : String
  deriving DecidableEq, Repr

def MissingRoot.message (e : MissingRoot) : String := s!"Cache directory not found: {e.path}"

/-- The seconds that count as the time of a file of which none is known, in the middle of the year
2026. -/
def unknownTime : Nat := 1_780_000_000

/-- The files below a root, in the order of their places. -/
def scan (tree : FileTree) (times : List (String × Nat)) (root : String) :
    Except MissingRoot (List UsedFile) :=
  if tree.isDirectory root then
    match tree.canonical root with
    | .here names => .ok ((tree.filesBelow (.here names)).map fun (below, bytes) =>
        let file := names ++ below
        let lastUsed := (times.lookup ("/".intercalate file)).getD unknownTime
        ⟨.here file, .ofNat bytes.length, Int.ofNat lastUsed⟩)
    | .root _ => .ok []
  else .error ⟨root⟩

def totalSize (files : List UsedFile) : UInt64 := files.foldr (·.size + ·) 0

/-- The bytes used below a root. -/
def usedBytes (tree : FileTree) (root : String) : Except MissingRoot Nat :=
  (UInt64.toNat ∘ totalSize) <$> scan tree [] root

/-- What is used without a file of some size; never less than nothing. -/
def without (used size : UInt64) : UInt64 := if used ≤ size then 0 else used - size

/-- Removes files in their order until what is used is within the quota. Locked files stay, and so do
those that cannot be removed. -/
def removeOldest {ε σ : Type} (remove : σ → Place → Except ε σ) (locks : LockTable)
    (quota : UInt64) : (used : UInt64) → List UsedFile → Report → σ → Report × σ
  | _, [], report, disk => (report, disk)
  | used, file :: files, report, disk =>
    if used ≤ quota then (report, disk)
    else
      match locks.removeUnlocked (remove disk) file.place with
      | .ok none =>
        removeOldest remove locks quota used files { report with skipped := report.skipped + 1 } disk
      | .ok (some disk) =>
        removeOldest remove locks quota (without used file.size) files
          { report with removed := report.removed + 1, freed := report.freed + file.size } disk
      | .error _ => removeOldest remove locks quota used files report disk

/-- Brings files on a disk within the quota, if the locks let it and they can be removed. -/
def bringWithin {ε σ : Type} (remove : σ → Place → Except ε σ) (locks : LockTable)
    (quota : UInt64) (files : List UsedFile) (disk : σ) : Report × σ :=
  let report : Report := { scanned := files.length, total := totalSize files }
  if report.total ≤ quota then (report, disk)
  else
    let files := files.mergeSort fun a b => a.lastUsed ≤ b.lastUsed
    removeOldest remove locks quota report.total files report disk

/-- Brings the files below a root within the quota. -/
def run (tree : FileTree) (times : List (String × Nat)) (locks : LockTable) (root : String)
    (quota : Nat) : Except MissingRoot (Report × FileTree) := do
  let files ← scan tree times root
  return bringWithin FileTree.removeAt locks (.ofNat quota) files tree

end Linkage.Cleanup

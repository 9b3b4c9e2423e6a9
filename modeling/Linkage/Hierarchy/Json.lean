import Linkage.Data.Json
import Linkage.Hierarchy.Basic

/-! Hierarchies as JSON: one row for each class of the tree, in pre-order. -/
namespace Linkage
namespace Hierarchy

private def row (h : Hierarchy) (depth : Nat) (role status : String) (isInterface : Bool) : Json :=
  .arr [.nat depth, .str role, .str h.name, .str status, .bool isInterface]

mutual
/-- The rows of a tree whose root stands at some depth in some role. -/
def rows (depth : Nat) (role : String) : Hierarchy → List Json
  | h@(.resolved _ isInterface superclass interfaces) =>
    row h depth role "Resolved" isInterface
      :: (superRows (depth + 1) superclass ++ interfaceRows (depth + 1) interfaces)
  | h@(.unresolved _) => [row h depth role "Unresolved" false]
  | h@(.cyclePoint _) => [row h depth role "CyclePoint" false]

private def superRows (depth : Nat) : Option Hierarchy → List Json
  | none => []
  | some h => h.rows depth "super"

private def interfaceRows (depth : Nat) : List Hierarchy → List Json
  | [] => []
  | h :: hs => h.rows depth "interface" ++ interfaceRows depth hs
end

/-- A tree and what is said of it. -/
def details (h : Hierarchy) : List (String × Json) :=
  [("nodes", .arr (h.rows 0 "self")), ("resolved", .bool h.isResolved),
    ("unresolved", .strs h.unresolvedSupertypes),
    ("unresolved_superclasses", .strs h.unresolvedSuperclasses),
    ("unresolved_interfaces", .strs h.unresolvedInterfaces), ("cycle_points", .nat h.cyclePoints),
    ("hint_all", .str? (h.hint? "method" true)), ("hint_super", .str? (h.hint? "field" false))]

end Hierarchy
end Linkage

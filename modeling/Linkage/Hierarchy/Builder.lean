import Linkage.Classpath.Basic
import Linkage.Hierarchy.Basic

/-! Building hierarchies, each class looked into once. -/
namespace Linkage.Hierarchy

/-- The hierarchies that are known, by class name. -/
abbrev Memo := List (String × Hierarchy)

/-- Keeps a hierarchy. -/
def remember (h : Hierarchy) : StateM Memo Hierarchy := do
  modify ((h.name, h) :: ·)
  return h

/-- The hierarchy of a class that is reached through the classes in `visiting`. What is known is
taken as it is; a class in `visiting` closes a cycle. The classes in `visiting` are different and
found, so there are at most as many as names, and `depth` never ends a search. -/
def resolveFrom (cp : Classpath) :
    (depth : Nat) → (visiting : List String) → (name : String) → StateM Memo Hierarchy
  | 0, _, name => return .cyclePoint name
  | depth + 1, visiting, name => do
    if let some known := (← get).lookup name then return known
    if name ∈ visiting then return .cyclePoint name
    match cp.class? name with
    | none => remember (.unresolved name)
    | some c =>
      let superclass ← match c.superName with
        | none => pure none
        | some s => some <$> resolveFrom cp depth (name :: visiting) s
      let interfaces ← c.interfaces.mapM (resolveFrom cp depth (name :: visiting))
      remember (.resolved name c.isInterface superclass interfaces)

/-- The hierarchy of a class. -/
def resolve (cp : Classpath) (name : String) : StateM Memo Hierarchy :=
  resolveFrom cp (cp.size + 2) [] name

end Linkage.Hierarchy

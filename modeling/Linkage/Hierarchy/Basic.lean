import Linkage.Class.Name
import Linkage.Data.Sorted

/-! The tree of a class's supertypes. -/
namespace Linkage

/-- A class with the trees of its superclass and its interfaces. -/
inductive Hierarchy where
  | resolved (name : String) (isInterface : Bool) (superclass : Option Hierarchy)
      (interfaces : List Hierarchy)
  /-- The class was not found, or is not sound. -/
  | unresolved (name : String)
  /-- The class stands above itself and is not looked into again. -/
  | cyclePoint (name : String)

namespace Hierarchy

def name : Hierarchy → String
  | .resolved name .. | .unresolved name | .cyclePoint name => name

def isResolved : Hierarchy → Bool
  | .resolved .. => true
  | _ => false

/-- The direct supertypes, the superclass first. -/
def supertypes : Hierarchy → List Hierarchy
  | .resolved _ _ superclass interfaces => superclass.toList ++ interfaces
  | _ => []

mutual
/-- The tree in pre-order, the superclass before the interfaces. -/
def nodes : Hierarchy → List Hierarchy
  | h@(.resolved _ _ superclass interfaces) => h :: (superNodes superclass ++ allNodes interfaces)
  | h => [h]

private def superNodes : Option Hierarchy → List Hierarchy
  | none => []
  | some h => h.nodes

private def allNodes : List Hierarchy → List Hierarchy
  | [] => []
  | h :: hs => h.nodes ++ allNodes hs
end

private theorem superNodes_eq (superclass : Option Hierarchy) :
    superNodes superclass = superclass.toList.flatMap nodes := by
  cases superclass <;> simp [superNodes]

private theorem allNodes_eq (hs : List Hierarchy) : allNodes hs = hs.flatMap nodes := by
  induction hs with
  | nil => simp [allNodes]
  | cons h hs ih => simp [allNodes, ih]

theorem nodes_eq (h : Hierarchy) : h.nodes = h :: h.supertypes.flatMap nodes := by
  cases h <;> simp [nodes, supertypes, superNodes_eq, allNodes_eq]

/-- Everything above a class. -/
def above (h : Hierarchy) : List Hierarchy := h.nodes.tail

/-- The unresolved classes above, by name in ascending order. -/
def unresolvedSupertypes (h : Hierarchy) : List String :=
  sortDistinct (h.above.filterMap fun | .unresolved name => some name | _ => none)

/-- The unresolved class at the end of the chain of superclasses. -/
def unresolvedSuperclasses : Hierarchy → List String
  | .resolved _ _ (some (.unresolved name)) _ => [name]
  | .resolved _ _ (some superclass) _ => superclass.unresolvedSuperclasses
  | _ => []

/-- The unresolved classes above that are not on the chain of superclasses. -/
def unresolvedInterfaces (h : Hierarchy) : List String :=
  h.unresolvedSupertypes.filter (· ∉ h.unresolvedSuperclasses)

/-- How many times the tree is cut because it would repeat. -/
def cyclePoints (h : Hierarchy) : Nat :=
  (h.above.filter fun | .cyclePoint _ => true | _ => false).length

/-- Where an element that was not found might be declared after all. -/
def hint? (h : Hierarchy) (element : String) (withInterfaces : Bool) : Option String :=
  let names := h.unresolvedSuperclasses ++ (if withInterfaces then h.unresolvedInterfaces else [])
  if names.isEmpty then none
  else
    let list := ", ".intercalate (names.map ClassName.display)
    some s!"The {element} might be declared in an unresolved supertype: {list}"

end Hierarchy
end Linkage

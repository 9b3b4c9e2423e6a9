import Linkage.Data.Sorted
import Linkage.Format.Decode

/-! Sources of classes, searched by name. -/
namespace Linkage

/-- What a source says about a name. -/
inductive Lookup where
  | found (c : ClassFile)
  | notFound
  /-- There is something of that name, but it is not the class. -/
  | invalid (message : String)
  deriving DecidableEq, Repr

/-- The class that was found. -/
def Lookup.class? : Lookup → Option ClassFile
  | .found c => some c
  | _ => none

/-- A source of classes. Of classes under one name the last that was listed counts; of the members
of a union the first that has the name. -/
inductive Classpath where
  | empty
  | models (label : String) (classes : List ClassFile)
  | files (label : String) (entries : List (String × List UInt8))
  | union (members : List Classpath)

/-- Decodes a class that is expected to have a certain name. -/
def decodeNamed (name : String) (bytes : List UInt8) : Lookup :=
  match Format.decodeClass bytes with
  | .error fault => .invalid fault.message
  | .ok c =>
    if c.name = name then .found c
    else .invalid s!"class file declares {c.name} but was found as {name}"

namespace Classpath

mutual
/-- Tells whether there is something of that name, without a look at it. -/
def contains (name : String) : Classpath → Bool
  | .empty => false
  | .models _ classes => classes.any (·.name == name)
  | .files _ entries => entries.any (·.1 == name)
  | .union members => anyContains name members

private def anyContains (name : String) : List Classpath → Bool
  | [] => false
  | m :: ms => m.contains name || anyContains name ms
end

/-- A union has what one of its members has. -/
theorem contains_union (name : String) (members : List Classpath) :
    (union members).contains name = members.any (·.contains name) := by
  have hany (ms : List Classpath) : anyContains name ms = ms.any (·.contains name) := by
    induction ms with
    | nil => simp [anyContains]
    | cons m ms ih => simp [anyContains, ih]
  rw [contains, hany]

mutual
def lookup (name : String) : Classpath → Lookup
  | .empty => .notFound
  | .models _ classes =>
    match classes.reverse.find? (·.name == name) with
    | some c => .found c
    | none => .notFound
  | .files _ entries =>
    match entries.reverse.find? (·.1 == name) with
    | some (_, bytes) => decodeNamed name bytes
    | none => .notFound
  | .union members => firstLookup name members

private def firstLookup (name : String) : List Classpath → Lookup
  | [] => .notFound
  | m :: ms => if m.contains name then m.lookup name else firstLookup name ms
end

/-- The first member that has a name says what it means. -/
theorem lookup_union (name : String) (members : List Classpath) :
    (union members).lookup name
      = ((members.find? (·.contains name)).map (·.lookup name)).getD .notFound := by
  have hfirst (ms : List Classpath) : firstLookup name ms
      = ((ms.find? (·.contains name)).map (·.lookup name)).getD .notFound := by
    induction ms with
    | nil => simp [firstLookup]
    | cons m ms ih =>
      rw [firstLookup, List.find?_cons]
      cases m.contains name <;> simp [ih]
  rw [lookup, hfirst]

/-- The class of that name, if it is there and sound. -/
def class? (cp : Classpath) (name : String) : Option ClassFile := (cp.lookup name).class?

mutual
/-- The names under which something is listed, in no particular order. -/
def listedNames : Classpath → List String
  | .empty => []
  | .models _ classes => classes.map (·.name)
  | .files _ entries => entries.map (·.1)
  | .union members => allListedNames members

private def allListedNames : List Classpath → List String
  | [] => []
  | m :: ms => m.listedNames ++ allListedNames ms
end

theorem listedNames_union (members : List Classpath) :
    (union members).listedNames = members.flatMap listedNames := by
  have hall (ms : List Classpath) : allListedNames ms = ms.flatMap listedNames := by
    induction ms with
    | nil => simp [allListedNames]
    | cons m ms ih => simp [allListedNames, ih]
  rw [listedNames, hall]

/-- All names in ascending order. -/
def classNames (cp : Classpath) : List String := sortDistinct cp.listedNames

/-- A bound on the number of different names. -/
def size (cp : Classpath) : Nat := cp.listedNames.length

mutual
/-- A short label. -/
def description : Classpath → String
  | .empty => "empty"
  | .models label _ => label
  | .files label _ => label
  | .union members => "union[" ++ ", ".intercalate (descriptions members) ++ "]"

private def descriptions : List Classpath → List String
  | [] => []
  | m :: ms => m.description :: descriptions ms
end

end Classpath
end Linkage

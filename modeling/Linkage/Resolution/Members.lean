import Linkage.Classpath.Basic
import Linkage.Data.Search

/-! Finding the fields and methods that references mean. -/
namespace Linkage.Classpath

/-- The superclass that a class names and those above it, up to one that is missing or was seen. -/
def superclassesFrom (cp : Classpath) :
    (depth : Nat) → (seen : List String) → Option String → List ClassFile
  | 0, _, _ => []
  | _, _, none => []
  | depth + 1, seen, some name =>
    if name ∈ seen then []
    else
      match cp.class? name with
      | none => []
      | some c => c :: superclassesFrom cp depth (name :: seen) c.superName

/-- A class and the superclasses above it that can be found. -/
def superclassChain (cp : Classpath) (c : ClassFile) : List ClassFile :=
  c :: cp.superclassesFrom cp.size [c.name] c.superName

/-- The interfaces that an interface of that name extends. -/
def interfacesOf (cp : Classpath) (name : String) : List String :=
  (cp.class? name).elim [] (·.interfaces)

/-- The supertypes that a class of that name declares. -/
def supertypesOf (cp : Classpath) (name : String) : List String :=
  (cp.class? name).elim [] (·.supertypes)

/-- The interfaces above classes that can be found, the nearest first. -/
def superinterfaces (cp : Classpath) (classes : List ClassFile) : List ClassFile :=
  (Search.breadthFirst cp.interfacesOf (cp.size + 1) [] (classes.flatMap (·.interfaces))).filterMap
    cp.class?

/-- A class is below itself and below everything above it. -/
def isSubtypeOf (cp : Classpath) (name ancestor : String) : Bool :=
  (Search.breadthFirst cp.supertypesOf (cp.size + 1) [] [name]).contains ancestor

/-- `ancestor` is on the chain of superclasses of `c`. -/
def isSubclassOf (cp : Classpath) (c : ClassFile) (ancestor : String) : Bool :=
  (cp.superclassChain c).any (·.name == ancestor)

/-- Looks for a field in a class, then in its interfaces if they are asked for, then in its
superclass. Classes that were looked into stay in the state and are passed over. -/
def fieldIn (cp : Classpath) (name descriptor : String) (withInterfaces : Bool) :
    (depth : Nat) → ClassFile → OptionT (StateM (List String)) (ClassFile × Field)
  | 0, _ => failure
  | depth + 1, c => do
    if c.name ∈ (← get) then failure
    modify (c.name :: ·)
    match c.field? name descriptor with
    | some f => return (c, f)
    | none =>
      (do
        guard withInterfaces
        c.interfaces.firstM fun i => do
          let some c := cp.class? i | failure
          fieldIn cp name descriptor withInterfaces depth c)
      <|> (do
        let some c := c.superName.bind cp.class? | failure
        fieldIn cp name descriptor withInterfaces depth c)

/-- The field that a reference means, and the class that declares it. -/
def field? (cp : Classpath) (owner : ClassFile) (name descriptor : String)
    (withInterfaces : Bool) : Option (ClassFile × Field) :=
  ((cp.fieldIn name descriptor withInterfaces (cp.size + 2) owner).run.run []).1

/-- The method that a class itself declares. -/
def declaredMethod? (c : ClassFile) (name descriptor : String) : Option (ClassFile × Method) :=
  (c.method? name descriptor).map (c, ·)

/-- The methods that the interfaces above some classes hand down. -/
def inheritable (cp : Classpath) (roots : List ClassFile) (name descriptor : String) :
    List (ClassFile × Method) :=
  (cp.superinterfaces roots).filterMap fun i => do
    let (c, m) ← declaredMethod? i name descriptor
    if m.access.isPrivate || m.access.isStatic then none else some (c, m)

/-- No other candidate's interface is below that of this one. -/
def isMostSpecific (cp : Classpath) (candidates : List (ClassFile × Method))
    (candidate : ClassFile × Method) : Bool :=
  !candidates.any fun other =>
    other.1.name != candidate.1.name && cp.isSubtypeOf other.1.name candidate.1.name

/-- Of the most specific methods that interfaces hand down, the only one with a body; without such
a one, the first. -/
def mostSpecific? (cp : Classpath) (roots : List ClassFile) (name descriptor : String) :
    Option (ClassFile × Method) :=
  let candidates := cp.inheritable roots name descriptor
  let best := candidates.filter (cp.isMostSpecific candidates)
  match best.filter (!·.2.access.isAbstract) with
  | [concrete] => some concrete
  | _ => best.head?

/-- The method that a reference to a class's method means: declared in the class or above it, or
handed down by interfaces. Initialisers are not inherited. -/
def classMethod? (cp : Classpath) (owner : ClassFile) (name descriptor : String) :
    Option (ClassFile × Method) :=
  if name = "<init>" || name = "<clinit>" then declaredMethod? owner name descriptor
  else
    let chain := cp.superclassChain owner
    (chain.findSome? fun c => declaredMethod? c name descriptor)
      <|> cp.mostSpecific? chain name descriptor

/-- The public instance method of the root class. -/
def objectMethod? (cp : Classpath) (name descriptor : String) : Option (ClassFile × Method) := do
  let (c, m) ← declaredMethod? (← cp.class? ClassName.object) name descriptor
  if m.access.isPublic && !m.access.isStatic then some (c, m) else none

/-- The method that a reference to an interface's method means: declared there, public in the root
class, or handed down by interfaces. -/
def interfaceMethod? (cp : Classpath) (owner : ClassFile) (name descriptor : String) :
    Option (ClassFile × Method) :=
  declaredMethod? owner name descriptor
    <|> cp.objectMethod? name descriptor
    <|> cp.mostSpecific? [owner] name descriptor

end Linkage.Classpath

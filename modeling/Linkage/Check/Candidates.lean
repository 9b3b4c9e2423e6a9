import Linkage.Check.Problem
import Linkage.Hierarchy.Builder

/-! The problems of one class, before repetitions and ignored ones are taken out. -/
namespace Linkage.Check

/-- What classes are checked against. -/
structure Surroundings where
  /-- The id of the plugin whose classes are checked. -/
  plugin : String
  classpath : Classpath
  /-- Classes whose names begin so may be missing. -/
  externalPrefixes : List String := []

/-- The class is provided by somebody else at run time. -/
def Surroundings.isExternal (env : Surroundings) (name : String) : Bool :=
  env.externalPrefixes.any fun start => start.toList.isPrefixOf name.toList

/-- Prefixes in the form in which they are compared: dots read as slashes. -/
def externalPrefixesOf (texts : List String) : List String := texts.map ClassName.ofDotted

/-- What a check finds on its way, with the hierarchies that it knows. -/
abbrev Finder := StateM Hierarchy.Memo

/-- Problems of a reference to a class, and the class if its members can be looked at. -/
def ofClassRef (env : Surroundings) (accessor : ClassFile) (location : Location) (name : String)
    (instruction : Option InstructionKind) : List Problem × Option ClassFile :=
  match ClassName.element? name with
  | none => ([], none)
  | some element =>
    if env.isExternal element then ([], none)
    else
      match env.classpath.class? element with
      | none => ([⟨.classNotFound element instruction, location⟩], none)
      | some c =>
        (((classRestriction? c accessor).map fun r =>
          ⟨.illegalClassAccess element r instruction, location⟩).toList, some c)

/-- The members of an array type are those of the root class. -/
def isArray (name : String) : Bool := name.toList.head? == some '['

/-- The method that an invocation means. -/
def invoked? (cp : Classpath) (owner : ClassFile) (kind : InstructionKind) (interfaceOwner : Bool)
    (name descriptor : String) : Option (ClassFile × Method) :=
  match kind, interfaceOwner with
  | .invokeInterface, _ | .invokeSpecial, true => cp.interfaceMethod? owner name descriptor
  | .invokeStatic, true => Classpath.declaredMethod? owner name descriptor
  | _, _ => cp.classMethod? owner name descriptor

/-- Problems of a reference to a member: those of the reference to its owner, and if the owner can be
looked at, a member that is missing there or out of reach. -/
def ofMemberRef {M : Type} (env : Surroundings) (accessor : ClassFile) (location : Location)
    (owner : String) (kind : InstructionKind) (find? : ClassFile → Option M)
    (missing : Hierarchy → Finding) (restricted? : M → Option Finding) : Finder (List Problem) := do
  let (problems, owner?) := ofClassRef env accessor location owner (some kind)
  let some c := owner? | return problems
  if isArray owner then return problems
  match find? c with
  | none =>
    let hierarchy ← Hierarchy.resolve env.classpath owner
    return problems ++ [⟨missing hierarchy, location⟩]
  | some m => return problems ++ ((restricted? m).map (⟨·, location⟩)).toList

def ofMethodRef (env : Surroundings) (accessor : ClassFile) (location : Location) (ref : MemberRef)
    (kind : InstructionKind) (interfaceOwner : Bool) : Finder (List Problem) :=
  ofMemberRef env accessor location ref.owner kind
    (invoked? env.classpath · kind interfaceOwner ref.name ref.descriptor)
    (.methodNotFound ref kind) fun (c, m) =>
      (env.classpath.memberRestriction? m.access c accessor).map
        (.illegalMethodAccess ref ⟨c.name, m.name, m.descriptor⟩ · kind)

def ofFieldRef (env : Surroundings) (accessor : ClassFile) (location : Location) (ref : MemberRef)
    (kind : InstructionKind) : Finder (List Problem) :=
  ofMemberRef env accessor location ref.owner kind
    (env.classpath.field? · ref.name ref.descriptor kind.isStaticFieldAccess)
    (.fieldNotFound ref kind) fun (c, f) =>
      (env.classpath.memberRestriction? f.access c accessor).map
        (.illegalFieldAccess ref ⟨c.name, f.name, f.descriptor⟩ · kind)

def ofInstruction (env : Surroundings) (accessor : ClassFile) (location : Location)
    (i : Instruction) : Finder (List Problem) :=
  match i.reference with
  | .type name => return (ofClassRef env accessor location name (some i.kind)).1
  | .method ref => ofMethodRef env accessor location ref i.kind i.interfaceOwner
  | .field ref => ofFieldRef env accessor location ref i.kind

def ofMethodBody (env : Surroundings) (c : ClassFile) (m : Method) : Finder (List Problem) :=
  return (← m.instructions.mapM
    (ofInstruction env c (.method c.name m.name m.descriptor))).flatten

/-- The abstract methods that a class declares or inherits, each name and descriptor once. -/
def abstractMethods (cp : Classpath) (c : ClassFile) : List MemberRef :=
  let chain := cp.superclassChain c
  let declared := (chain ++ cp.superinterfaces chain).flatMap fun d =>
    (d.methods.filter fun m =>
      m.access.isAbstract && !m.access.isStatic && !m.access.isPrivate).map
        fun m => MemberRef.mk d.name m.name m.descriptor
  declared.foldl
    (fun refs r =>
      if refs.any fun q => q.name == r.name && q.descriptor == r.descriptor then refs
      else refs ++ [r])
    []

/-- A call of that name and descriptor on an object of the class finds a body. -/
def isImplemented (cp : Classpath) (c : ClassFile) (ref : MemberRef) : Bool :=
  (cp.classMethod? c ref.name ref.descriptor).any (!·.2.access.isAbstract)

/-- Abstract methods that a concrete class leaves open. With supertypes missing there is no
telling. -/
def ofAbstractMethods (env : Surroundings) (c : ClassFile) : Finder (List Problem) := do
  if c.isAbstract || c.isInterface then return []
  let hierarchy ← Hierarchy.resolve env.classpath c.name
  if !hierarchy.unresolvedSupertypes.isEmpty then return []
  return ((abstractMethods env.classpath c).filter (!isImplemented env.classpath c ·)).map
    fun ref => ⟨.methodNotImplemented ref, .type c.name⟩

/-- A method of a class further up that a method of `c` takes the place of. -/
def isOverridable (c superclass : ClassFile) (m : Method) : Bool :=
  !(m.access.isPrivate || m.access.isStatic
    || m.access.isPackagePrivate && superclass.package != c.package)

/-- The nearest method above that `m` overrides. -/
def overridden? (cp : Classpath) (c : ClassFile) (m : Method) : Option (ClassFile × Method) :=
  (cp.superclassChain c).tail.findSome? fun d => do
    let found ← d.method? m.name m.descriptor
    if isOverridable c d found then some (d, found) else none

def ofOverriding (cp : Classpath) (c : ClassFile) (m : Method) : List Problem :=
  if m.isInitializer || m.access.isPrivate || m.access.isStatic then []
  else
    match overridden? cp c m with
    | none => []
    | some (d, found) =>
      if found.access.isFinal && !found.access.isAbstract then
        [⟨.overridingFinalMethod ⟨d.name, found.name, found.descriptor⟩,
          .method c.name m.name m.descriptor⟩]
      else []

/-- All problems of a class: its supertypes, its method bodies, its abstract methods, its overriding
methods. -/
def ofClass (env : Surroundings) (c : ClassFile) : Finder (List Problem) := do
  let supertypes := c.supertypes.flatMap fun s => (ofClassRef env c (.type c.name) s none).1
  let bodies := (← c.methods.mapM (ofMethodBody env c)).flatten
  let open' ← ofAbstractMethods env c
  return supertypes ++ bodies ++ open' ++ c.methods.flatMap (ofOverriding env.classpath c)

end Linkage.Check

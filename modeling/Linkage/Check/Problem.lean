import Linkage.Class.Instruction
import Linkage.Data.Json
import Linkage.Hierarchy.Basic
import Linkage.Resolution.Access

/-! What can go wrong when a plugin's classes are linked. -/
namespace Linkage

/-- Where in a plugin a problem is. -/
inductive Location where
  | type (className : String)
  | method (className methodName descriptor : String)
  deriving DecidableEq, Repr

namespace Location

def className : Location → String
  | .type c => c
  | .method c _ _ => c

def display : Location → String
  | .type c => ClassName.display c
  | .method c m d => s!"{ClassName.display c}.{m}{d}"

end Location

/-- The kinds of problems, in the order in which they are listed. -/
inductive ProblemType where
  | classNotFound | methodNotFound | fieldNotFound | methodNotImplemented
  | illegalMethodAccess | illegalFieldAccess | illegalClassAccess | overridingFinalMethod
  deriving DecidableEq, Repr

namespace ProblemType

def all : List ProblemType :=
  [.classNotFound, .methodNotFound, .fieldNotFound, .methodNotImplemented, .illegalMethodAccess,
    .illegalFieldAccess, .illegalClassAccess, .overridingFinalMethod]

def name : ProblemType → String
  | .classNotFound => "ClassNotFound"
  | .methodNotFound => "MethodNotFound"
  | .fieldNotFound => "FieldNotFound"
  | .methodNotImplemented => "MethodNotImplemented"
  | .illegalMethodAccess => "IllegalMethodAccess"
  | .illegalFieldAccess => "IllegalFieldAccess"
  | .illegalClassAccess => "IllegalClassAccess"
  | .overridingFinalMethod => "OverridingFinalMethod"

/-- The heading under which problems of the kind are listed. -/
def heading : ProblemType → String
  | .classNotFound => "Class not found"
  | .methodNotFound => "Method not found"
  | .fieldNotFound => "Field not found"
  | .methodNotImplemented => "Method not implemented"
  | .illegalMethodAccess => "Illegal method invocation"
  | .illegalFieldAccess => "Illegal field access"
  | .illegalClassAccess => "Illegal class access"
  | .overridingFinalMethod => "Overriding final method"

end ProblemType

/-- What is wrong. Supertypes are referred to without an instruction. -/
inductive Finding where
  | classNotFound (name : String) (instruction : Option InstructionKind)
  | methodNotFound (ref : MemberRef) (instruction : InstructionKind) (owner : Hierarchy)
  | fieldNotFound (ref : MemberRef) (instruction : InstructionKind) (owner : Hierarchy)
  | methodNotImplemented (ref : MemberRef)
  | illegalMethodAccess (ref resolved : MemberRef) (restriction : Restriction)
      (instruction : InstructionKind)
  | illegalFieldAccess (ref resolved : MemberRef) (restriction : Restriction)
      (instruction : InstructionKind)
  | illegalClassAccess (name : String) (restriction : Restriction)
      (instruction : Option InstructionKind)
  | overridingFinalMethod (ref : MemberRef)

/-- A finding at its location. -/
structure Problem where
  finding : Finding
  location : Location

/-- What tells one problem from another: neither hierarchies nor texts count. -/
structure ProblemIdentity where
  type : ProblemType
  reference : Reference
  instruction : Option InstructionKind
  location : Location
  deriving DecidableEq, Repr

namespace Problem

def type (p : Problem) : ProblemType :=
  match p.finding with
  | .classNotFound .. => .classNotFound
  | .methodNotFound .. => .methodNotFound
  | .fieldNotFound .. => .fieldNotFound
  | .methodNotImplemented _ => .methodNotImplemented
  | .illegalMethodAccess .. => .illegalMethodAccess
  | .illegalFieldAccess .. => .illegalFieldAccess
  | .illegalClassAccess .. => .illegalClassAccess
  | .overridingFinalMethod _ => .overridingFinalMethod

/-- What the problem is about. -/
def reference (p : Problem) : Reference :=
  match p.finding with
  | .classNotFound name _ | .illegalClassAccess name .. => .type name
  | .methodNotFound ref .. | .illegalMethodAccess ref .. | .methodNotImplemented ref
  | .overridingFinalMethod ref => .method ref
  | .fieldNotFound ref .. | .illegalFieldAccess ref .. => .field ref

/-- The instruction that makes the reference. -/
def instruction (p : Problem) : Option InstructionKind :=
  match p.finding with
  | .classNotFound _ i | .illegalClassAccess _ _ i => i
  | .methodNotFound _ i _ | .fieldNotFound _ i _ | .illegalMethodAccess _ _ _ i
  | .illegalFieldAccess _ _ _ i => some i
  | .methodNotImplemented _ | .overridingFinalMethod _ => none

def restriction? (p : Problem) : Option Restriction :=
  match p.finding with
  | .illegalMethodAccess _ _ r _ | .illegalFieldAccess _ _ r _ | .illegalClassAccess _ r _ => some r
  | _ => none

/-- The member that an inaccessible reference means. -/
def resolved? (p : Problem) : Option MemberRef :=
  match p.finding with
  | .illegalMethodAccess _ resolved .. | .illegalFieldAccess _ resolved .. => some resolved
  | _ => none

def identity (p : Problem) : ProblemIdentity :=
  ⟨p.type, p.reference, p.instruction, p.location⟩

/-- One line about the problem. -/
def summary (p : Problem) : String :=
  match p.finding with
  | .classNotFound name _ => s!"Access to unresolved class {ClassName.display name}"
  | .methodNotFound ref .. => s!"Invocation of unresolved method {ref.displayMethod}"
  | .fieldNotFound ref .. => s!"Access to unresolved field {ref.displayField}"
  | .methodNotImplemented ref =>
    s!"Abstract method {ref.displayMethod} is not implemented in {p.location.display}"
  | .illegalMethodAccess _ resolved r _ =>
    s!"Illegal invocation of {r.display} method {resolved.displayMethod}"
  | .illegalFieldAccess _ resolved r _ =>
    s!"Illegal access to {r.display} field {resolved.displayField}"
  | .illegalClassAccess name r _ =>
    s!"Illegal access to {r.display} class {ClassName.display name}"
  | .overridingFinalMethod ref => s!"Overriding a final method {ref.displayMethod}"

private def consequence (exception : String) : String :=
  s!" This can lead to **{exception}** exception at runtime."

private def hintLine (hint : Option String) : String := hint.elim "" ("\n" ++ ·)

/-- The whole story: the place, the instruction, the reference and what will happen. Instance fields
are inherited from superclasses alone, so only for static ones interfaces are named. -/
def description (p : Problem) : String :=
  let place := p.location.display
  let accessor := ClassName.display p.location.className
  match p.finding with
  | .classNotFound name (some i) =>
    s!"Method {place} contains a *{i.mnemonic}* instruction referencing an unresolved class "
      ++ s!"{ClassName.display name}." ++ consequence "NoClassDefFoundError"
  | .classNotFound name none =>
    s!"Class {place} references an unresolved class {ClassName.display name}."
      ++ consequence "NoClassDefFoundError"
  | .methodNotFound ref i owner =>
    s!"Method {place} contains an *{i.mnemonic}* instruction referencing an unresolved method "
      ++ s!"{ref.displayMethod}." ++ consequence "NoSuchMethodError"
      ++ hintLine (owner.hint? "method" true)
  | .fieldNotFound ref i owner =>
    s!"Method {place} contains a *{i.mnemonic}* instruction referencing an unresolved field "
      ++ s!"{ref.displayField}." ++ consequence "NoSuchFieldError"
      ++ hintLine (owner.hint? "field" i.isStaticFieldAccess)
  | .methodNotImplemented ref =>
    s!"Non-abstract class {place} inherits from {ClassName.display ref.owner} but does not "
      ++ s!"implement the abstract method {ref.displayMethod}." ++ consequence "AbstractMethodError"
  | .illegalMethodAccess _ resolved r i =>
    s!"Method {place} contains an *{i.mnemonic}* instruction referencing a {r.display} method "
      ++ s!"{resolved.displayMethod} inaccessible to the class {accessor}."
      ++ consequence "IllegalAccessError"
  | .illegalFieldAccess _ resolved r i =>
    s!"Method {place} contains a *{i.mnemonic}* instruction referencing a {r.display} field "
      ++ s!"{resolved.displayField} inaccessible to the class {accessor}."
      ++ consequence "IllegalAccessError"
  | .illegalClassAccess name r _ =>
    s!"{place} references a {r.display} class {ClassName.display name} inaccessible to the class "
      ++ s!"{accessor}." ++ consequence "IllegalAccessError"
  | .overridingFinalMethod ref =>
    s!"Method {place} overrides the final method {ref.displayMethod}." ++ consequence "VerifyError"

end Problem

/-- A location in a report. -/
def Location.toJson : Location → Json
  | .type c => .obj [("kind", .str "class"), ("class_name", .str c)]
  | .method c m d =>
    .obj [("kind", .str "method"), ("class_name", .str c), ("method_name", .str m),
      ("descriptor", .str d)]

/-- A problem in a report. -/
def Problem.toJson (p : Problem) : Json :=
  .obj [("problem_type", .str p.type.name), ("short_description", .str p.summary),
    ("full_description", .str p.description), ("location", p.location.toJson)]

end Linkage

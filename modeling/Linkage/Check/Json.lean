import Linkage.Check.Run
import Linkage.Class.Json
import Linkage.Hierarchy.Builder

/-! Problems as JSON, with all that makes them up. -/
namespace Linkage

/-- The name of a restriction. -/
def Restriction.tag : Restriction → String
  | .privateMember => "PRIVATE"
  | .protectedMember => "PROTECTED"
  | .packagePrivate => "PACKAGE_PRIVATE"

def Restriction.ofName : String → Restriction
  | "private" => .privateMember
  | "protected" => .protectedMember
  | _ => .packagePrivate

def Location.ofJson (j : Json) : Location :=
  match j.items with
  | [c] => .type c.string
  | _ => .method (j.stringAt 0) (j.stringAt 1) (j.stringAt 2)

namespace Problem

/-- All parts of a problem and its texts. -/
def details (p : Problem) : List (String × Json) :=
  [("type", .str p.type.name), ("short", .str p.summary), ("full", .str p.description),
    ("reference", .obj [p.reference.toMember]),
    ("instruction", .ofOption (fun i => .str i.mnemonic) p.instruction),
    ("location", p.location.toJson)]
  ++ p.restriction?.toList.map (fun r => ("access", .str r.tag))
  ++ p.resolved?.toList.map fun m => ("resolved", m.toJson)

/-- A problem from its parts; the classes at hand give the hierarchy of the owner. -/
def ofJson (cp : Classpath) (j : Json) : Problem :=
  let ref := MemberRef.ofJson (j.field "ref")
  let name := j.text "ref" ""
  let i? := (j.field "instruction").asStr?.map InstructionKind.ofName
  let i := i?.getD .loadConstant
  let hierarchy := ((Hierarchy.resolve cp ref.owner).run []).1
  let access := Restriction.ofName (j.text "access" "")
  let resolved := MemberRef.ofJson (j.field "resolved")
  let finding : Finding := match j.text "type" "" with
    | "ClassNotFound" => .classNotFound name i?
    | "MethodNotFound" => .methodNotFound ref i hierarchy
    | "FieldNotFound" => .fieldNotFound ref i hierarchy
    | "MethodNotImplemented" => .methodNotImplemented ref
    | "IllegalMethodAccess" => .illegalMethodAccess ref resolved access i
    | "IllegalFieldAccess" => .illegalFieldAccess ref resolved access i
    | "IllegalClassAccess" => .illegalClassAccess name access i?
    | _ => .overridingFinalMethod ref
  ⟨finding, .ofJson (j.field "location")⟩

end Problem

def IgnoredProblem.details (i : IgnoredProblem) : Json :=
  .obj [("problem", .obj i.problem.details), ("filter", .str i.filter), ("reason", .str i.reason)]

/-- A filter: documented changes, a text or file of them, or patterns of what is to be ignored. -/
def Filter.ofJson (tree : FileTree) (j : Json) : Except InvalidFilter Filter :=
  match j.get? "documented", j.get? "documented_yaml", j.get? "documented_file",
    j.get? "ignored_text" with
  | some changes, _, _, _ => .ok (ofChanges (changes.items.filterMap (Change.read? Json.reading)))
  | _, some text, _, _ => ofYaml "inline" text.string
  | _, _, some path, _ => loadChanges tree path.string
  | _, _, _, some lines => ofLines lines.string
  | _, _, _, _ =>
    ignored <$> (j.list "ignored").mapM fun p => ignoredPattern (p.stringAt 0) (p.stringAt 1)

end Linkage

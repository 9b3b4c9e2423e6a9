import Linkage.Check.Candidates
import Linkage.Data.Reading
import Linkage.Files.Tree
import Linkage.Text.Regex.Parser

/-! Problems that are known and not reported. -/
namespace Linkage

/-- How a member is known to have changed. -/
inductive MemberChange where
  | methodRemoved | methodReturnTypeChanged | methodParameterTypeChanged
  | methodVisibilityChanged | fieldRemoved | fieldTypeChanged | fieldVisibilityChanged
  | abstractMethodAdded
  deriving DecidableEq, Repr

/-- A documented change of what plugins are linked with; names are in internal form. -/
inductive Change where
  | classRemoved (name : String)
  | packageRemoved (name : String)
  | member (change : MemberChange) (owner name : String)
  deriving DecidableEq, Repr

namespace Change

/-- The change with its class or package name in internal form. -/
def normalized : Change → Change
  | .classRemoved name => .classRemoved (ClassName.ofDotted name)
  | .packageRemoved name => .packageRemoved (ClassName.ofDotted name)
  | .member change owner name => .member change (ClassName.ofDotted owner) name

def display : Change → String
  | .classRemoved name => s!"class {name} is removed"
  | .packageRemoved name => s!"package {name} is removed"
  | .member change owner name =>
    match change with
    | .methodRemoved => s!"method {owner}.{name} is removed"
    | .methodReturnTypeChanged => s!"method {owner}.{name} return type is changed"
    | .methodParameterTypeChanged => s!"method {owner}.{name} parameter types are changed"
    | .methodVisibilityChanged => s!"method {owner}.{name} visibility is changed"
    | .fieldRemoved => s!"field {owner}.{name} is removed"
    | .fieldTypeChanged => s!"field {owner}.{name} type is changed"
    | .fieldVisibilityChanged => s!"field {owner}.{name} visibility is changed"
    | .abstractMethodAdded => s!"abstract method {owner}.{name} is added"

/-- The word for a change of a member in a document. -/
def memberChange? : String → Option MemberChange
  | "method-removed" => some .methodRemoved
  | "method-return-type-changed" => some .methodReturnTypeChanged
  | "method-parameter-type-changed" => some .methodParameterTypeChanged
  | "method-visibility-changed" => some .methodVisibilityChanged
  | "field-removed" => some .fieldRemoved
  | "field-type-changed" => some .fieldTypeChanged
  | "field-visibility-changed" => some .fieldVisibilityChanged
  | "abstract-method-added" => some .abstractMethodAdded
  | _ => none

/-- The fields that a change of this type has beside its type. -/
private def fieldsOf? (type : String) : Option (List String) :=
  if type = "class-removed" then some ["class"]
  else if type = "package-removed" then some ["package"]
  else (memberChange? type).map fun _ => ["owner", "name"]

private def ofTexts? (type : String) : List String → Option Change
  | [name] =>
    if type = "class-removed" then some (.classRemoved name) else some (.packageRemoved name)
  | [owner, name] => (memberChange? type).map (.member · owner name)
  | _ => none

/-- Reads a change: a record with a type, or a list that begins with one. -/
def read? {ν : Type} (r : Reading ν) (v : ν) : Option Change :=
  match r.items? v with
  | some items => do
    let type ← r.text? (← items.head?)
    let fields ← fieldsOf? type
    if items.length ≠ fields.length + 1 then none
    ofTexts? type (← items.tail.mapM r.text?)
  | none => do
    let [(_, type)] := (← r.members? [] v).filter (·.1 = "type") | none
    let type ← r.text? type
    let fields ← fieldsOf? type
    let members ← r.record? fields v
    ofTexts? type (← fields.mapM (Reading.required? r.text? members))

/-- Whether a change tells why a problem arises. What happened to a member of a class happened to it
in all classes below. -/
def explains (cp : Classpath) (p : Problem) : Change → Bool
  | .classRemoved name =>
    match p.finding with
    | .classNotFound missing _ => missing == name
    | _ => false
  | .packageRemoved name =>
    match p.finding with
    | .classNotFound missing _ =>
      let package := ClassName.package missing
      package == name || (name ++ "/").toList.isPrefixOf package.toList
    | _ => false
  | .member change owner name =>
    match change, p.finding with
    | .methodRemoved, .methodNotFound ref ..
    | .methodReturnTypeChanged, .methodNotFound ref ..
    | .methodParameterTypeChanged, .methodNotFound ref ..
    | .methodVisibilityChanged, .illegalMethodAccess _ ref ..
    | .fieldRemoved, .fieldNotFound ref ..
    | .fieldTypeChanged, .fieldNotFound ref ..
    | .fieldVisibilityChanged, .illegalFieldAccess _ ref .. =>
      ref.name == name && cp.isSubtypeOf ref.owner owner
    | .abstractMethodAdded, .methodNotImplemented ref =>
      ref.name == name && cp.isSubtypeOf p.location.className owner
    | _, _ => false

end Change

/-- A text that is matched as a whole. -/
structure Pattern where
  text : String
  regex : Regex
  deriving Inhabited

/-- Problems of plugins with a matching id, if their summary matches, too. -/
structure IgnoredPattern where
  plugin : Pattern
  summary : Pattern
  deriving Inhabited

/-- What takes problems out of a report. -/
inductive Filter where
  | documented (changes : List Change)
  | ignored (patterns : List IgnoredPattern)
  /-- Any other collaborator: its name, and why it takes a problem out. -/
  | collaborator (name : String) (reason? : Check.Surroundings → Problem → Option String)

/-- The definition of a filter cannot be used. -/
structure InvalidFilter where
  source : String
  deriving DecidableEq, Repr

namespace Filter

def name : Filter → String
  | .documented _ => "documented"
  | .ignored _ => "ignored"
  | .collaborator name _ => name

/-- Why the filter takes a problem out; nothing if it does not. -/
def reason? (env : Check.Surroundings) (p : Problem) : Filter → Option String
  | .documented changes =>
    (changes.find? (·.explains env.classpath p)).map fun change =>
      s!"The problem is documented: {change.display}"
  | .ignored patterns =>
    (patterns.find? fun i =>
      i.plugin.regex.isMatch env.plugin && i.summary.regex.isMatch p.summary).map fun i =>
        s!"The problem matches the ignoring pattern {i.plugin.text}:{i.summary.text}"
  | .collaborator _ reason? => reason? env p

/-- A filter that takes nothing out. -/
def isEmpty : Filter → Bool
  | .documented changes => changes.isEmpty
  | .ignored patterns => patterns.isEmpty
  | .collaborator .. => false

def ofChanges (changes : List Change) : Filter := .documented (changes.map .normalized)

/-- Reads a YAML list of documented changes. -/
def ofYaml (source text : String) : Except InvalidFilter Filter :=
  let changes? := do
    (← (← Yaml.Document.parse? text).entries? "type").mapM (Change.read? Yaml.Value.reading)
  match changes? with
  | some changes => .ok (ofChanges changes)
  | none => .error ⟨source⟩

/-- Reads a file of documented changes. -/
def loadChanges (tree : FileTree) (path : String) : Except InvalidFilter Filter :=
  match tree.text? path with
  | some text => ofYaml path text
  | none => .error ⟨path⟩

/-- An expression for whole texts. -/
def pattern (text : String) : Except InvalidFilter Pattern :=
  let whole := "^(?:" ++ text ++ ")$"
  match Regex.parse? whole with
  | some regex => .ok ⟨whole, regex⟩
  | none => .error ⟨"ignored problems"⟩

def ignoredPattern (plugin summary : String) : Except InvalidFilter IgnoredPattern :=
  return ⟨← pattern plugin, ← pattern summary⟩

/-- One line of a list of ignored problems. Without a colon it is about all plugins. -/
def ignoredLine (line : String) : Except InvalidFilter IgnoredPattern :=
  match splitOnce? ':' line with
  | some (plugin, summary) => ignoredPattern (trim plugin) (trim summary)
  | none => ignoredPattern ".*" line

/-- Reads a list of ignored problems, in which lines may be empty or comments. -/
def ofLines (text : String) : Except InvalidFilter Filter :=
  let kept := ((lines text).map trim).filter fun line =>
    !line.isEmpty && !line.startsWith "//"
  .ignored <$> kept.mapM ignoredLine

end Filter
end Linkage

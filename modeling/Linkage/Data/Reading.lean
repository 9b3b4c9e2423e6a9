import Linkage.Data.Json
import Linkage.Data.Yaml.Value

/-! Reading records out of JSON and YAML values. -/
namespace Linkage

/-- What the values of a data language can be taken for. -/
structure Reading (ν : Type) where
  text? : ν → Option String
  bool? : ν → Option Bool
  /-- Whether the value stands for an absent one. -/
  isNull? : ν → Option Bool
  items? : ν → Option (List ν)
  /-- The members of a record; names tell the fields of a record that is written as a list. -/
  members? : (names : List String) → ν → Option (List (String × ν))

namespace Reading

variable {ν : Type} (r : Reading ν)

/-- The members of a record in which no field comes twice. -/
def record? (names : List String) (v : ν) : Option (List (String × ν)) := do
  let members ← r.members? names v
  if names.all fun n => (members.filter (·.1 = n)).length ≤ 1 then some members else none

/-- A field that has to be there. -/
def required? {α : Type} (read : ν → Option α) (members : List (String × ν)) (name : String) :
    Option α := do
  read (← members.lookup name)

/-- A field that stands for `default` where it is absent. -/
def defaulted? {α : Type} (read : ν → Option α) (default : α) (members : List (String × ν))
    (name : String) : Option α :=
  match members.lookup name with
  | some v => read v
  | none => some default

/-- A field that may be absent or null. -/
def optional? {α : Type} (read : ν → Option α) (members : List (String × ν)) (name : String) :
    Option (Option α) :=
  match members.lookup name with
  | some v => (r.isNull? v).bind fun null => if null then some none else some <$> read v
  | none => some none

def list? {α : Type} (read : ν → Option α) (v : ν) : Option (List α) := do
  (← r.items? v).mapM read

def texts? (v : ν) : Option (List String) := r.list? r.text? v

end Reading

/-- JSON values are what they look like; a record may be written as the list of its fields. -/
def Json.reading : Reading Json where
  text? := Json.asStr?
  bool? := Json.asBool?
  isNull? | .null => some true | _ => some false
  items? | .arr items => some items | _ => none
  members? names
    | .obj members => some members
    | .arr items => if items.length ≤ names.length then some (names.zip items) else none
    | _ => none

namespace Yaml

/-- A node in its document. -/
structure View where
  document : Document
  node : Node

namespace View

/-- The node that is seen, which is no alias. -/
def target (v : View) : Node := (v.document.target? v.node).getD v.node

/-- Another node of the same document. -/
def see (v : View) (node : Node) : View := ⟨v.document, node⟩

/-- The tree that a text writes. -/
def ofText? (text : String) : Option View :=
  (Document.parse? text).map fun document => ⟨document, document.root⟩

end View

/-- Nodes as their readers expect them: any scalar can be text, and nothing can be an empty
collection. -/
def View.reading : Reading View where
  text? v := match v.target with | .scalar text _ _ => some text | _ => none
  bool? v :=
    match v.target with
    | .scalar text style tag =>
      if style = .plain || (style = .literal && tag = some "tag:yaml.org,2002:bool") then
        Scalar.boolWord? text
      else none
    | _ => none
  isNull? v :=
    match v.target with
    | .scalar text .plain none => some (text.isEmpty || Scalar.isNullWord text)
    | .scalar text .plain (some "tag:yaml.org,2002:null") =>
      if Scalar.isNullWord text then some true else none
    | _ => some false
  items? v :=
    match v.target with
    | .sequence items _ => some (items.map v.see)
    | .scalar "" .plain _ => some []
    | _ => none
  members? _ v :=
    match v.target with
    | .mapping pairs _ => pairs.mapM fun (k, value) =>
      match (v.see k).target with
      | .scalar text _ _ => some (text, v.see value)
      | _ => none
    | .scalar "" .plain _ => some []
    | _ => none

/-- Values by what they are; a field may be told by its number. -/
def Value.reading : Reading Value where
  text? | .text t => some t | _ => none
  bool? | .bool b => some b | _ => none
  isNull? | .null => some true | _ => some false
  items? | .list items => some items | _ => none
  members? names
    | .record pairs => do
      let members ← pairs.mapM fun (k, v) =>
        match k with
        | .text name => some (some (name, v))
        | .natural n => some (names[n]?.map (·, v))
        | _ => none
      return members.filterMap id
    | _ => none

end Yaml
end Linkage

import Linkage.Data.Toml.Parser
import Linkage.Files.Tree
import Linkage.Log.Basic
import Linkage.Settings.Quantity

/-! Settings by sections and keys, and how they are read from files. -/
namespace Linkage

/-- A link in the chain of causes of a failure. -/
inductive Cause where
  | said (text : String)
  /-- What the operating system says. -/
  | system
  /-- What is wrong with the form of a TOML text. -/
  | toml
  /-- Why a text is no whole number. -/
  | number
  /-- A filter of this source cannot be used. -/
  | filter (source : String)
  deriving DecidableEq, Repr

/-- One line on a cause. -/
def Cause.message : Cause → String
  | .said text => text
  | .system => "the file cannot be read"
  | .toml => "the text is not TOML"
  | .number => "invalid digit found in string"
  | .filter source => s!"Invalid problem filter {source}"

/-- Why settings cannot be used. -/
inductive SettingsFault where
  | unreadable (path : String)
  | notToml (path : String)
  | badBool (area key value : String)
  | badLevel (name : String)
  | badFormat (name : String)
  | badNumber (key value : String)
  | badList (key value : String)
  | badEntry (key value : String)
  | badQuota (value : String) (fault : QuantityFault)
  | badInterval (value : String) (fault : QuantityFault)
  | noWorkers
  | noCapacity
  | noInterval
  deriving DecidableEq, Repr

namespace SettingsFault

/-- The causes, outermost first. -/
def chain : SettingsFault → List Cause
  | .unreadable path => [.said s!"Failed to read config file: {path}", .system]
  | .notToml path =>
    [.said s!"Failed to parse config file: {path}", .said "Failed to parse TOML content", .toml]
  | .badBool area key value => [.said s!"Invalid boolean value for {area}.{key}: {value}"]
  | .badLevel name => [.said (badLevelMessage name)]
  | .badFormat name => [.said (badFormatMessage name)]
  | .badNumber key value => [.said s!"Invalid {key} value in config: {value}", .number]
  | .badList key value => [.said s!"Invalid {key} value in config: {value}", .toml]
  | .badEntry key value => [.said s!"Invalid entry in {key}: {value}"]
  | .badQuota value fault =>
    [.said s!"Invalid disk-quota value in config: {value}", .said fault.message]
  | .badInterval value fault =>
    [.said s!"Invalid cleanup-interval value in config: {value}", .said fault.message]
  | .noWorkers => [.said "workers must be at least 1"]
  | .noCapacity => [.said "cache capacities must be at least 1"]
  | .noInterval => [.said "cleanup-interval must be positive"]

/-- The program breaks down over an interval that is too long. -/
def isCrash : SettingsFault → Bool
  | .badInterval _ .overlong => true
  | _ => false

end SettingsFault

/-- Texts by keys in areas of settings. -/
abbrev SettingsTable := List (String × List (String × String))

namespace SettingsTable

/-- Sets a key in an area. -/
def put (t : SettingsTable) (area key value : String) : SettingsTable :=
  let entries := (t.lookup area).getD []
  (area, (key, value) :: entries.filter (·.1 ≠ key)) :: t.filter (·.1 ≠ area)

def get? (t : SettingsTable) (area key : String) : Option String := do
  (← t.lookup area).lookup key

/-- Makes sure that an area is there. -/
def touch (t : SettingsTable) (area : String) : SettingsTable :=
  if (t.lookup area).isSome then t else (area, []) :: t

/-- Adds the values of a table. Tables within become areas, whose names are joined by dots, and
values outside of tables belong to the area `base`. -/
def flatten (outer : String) : List (String × Toml) → SettingsTable → SettingsTable
  | [], t => t
  | (name, .table inner) :: members, t =>
    let area := if outer.isEmpty then name else outer ++ "." ++ name
    flatten outer members <|
      if inner.any (·.2.isTable) then flatten area inner t
      else inner.foldl (fun t (key, value) => t.put area key value.display) (t.touch area)
  | (name, value) :: members, t =>
    flatten outer members (t.put (if outer.isEmpty then "base" else outer) name value.display)

end SettingsTable

/-- Settings, the file that they are from, and the area that comes before all others. -/
structure Settings where
  table : SettingsTable := []
  file : Option String := none
  selected : Option String := none

namespace Settings

/-- Reads settings from a file. -/
def load (tree : FileTree) (path : String) : Except SettingsFault Settings :=
  match tree.text? path with
  | none => .error (.unreadable path)
  | some text =>
    match Toml.parse? text with
    | none => .error (.notToml path)
    | some value => .ok { table := SettingsTable.flatten "" value.members [], file := some path }

/-- A text: the selected area has it, or its own, or `base`. -/
def value? (s : Settings) (area key : String) : Option String :=
  (s.selected.bind fun selected => s.table.get? selected key).orElse fun _ =>
    (s.table.get? area key).orElse fun _ => s.table.get? "base" key

/-- A value that has to be read in some way, if it is there. -/
def read? {α : Type} (s : Settings) (area key : String) (read : String → Except SettingsFault α) :
    Except SettingsFault (Option α) :=
  match s.value? area key with
  | none => .ok none
  | some text => some <$> read text

def bool? (s : Settings) (area key : String) : Except SettingsFault (Option Bool) :=
  s.read? area key fun text =>
    match lowerCase text with
    | "true" => .ok true
    | "false" => .ok false
    | _ => .error (.badBool area key text)

def level? (s : Settings) (area key : String) : Except SettingsFault (Option LogLevel) :=
  s.read? area key fun text =>
    match LogLevel.ofName? text with
    | some level => .ok level
    | none => .error (.badLevel text)

def number? (s : Settings) (area key : String) : Except SettingsFault (Option Nat) :=
  s.read? area key fun text =>
    match Decimal.unsigned? UInt64.size text with
    | some n => .ok n
    | none => .error (.badNumber key text)

/-- A list of texts. What starts like an array has to be one; any other text is a list of one. -/
def list (s : Settings) (area key : String) : Except SettingsFault (List String) := do
  let texts ← s.read? area key fun text =>
    if (trimStart text.toList).head? ≠ some '[' then .ok [text]
    else
      match (Toml.parse? ("list = " ++ text)).bind fun (t : Toml) => t.members.lookup "list" with
      | some (.arr items) => items.mapM fun item =>
        match item with
        | .str t => .ok t
        | other => .error (.badEntry key other.entryText)
      | _ => .error (.badList key text)
  return texts.getD []

end Settings
end Linkage

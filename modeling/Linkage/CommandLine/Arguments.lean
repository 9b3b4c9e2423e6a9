import Linkage.Settings.Quantity

/-! The command line. -/
namespace Linkage

/-- The form in which results are printed. -/
inductive OutputFormat where
  | table | json
  deriving DecidableEq, Repr

/-- What a command line asks for. -/
structure Arguments where
  plugins : List String := []
  pluginsDirectory : String := ""
  hostsDirectory : String := ""
  hostVersions : List String := []
  classpath : List String := []
  externalPrefixes : List String := []
  ignoredProblems : Option String := none
  documentedProblems : Option String := none
  workers : Option Nat := none
  quota : Option Nat := none
  cacheDirectory : Option String := none
  format : OutputFormat := .table
  noColor : Bool := false
  verbose : Bool := false
  quiet : Bool := false
  debug : Bool := false
  logFormat : String := "text"
  logFile : Option String := none
  logFileLevel : Option String := none
  settingsFile : Option String := none
  settingsArea : Option String := none
  deriving DecidableEq, Repr

/-- Why a command line is of no use, or what it asks for instead of a run. -/
inductive UsageFault where
  | unknownArgument
  | invalidValue
  | valueValidation
  | argumentConflict
  | missingRequired
  | tooManyValues
  | help
  | version
  deriving DecidableEq, Repr

/-- Options without a value. -/
inductive Switch where
  | noColor | verbose | quiet | debug | help | version
  deriving DecidableEq, Repr

/-- Options with a value. -/
inductive Parameter where
  | pluginsDirectory | hostsDirectory | hostVersion | classpath | externalPrefix | ignoredProblems
  | documentedProblems | workers | quota | cacheDirectory | format | logFormat | logFile
  | logFileLevel | settingsFile | settingsArea
  deriving DecidableEq, Repr

inductive CommandOption where
  | switch (s : Switch)
  | parameter (p : Parameter)
  deriving DecidableEq, Repr

namespace CommandOption

/-- The options by their long names. -/
def longNames : List (String × CommandOption) := [
  ("plugins-dir", .parameter .pluginsDirectory), ("hosts-dir", .parameter .hostsDirectory),
  ("host-version", .parameter .hostVersion), ("classpath", .parameter .classpath),
  ("external-prefix", .parameter .externalPrefix),
  ("ignored-problems", .parameter .ignoredProblems),
  ("documented-problems", .parameter .documentedProblems), ("workers", .parameter .workers),
  ("disk-quota", .parameter .quota), ("cache-dir", .parameter .cacheDirectory),
  ("format", .parameter .format), ("log-format", .parameter .logFormat),
  ("log-file", .parameter .logFile), ("log-file-level", .parameter .logFileLevel),
  ("config-file", .parameter .settingsFile), ("config-name", .parameter .settingsArea),
  ("no-color", .switch .noColor), ("verbose", .switch .verbose), ("quiet", .switch .quiet),
  ("debug", .switch .debug), ("help", .switch .help), ("version", .switch .version)]

/-- The options by their short names. -/
def shortNames : List (Char × CommandOption) := [
  ('p', .parameter .pluginsDirectory), ('H', .parameter .hostsDirectory),
  ('j', .parameter .workers), ('v', .switch .verbose), ('q', .switch .quiet), ('h', .switch .help),
  ('V', .switch .version)]

end CommandOption

namespace Arguments

private def path (text : String) : Except UsageFault String :=
  if text.isEmpty then .error .invalidValue else .ok text

/-- Gives a parameter its value. -/
def assign (a : Arguments) (p : Parameter) (text : String) : Except UsageFault Arguments :=
  match p with
  | .pluginsDirectory => (path text).map fun t => { a with pluginsDirectory := t }
  | .hostsDirectory => (path text).map fun t => { a with hostsDirectory := t }
  | .hostVersion => .ok { a with hostVersions := a.hostVersions ++ [text] }
  | .classpath => (path text).map fun t => { a with classpath := a.classpath ++ [t] }
  | .externalPrefix => .ok { a with externalPrefixes := a.externalPrefixes ++ [text] }
  | .ignoredProblems => (path text).map fun t => { a with ignoredProblems := some t }
  | .documentedProblems => (path text).map fun t => { a with documentedProblems := some t }
  | .workers =>
    match Decimal.unsigned? UInt64.size text with
    | some n => .ok { a with workers := some n }
    | none => .error .valueValidation
  | .quota =>
    match Quantity.size text with
    | .ok n => .ok { a with quota := some n }
    | .error _ => .error .valueValidation
  | .cacheDirectory => (path text).map fun t => { a with cacheDirectory := some t }
  | .format =>
    match text with
    | "table" => .ok { a with format := .table }
    | "json" => .ok { a with format := .json }
    | _ => .error .invalidValue
  | .logFormat => .ok { a with logFormat := text }
  | .logFile => (path text).map fun t => { a with logFile := some t }
  | .logFileLevel => .ok { a with logFileLevel := some text }
  | .settingsFile => (path text).map fun t => { a with settingsFile := some t }
  | .settingsArea => .ok { a with settingsArea := some text }

/-- Turns a switch on; help and the version end the reading. -/
def turnOn (a : Arguments) : Switch → Except UsageFault Arguments
  | .noColor => .ok { a with noColor := true }
  | .verbose => .ok { a with verbose := true }
  | .quiet => .ok { a with quiet := true }
  | .debug => .ok { a with debug := true }
  | .help => .error .help
  | .version => .error .version

/-- Parameters that may come more than once. -/
def isRepeatable : Parameter → Bool
  | .hostVersion | .classpath | .externalPrefix => true
  | _ => false

/-- A command line as far as it was read. The last parameter still waits for its value, or the value
waits to be looked at. -/
structure Reader where
  arguments : Arguments := {}
  given : List CommandOption := []
  pending : Option (Parameter × Option String) := none

namespace Reader

/-- Takes a parameter and its value in. -/
def take (r : Reader) (p : Parameter) (text : String) : Except UsageFault Reader := do
  if r.given.contains (.parameter p) && !isRepeatable p then throw .argumentConflict
  return ⟨← r.arguments.assign p text, .parameter p :: r.given, none⟩

/-- Looks at what is pending. -/
def settle (r : Reader) : Except UsageFault Reader :=
  match r.pending with
  | none => .ok r
  | some (_, none) => .error .invalidValue
  | some (p, some text) => take { r with pending := none } p text

def switch (r : Reader) (s : Switch) : Except UsageFault Reader := do
  let r ← r.settle
  if r.given.contains (.switch s) then throw .argumentConflict
  return { r with arguments := ← r.arguments.turnOn s, given := .switch s :: r.given }

/-- A parameter whose value is still to come. -/
def await (r : Reader) (p : Parameter) : Except UsageFault Reader := do
  return { ← r.settle with pending := some (p, none) }

def attached (r : Reader) (p : Parameter) (text : String) : Except UsageFault Reader := do
  (← r.settle).take p text

/-- An option by its long name, maybe with a value after an equals sign. -/
def long (r : Reader) (cs : List Char) : Except UsageFault Reader :=
  let (name, value) := match cs.span (· ≠ '=') with
    | (name, _ :: value) => (name, some (String.ofList value))
    | (name, []) => (name, none)
  match CommandOption.longNames.lookup (String.ofList name), value with
  | none, _ => .error .unknownArgument
  | some (.parameter p), some text => r.attached p text
  | some (.parameter p), none => r.await p
  | some (.switch _), some _ => .error .tooManyValues
  | some (.switch s), none => r.switch s

/-- Options by their short names; what follows a parameter is its value. -/
def short (r : Reader) : List Char → Except UsageFault Reader
  | [] => .ok r
  | c :: cs =>
    match CommandOption.shortNames.lookup c with
    | none => .error .unknownArgument
    | some (.switch s) => do short (← r.switch s) cs
    | some (.parameter p) =>
      match cs with
      | [] => r.await p
      | '=' :: cs => r.attached p (String.ofList cs)
      | cs => r.attached p (String.ofList cs)

/-- A plugin. -/
def positional (r : Reader) (text : String) : Except UsageFault Reader := do
  let r ← r.settle
  return { r with arguments := { r.arguments with plugins := r.arguments.plugins ++ [text] } }

/-- What belongs to no option by itself: the value of a parameter that waits for it, or a plugin. -/
def plain (r : Reader) (text : String) : Except UsageFault Reader :=
  match r.pending with
  | some (p, none) => .ok { r with pending := some (p, some text) }
  | _ => r.positional text

def word (r : Reader) (text : String) : Except UsageFault Reader :=
  match text.toList with
  | '-' :: '-' :: cs => r.long cs
  | ['-'] => r.plain text
  | '-' :: cs => r.short cs
  | _ => r.plain text

/-- Reads words; after two dashes all are plugins. -/
def words (r : Reader) : List String → Except UsageFault Reader
  | [] => r.settle
  | "--" :: rest => do (← rest.foldlM positional r).settle
  | text :: rest => do words (← r.word text) rest

end Reader

/-- Reads a command line. The directories of plugins and hosts have to be given. -/
def parse (words : List String) : Except UsageFault Arguments := do
  let r ← Reader.words {} words
  if [Parameter.pluginsDirectory, .hostsDirectory].all fun p => r.given.contains (.parameter p) then
    return r.arguments
  else throw .missingRequired

end Arguments
end Linkage

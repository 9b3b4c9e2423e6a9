import Linkage.Data.Json
import Linkage.Files.Tree
import Linkage.Text.Blank
import Linkage.Text.Case

/-! Log levels, and what a log writes where. -/
namespace Linkage

/-- How much is logged, from nothing to everything. -/
inductive LogLevel where
  | off | error | warn | info | debug | trace
  deriving DecidableEq, Repr

namespace LogLevel

def rank : LogLevel → Nat
  | .off => 0
  | .error => 1
  | .warn => 2
  | .info => 3
  | .debug => 4
  | .trace => 5

def display : LogLevel → String
  | .off => "OFF"
  | .error => "ERROR"
  | .warn => "WARN"
  | .info => "INFO"
  | .debug => "DEBUG"
  | .trace => "TRACE"

/-- The level of that name in any case. -/
def ofName? (name : String) : Option LogLevel :=
  [.off, .error, .warn, .info, .debug, .trace].find? fun level => lowerCase level.display = lowerCase name

/-- The level that logs more. -/
def max (a b : LogLevel) : LogLevel := if a.rank < b.rank then b else a

end LogLevel

/-- What is said of a name that is no level. -/
def badLevelMessage (name : String) : String :=
  s!"Invalid log level: {name}. Valid levels: error, warn, info, debug, trace, off"

/-- The form of log lines. -/
inductive LogFormat where
  | text | json
  deriving DecidableEq, Repr

def LogFormat.ofName? (name : String) : Option LogFormat :=
  match lowerCase name with
  | "text" => some .text
  | "json" => some .json
  | _ => none

/-- What is said of a name that is no format. -/
def badFormatMessage (name : String) : String :=
  s!"Invalid log format: {name}. Valid options: text, json"

inductive LogDestination where
  | console
  | file (path : String)
  | both (path : String)
  deriving DecidableEq, Repr

namespace LogDestination

def file? : LogDestination → Option String
  | .console => none
  | .file path | .both path => some path

def hasConsole : LogDestination → Bool
  | .file _ => false
  | .console | .both _ => true

end LogDestination

/-- What is logged: a level, the part of the program that speaks, and a message. -/
structure LogRecord where
  level : LogLevel
  source : String
  message : String

structure LogSettings where
  consoleLevel : LogLevel := .info
  fileLevel : Option LogLevel := none
  format : LogFormat := .text
  destination : LogDestination := .console
  deriving DecidableEq, Repr

namespace LogSettings

def consoleAccepts (s : LogSettings) (level : LogLevel) : Bool :=
  s.destination.hasConsole && level.rank ≤ s.consoleLevel.rank

def fileAccepts (s : LogSettings) (level : LogLevel) : Bool :=
  s.destination.file?.isSome && s.fileLevel.any (level.rank ≤ ·.rank)

def accepts (s : LogSettings) (level : LogLevel) : Bool :=
  s.consoleAccepts level || s.fileAccepts level

/-- The level beyond which nothing is logged anywhere. -/
def maxLevel (s : LogSettings) : LogLevel :=
  let console := if s.destination.hasConsole then s.consoleLevel else .off
  match s.destination.file?, s.fileLevel with
  | some _, some level => console.max level
  | _, _ => console

/-- The text of a record that a thread logs at some time. -/
def entry (s : LogSettings) (time thread : String) (r : LogRecord) : String :=
  match s.format with
  | .text => s!"{time} [{r.level.display}] {r.source} ({thread}) {r.message}"
  | .json =>
    (Json.obj [("timestamp", .str time), ("level", .str r.level.display), ("target", .str r.source),
      ("thread", .str thread), ("message", .str r.message)]).compact

/-- What is appended to the log file. -/
def fileText (s : LogSettings) (time thread : String) (rs : List LogRecord) : String :=
  String.join ((rs.filter fun r => s.fileAccepts r.level).map fun r => s.entry time thread r ++ "\n")

/-- Logs records to a file. A file that cannot be opened stays as it is. -/
def writeFile (s : LogSettings) (tree : FileTree) (time thread : String) (rs : List LogRecord) :
    FileTree :=
  match s.destination.file?, rs.any fun r => s.fileAccepts r.level with
  | some path, true => (tree.append? path (s.fileText time thread rs)).getD tree
  | _, _ => tree

end LogSettings
end Linkage

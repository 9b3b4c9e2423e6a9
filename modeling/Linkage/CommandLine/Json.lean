import Linkage.CommandLine.Plan

/-! Command lines and settings as JSON. -/
namespace Linkage

def OutputFormat.name : OutputFormat → String
  | .table => "Table"
  | .json => "Json"

def LogFormat.name : LogFormat → String
  | .text => "Text"
  | .json => "Json"

def LogLevel.toJson (l : LogLevel) : Json := .str l.display

def LogDestination.toJson : LogDestination → Json
  | .console => .strs ["console"]
  | .file path => .strs ["file", path]
  | .both path => .strs ["both", path]

def LogSettings.details (s : LogSettings) : List (String × Json) :=
  [("console_level", s.consoleLevel.toJson), ("file_level", .ofOption LogLevel.toJson s.fileLevel),
    ("format", .str s.format.name), ("destination", s.destination.toJson),
    ("max_level", s.maxLevel.toJson)]

/-- Settings for a run. Large numbers are texts, and the interval is split into seconds and
nanoseconds. -/
def VerifierSettings.toJson (v : VerifierSettings) : Json :=
  .obj [("workers", v.workers.elim (.str "cores") .nat), ("plugin_capacity", .nat v.pluginCapacity),
    ("host_capacity", .nat v.hostCapacity), ("disk_quota", .str s!"{v.quota}"),
    ("cache_dir", .str? v.cacheDirectory),
    ("cleanup_interval", .strs
      [s!"{v.cleanupInterval / Quantity.second}", s!"{v.cleanupInterval % Quantity.second}"]),
    ("external", .strs v.externalPrefixes), ("ignored", .strs v.ignoredProblems),
    ("documented", .str? v.documentedProblems)]

def HostSelection.toJson : HostSelection → Json
  | .versions vs => .obj [("versions", .ofList (.str ·.display) vs)]
  | .compatibleWith vs => .obj [("compatible", .ofList (.str ·.display) vs)]

def Arguments.details (a : Arguments) : List (String × Json) :=
  [("plugins", .strs a.plugins), ("plugins_dir", .str a.pluginsDirectory),
    ("hosts_dir", .str a.hostsDirectory), ("host_versions", .strs a.hostVersions),
    ("classpath", .strs a.classpath), ("external", .strs a.externalPrefixes),
    ("ignored_problems", .str? a.ignoredProblems),
    ("documented_problems", .str? a.documentedProblems), ("workers", .ofOption .nat a.workers),
    ("disk_quota", .str? (a.quota.map toString)), ("cache_dir", .str? a.cacheDirectory),
    ("format", .str a.format.name), ("no_color", .bool a.noColor), ("verbose", .bool a.verbose),
    ("quiet", .bool a.quiet), ("debug", .bool a.debug), ("log_format", .str a.logFormat),
    ("log_file", .str? a.logFile), ("log_file_level", .str? a.logFileLevel),
    ("config_file", .str? a.settingsFile), ("config_name", .str? a.settingsArea)]

end Linkage

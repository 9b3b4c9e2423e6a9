import Linkage.CommandLine.Arguments
import Linkage.Check.Run
import Linkage.Settings.Verifier
import Linkage.Verification.Task

/-! What a run is made of, by the command line and the settings. -/
namespace Linkage

/-- What a run finds around itself. -/
structure Environment where
  /-- The home directory. -/
  home : Option String := none
  /-- The directory of settings, if it is not the usual one below the home directory. -/
  settingsHome : Option String := none
  /-- A settings file that comes before all others. -/
  settingsFile : Option String := none

/-- Why there is no run. -/
inductive RunFault where
  | levelWithoutFile
  | exclusiveLevels
  | noWorkers
  | noDirectory (what path : String)
  | settings (fault : SettingsFault)
  | verifierSettings (fault : VerifierSettings.Fault)
  | unreadablePatterns (path : String)
  | filter (source : String)
  | badClasspath (path : String) (fault : Classpath.NotADirectory)
  | noHosts (root : String)
  | badHostVersion (text : String) (fault : InvalidVersion)
  | noPlugin (name root : String)
  /-- Some cell of the table takes fewer columns than its styles hide. -/
  | noColumns

namespace RunFault

/-- The causes, outermost first. -/
def chain : RunFault → List Cause
  | .levelWithoutFile => [.said "--log-file-level requires --log-file"]
  | .exclusiveLevels => [.said "--verbose, --quiet and --debug are mutually exclusive"]
  | .noWorkers => [.said "--workers must be at least 1"]
  | .noDirectory what path => [.said s!"{what} directory does not exist: {path}"]
  | .settings fault => fault.chain
  | .verifierSettings fault => .said "Invalid verifier configuration" :: fault.chain
  | .unreadablePatterns path =>
    [.said s!"Failed to read ignored problems from {path}", .system]
  | .filter source => [.filter source]
  | .badClasspath path fault =>
    [.said s!"Failed to open classpath entry {path}", .said fault.message]
  | .noHosts root => [.said s!"No host builds found in {root}"]
  | .badHostVersion text fault =>
    [.said ("Invalid host version '" ++ text ++ "'"), .said fault.message]
  | .noPlugin name root => [.said ("Plugin '" ++ name ++ "' not found in " ++ root)]
  | .noColumns => []

/-- The program breaks down instead of telling the fault. -/
def isCrash : RunFault → Bool
  | .settings fault => fault.isCrash
  | .verifierSettings fault => fault.isCrash
  | .noColumns => true
  | _ => false

end RunFault

namespace Arguments

/-- The first thing that makes the arguments useless together. -/
def fault? (a : Arguments) (tree : FileTree) : Option RunFault :=
  if a.logFileLevel.isSome && a.logFile.isNone then some .levelWithoutFile
  else if ([a.verbose, a.quiet, a.debug].filter id).length > 1 then some .exclusiveLevels
  else if a.workers = some 0 then some .noWorkers
  else if !tree.isDirectory a.pluginsDirectory then some (.noDirectory "plugins" a.pluginsDirectory)
  else if !tree.isDirectory a.hostsDirectory then some (.noDirectory "hosts" a.hostsDirectory)
  else none

/-- The name of a settings file in a directory of its own. -/
def settingsPath : String := "plugin-verifier/config.toml"

/-- The name of a settings file in a directory with other files. -/
def dottedSettingsPath : String := ".plugin-verifier.toml"

/-- Where settings are looked for; the first file that is there counts. -/
def settingsCandidates (env : Environment) : List String :=
  let settingsHome := env.settingsHome.orElse fun _ => env.home.map (Path.join · ".config")
  env.settingsFile.toList ++ (settingsHome.map (Path.join · settingsPath)).toList
    ++ (env.home.map (Path.join · dottedSettingsPath)).toList
    ++ [Path.join "." dottedSettingsPath]

/-- Reads the settings for a run. -/
def loadSettings (a : Arguments) (env : Environment) (tree : FileTree) :
    Except SettingsFault Settings := do
  let settings ← match a.settingsFile with
    | some path => Settings.load tree path
    | none =>
      match (settingsCandidates env).find? tree.exists? with
      | some path => Settings.load tree path
      | none => .ok {}
  return { settings with selected := a.settingsArea.orElse fun _ => settings.selected }

/-- What is logged where. The command line comes before the settings. -/
def logSettings (a : Arguments) (s : Settings) : Except SettingsFault LogSettings := do
  let consoleLevel ←
    if a.debug then pure .trace
    else if a.verbose then pure .debug
    else if a.quiet then pure .error
    else (·.getD .info) <$> s.level? "base" "console-level"
  let formatName := if a.logFormat ≠ "text" then some a.logFormat else s.value? "base" "log-format"
  let format ← match formatName with
    | none => pure .text
    | some name =>
      match LogFormat.ofName? name with
      | some format => pure format
      | none => throw (.badFormat name)
  let logFile := a.logFile.orElse fun _ => s.value? "base" "log-file"
  let fileLevel ← match a.logFileLevel with
    | some name =>
      match LogLevel.ofName? name with
      | some level => pure (some level)
      | none => throw (.badLevel name)
    | none => s.level? "base" "file-log-level"
  return match logFile with
    | some path => ⟨consoleLevel, some (fileLevel.getD consoleLevel), format, .both path⟩
    | none => ⟨consoleLevel, none, format, .console⟩

/-- The settings for a run, with what the command line puts in their place. -/
def verifierSettings (a : Arguments) (s : Settings) : Except RunFault VerifierSettings := do
  let v ← (VerifierSettings.ofSettings s).mapError .verifierSettings
  let v := { v with
    workers := a.workers.orElse fun _ => v.workers
    quota := a.quota.getD v.quota
    cacheDirectory := a.cacheDirectory.orElse fun _ => v.cacheDirectory
    documentedProblems := a.documentedProblems.orElse fun _ => v.documentedProblems
    externalPrefixes := v.externalPrefixes ++ a.externalPrefixes }
  match v.fault? with
  | some fault => throw (.settings fault)
  | none => return v

private def usable (f : Except InvalidFilter Filter) : Except RunFault Filter :=
  f.mapError fun e => .filter e.source

/-- The filters of a run: ignored problems, if there are any, and documented changes. -/
def filters (a : Arguments) (v : VerifierSettings) (tree : FileTree) :
    Except RunFault (List Filter) := do
  let patterns := "\n".intercalate v.ignoredProblems
  let patterns ← match a.ignoredProblems with
    | none => pure patterns
    | some path =>
      match tree.text? path with
      | some text => pure (patterns ++ "\n" ++ text)
      | none => throw (.unreadablePatterns path)
  let ignored ← usable (Filter.ofLines patterns)
  let documented ← match v.documentedProblems with
    | some path => some <$> usable (Filter.loadChanges tree path)
    | none => pure none
  return [ignored].filter (!·.isEmpty) ++ documented.toList

/-- The extra classes of a run. -/
def extraClasses (a : Arguments) (tree : FileTree) : Except RunFault (List Classpath) :=
  a.classpath.mapM fun path => (Classpath.openDirectory tree path).mapError (.badClasspath path)

/-- The hosts of a run: those that are named, or all that there are. -/
def hosts (a : Arguments) (tree : FileTree) : Except RunFault HostSelection :=
  if a.hostVersions.isEmpty then
    let found := (HostStore.mk a.hostsDirectory).versions tree
    if found.isEmpty then .error (.noHosts a.hostsDirectory) else .ok (.compatibleWith found)
  else
    .versions <$> a.hostVersions.mapM fun text =>
      (HostVersion.parse text).mapError (.badHostVersion text)

/-- The plugins of a run: those that are named, the newest version where none is given, or all. -/
def chosenPlugins (a : Arguments) (tree : FileTree) : Except RunFault (List Coordinate) :=
  let store : PluginStore := ⟨a.pluginsDirectory⟩
  if a.plugins.isEmpty then .ok ((store.descriptors tree).map (·.coordinate))
  else
    let repository := store.repository tree
    a.plugins.mapM fun name =>
      match splitOnce? ':' name with
      | some (id, version) => .ok ⟨id, version⟩
      | none =>
        match repository.lastVersion? name with
        | some c => .ok c
        | none => .error (.noPlugin name a.pluginsDirectory)

end Arguments
end Linkage

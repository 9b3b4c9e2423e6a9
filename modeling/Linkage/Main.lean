import Linkage.CommandLine.Run

/-! The command line program: it reads the files that a run may need, and prints what the run
answers. -/
namespace Linkage

/-- How the program is called. -/
def usageText : String := "Checks compiled plugins for API compatibility against host builds.

Usage: plugin-verifier [OPTIONS] --plugins-dir <DIR> --hosts-dir <DIR> [PLUGIN]...

  -p, --plugins-dir <DIR>           plugins, as <DIR>/<id>/<version>/
  -H, --hosts-dir <DIR>             hosts, as <DIR>/<version>/
      --host-version <VERSION>      a host to verify against
      --classpath <DIR>             more classes, after those of the host
      --external-prefix <PREFIX>    a package that is there at run time
      --ignored-problems <FILE>     patterns of problems to ignore
      --documented-problems <FILE>  documented changes of the host
  -j, --workers <N>                 verifications at one time
      --disk-quota <SIZE>           size of the cache directory
      --cache-dir <DIR>             cache directory
      --format <table|json>         form of the results
      --no-color                    no colours
  -v, --verbose                     log more
  -q, --quiet                       log errors only
      --debug                       log everything
      --log-format <text|json>      form of the log
      --log-file <FILE>             file for the log
      --log-file-level <LEVEL>      level of the log file
      --config-file <FILE>          settings
      --config-name <NAME>          section of the settings that comes first
  -h, --help                        this text
  -V, --version                     the version"

def UsageFault.message : UsageFault → String
  | .unknownArgument => "there is no such option"
  | .invalidValue => "a value is not one of those that are possible"
  | .valueValidation => "a value cannot be read"
  | .argumentConflict => "an option is given twice"
  | .missingRequired => "a required option is missing"
  | .tooManyValues => "an option has a value that takes none"
  | .help => usageText
  | .version => "plugin-verifier 0.1.0"

/-- The names that lead from the root to a path, without ways up among them. -/
def namesFromRoot (start : List String) (path : String) : List String :=
  (Path.parts path).foldl (fun names part => if part = ".." then names.dropLast else names ++ [part])
    (if Path.isAbsolute path then [] else start)

/-- Adds all directories on the way to a place. -/
def addAncestors (tree : FileTree) (names : List String) : FileTree :=
  (List.range names.length).foldl (fun tree n => tree.addElsewhere (names.take n) .directory) tree

/-- Reads what stands at a path, with all that is below it. -/
partial def readPath (tree : FileTree) (path : String) (names : List String) : IO FileTree := do
  let real := (← IO.currentDir) / path
  if ← real.isDir then
    (← real.readDir).foldlM
      (fun tree child =>
        readPath tree (Path.join path child.fileName) (names ++ [child.fileName]))
      (tree.addElsewhere names .directory)
  else if ← real.pathExists then
    return tree.addElsewhere names (.file (← IO.FS.readBinFile real).toList)
  else return tree

/-- Reads what stands at some paths. -/
def readPaths (tree : FileTree) (start : List String) (paths : List String) : IO FileTree :=
  paths.foldlM (fun tree path =>
    let names := namesFromRoot start path
    readPath (addAncestors tree names) path names) tree

/-- The paths that a run may look at, but for those that its settings name. -/
def Arguments.paths (a : Arguments) (env : Environment) : List String :=
  [a.pluginsDirectory, a.hostsDirectory] ++ a.classpath ++ a.ignoredProblems.toList
    ++ a.documentedProblems.toList ++ a.settingsFile.toList ++ settingsCandidates env

/-- The paths that the settings of a run name. -/
def Arguments.settingsPaths (a : Arguments) (env : Environment) (tree : FileTree) : List String :=
  match a.loadSettings env tree with
  | .ok settings => (settings.value? "verifier" "documented-problems").toList
  | .error _ => []

/-- What a fault says, with all its causes. -/
def RunFault.message (f : RunFault) : String := ": ".intercalate (f.chain.map Cause.message)

/-- Runs the program, and answers its exit code. -/
def runProgram (words : List String) : IO UInt32 := do
  match Arguments.parse words with
  | .error .help => IO.println usageText; return 0
  | .error .version => IO.println (UsageFault.message .version); return 0
  | .error fault => IO.eprintln s!"error: {fault.message}"; return 2
  | .ok a =>
    let env : Environment :=
      { home := ← IO.getEnv "HOME"
        settingsHome := ← IO.getEnv "XDG_CONFIG_HOME"
        settingsFile := ← IO.getEnv "PLUGIN_VERIFIER_CONFIG" }
    let start := Path.parts (← IO.currentDir).toString
    let here : FileTree := { start := .root start }
    let tree ← readPaths (addAncestors here (start ++ [""])) start (a.paths env)
    let tree ← readPaths tree start (a.settingsPaths env tree)
    let outcome := a.run env tree (← (← IO.getStdout).isTty)
    IO.print outcome.output
    match outcome.failed with
    | .ok failed => return if failed then 2 else 0
    | .error fault =>
      IO.eprintln s!"Error: {fault.message}"
      return 1

end Linkage

def main (words : List String) : IO UInt32 := Linkage.runProgram words

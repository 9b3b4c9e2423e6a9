import Linkage.Cache.Basic
import Linkage.Plugin.Directory
import Linkage.Plugin.Repository

/-! Where dependencies are looked for. -/
namespace Linkage

/-- What a look for a dependency ends with. -/
inductive Found (lease : Type) where
  /-- The plugin was loaded, and stays so until the lease is given back. -/
  | leased (lease : lease) (plugin : Plugin)
  /-- The plugin is there in any case. -/
  | present (plugin : Plugin)
  | missing (reason : String)

/-- A way to look for dependencies; what is loaded meanwhile is in the state. -/
abbrev Finder (σ lease : Type) := Dependency → StateM σ (Found lease)

/-- Plugins of a catalogue, loaded on demand. -/
structure Library where
  repository : Repository
  /-- Loads a plugin of the catalogue. -/
  load : Coordinate → Except Refusal Plugin
  cache : Cache Coordinate Plugin

namespace Finder

variable {σ lease : Type}

/-- Looks among the plugins that a host comes with. -/
def bundled (plugins : List Plugin) : Finder σ lease := fun d =>
  let isMeant (p : Plugin) : Bool :=
    if d.onModule then p.descriptor.providesModule d.id else p.id == d.id
  pure <| match plugins.find? isMeant with
    | some p => .present p
    | none => .missing s!"{d.display} is not bundled with the host"

/-- Looks here and there; the first find counts. -/
def firstOf : List (Finder σ lease) → Finder σ lease
  | [], _ => pure (.missing "not found")
  | f :: fs, d => do
    match ← f d with
    | .missing _ => firstOf fs d
    | found => return found

end Finder

namespace Library

/-- The newest plugin of the catalogue that a dependency can mean. -/
def newest? (l : Library) (d : Dependency) : Option Coordinate :=
  if d.onModule then l.repository.withModule? d.id else l.repository.lastVersion? d.id

/-- Looks for the newest plugin, and leases it. -/
def find : Finder Library Coordinate := fun d => do
  let l ← get
  match l.newest? d with
  | none => return .missing s!"{d.display} is not in the repository"
  | some coordinate =>
    let (acquired, cache) := l.cache.acquire coordinate l.load
    set { l with cache }
    return match acquired.answer with
      | .ok plugin => .leased coordinate plugin
      | .error (.notFound reason) => .missing reason
      | .error (.invalid reason) => .missing s!"{coordinate.display} is invalid: {reason}"
      | .error (.failed reason) => .missing s!"{coordinate.display} failed to load: {reason}"

/-- Gives a leased plugin back. -/
def giveBack (coordinate : Coordinate) : StateM Library Unit :=
  modify fun l => { l with cache := (l.cache.release coordinate).2 }

/-- Runs on one of many libraries. -/
def among {α : Type} (i : Nat) (act : StateM Library α) (default : α) : StateM (List Library) α :=
  fun ls =>
    match ls[i]? with
    | some l => let (a, l) := act.run l; (a, ls.set i l)
    | none => (default, ls)

/-- Looks in one of many libraries. -/
def findAmong (i : Nat) : Finder (List Library) (Nat × Coordinate) := fun d =>
  among i (do
    match ← find d with
    | .leased coordinate plugin => return .leased (i, coordinate) plugin
    | .present plugin => return .present plugin
    | .missing reason => return .missing reason) (.missing "not found")

/-- Gives a plugin back to the library that it is from. -/
def giveBackTo (lease : Nat × Coordinate) : StateM (List Library) Unit :=
  among lease.1 (giveBack lease.2) ()

end Library
end Linkage

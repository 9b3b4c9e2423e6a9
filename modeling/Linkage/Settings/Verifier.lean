import Linkage.Settings.Basic

/-! The settings of a run of the verifier. -/
namespace Linkage

/-- How a run is done. -/
structure VerifierSettings where
  /-- The number of workers; without one there are as many as the machine has cores. -/
  workers : Option Nat := none
  pluginCapacity : Nat := 16
  hostCapacity : Nat := 4
  /-- The bytes that the cache directory may take. -/
  quota : Nat := 5 <<< 30
  cacheDirectory : Option String := none
  /-- The nanoseconds between two cleanups. -/
  cleanupInterval : Nat := 600 * Quantity.second
  externalPrefixes : List String := []
  ignoredProblems : List String := []
  documentedProblems : Option String := none
  deriving DecidableEq, Repr

namespace VerifierSettings

/-- What makes a run impossible. -/
def fault? (v : VerifierSettings) : Option SettingsFault :=
  if v.workers = some 0 then some .noWorkers
  else if v.pluginCapacity = 0 || v.hostCapacity = 0 then some .noCapacity
  else if v.cleanupInterval = 0 then some .noInterval
  else none

/-- Why there are no settings for a run: a setting is at fault, or all of them together are. -/
inductive Fault where
  | setting (fault : SettingsFault)
  | unusable (fault : SettingsFault)
  deriving DecidableEq, Repr

def Fault.chain : Fault → List Cause
  | .setting fault => fault.chain
  | .unusable fault => .said "Verifier configuration validation failed" :: fault.chain

def Fault.isCrash : Fault → Bool
  | .setting fault | .unusable fault => fault.isCrash

def quantity (s : Settings) (key : String)
    (read : String → Except QuantityFault Nat) (fault : String → QuantityFault → SettingsFault) :
    Except SettingsFault (Option Nat) :=
  s.read? "cache" key fun text => (read text).mapError (fault text)

def readAll (s : Settings) : Except SettingsFault VerifierSettings := do
  let d : VerifierSettings := {}
  let workers ← s.number? "verifier" "workers"
  let externalPrefixes ← s.list "verifier" "external-prefixes"
  let ignoredProblems ← s.list "verifier" "ignored-problems"
  let pluginCapacity ← s.number? "cache" "plugin-capacity"
  let hostCapacity ← s.number? "cache" "host-capacity"
  let quota ← quantity s "disk-quota" Quantity.size .badQuota
  let interval ← quantity s "cleanup-interval" Quantity.interval .badInterval
  return {
    workers, externalPrefixes, ignoredProblems
    pluginCapacity := pluginCapacity.getD d.pluginCapacity
    hostCapacity := hostCapacity.getD d.hostCapacity
    quota := quota.getD d.quota
    cleanupInterval := interval.getD d.cleanupInterval
    cacheDirectory := s.value? "cache" "directory"
    documentedProblems := s.value? "verifier" "documented-problems" }

/-- Takes the settings for a run out of all settings. -/
def ofSettings (s : Settings) : Except Fault VerifierSettings := do
  let v ← (readAll s).mapError .setting
  match v.fault? with
  | some fault => .error (.unusable fault)
  | none => .ok v

end VerifierSettings
end Linkage

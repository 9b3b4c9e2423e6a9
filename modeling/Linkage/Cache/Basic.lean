import Linkage.Data.Json

/-! Resources that are made on demand, leased to many, and kept for a while when nobody has them. -/
namespace Linkage

/-- Why a resource cannot be had. -/
inductive Refusal where
  | notFound (reason : String)
  /-- It is there, but it is not sound. -/
  | invalid (reason : String)
  | failed (reason : String)
  deriving DecidableEq, Repr

def Refusal.reason : Refusal → String
  | .notFound reason | .invalid reason | .failed reason => reason

/-- What a cache has counted. -/
structure CacheStatistics where
  hits : Nat := 0
  misses : Nat := 0
  creations : Nat := 0
  failures : Nat := 0
  evictions : Nat := 0
  deriving DecidableEq, Repr

/-- The share of requests that needed no creation; none of none. -/
def CacheStatistics.hitRatio (s : CacheStatistics) : Float :=
  if s.hits + s.misses = 0 then 0 else Float.ofNat s.hits / Float.ofNat (s.hits + s.misses)

def CacheStatistics.toJson (s : CacheStatistics) : Json :=
  .obj [("hits", .nat s.hits), ("misses", .nat s.misses), ("creations", .nat s.creations),
    ("failures", .nat s.failures), ("evictions", .nat s.evictions)]

/-- A resource in a cache: how many leases on it are out, and when the last of them came back. -/
structure CacheEntry (κ ρ : Type) where
  key : κ
  resource : ρ
  leases : Nat
  returned : Nat := 0
  deriving DecidableEq, Repr

def CacheEntry.isIdle {κ ρ : Type} (e : CacheEntry κ ρ) : Bool := e.leases == 0

/-- A cache. It keeps at most `capacity` entries, unless more are leased. -/
structure Cache (κ ρ : Type) where
  capacity : Nat
  entries : List (CacheEntry κ ρ) := []
  /-- The keys whose resources are being made. -/
  creating : List κ := []
  /-- Counts the leases that came back. -/
  clock : Nat := 0
  statistics : CacheStatistics := {}
  deriving Repr

namespace Cache

/-- What a caller who asks for a resource is told at once. -/
inductive Reply (ρ : Type) where
  /-- Here it is, on a lease. -/
  | leased (resource : ρ)
  /-- Somebody else is making it. -/
  | wait
  /-- It has to be made, by the caller. -/
  | create

variable {κ ρ : Type} [DecidableEq κ]

def entry? (c : Cache κ ρ) (key : κ) : Option (CacheEntry κ ρ) := c.entries.find? (·.key = key)

def contains (c : Cache κ ρ) (key : κ) : Bool := (c.entry? key).isSome

/-- How many leases are out on a resource that is in the cache. -/
def leases? (c : Cache κ ρ) (key : κ) : Option Nat := (c.entry? key).map (·.leases)

def size (c : Cache κ ρ) : Nat := c.entries.length

/-- Changes the entry of a key. -/
def modify (c : Cache κ ρ) (key : κ) (f : CacheEntry κ ρ → CacheEntry κ ρ) : Cache κ ρ :=
  { c with entries := c.entries.map fun e => if e.key = key then f e else e }

/-- Counts something. -/
def count (f : CacheStatistics → CacheStatistics) (c : Cache κ ρ) : Cache κ ρ :=
  { c with statistics := f c.statistics }

/-- Asks for a resource. -/
def ask (c : Cache κ ρ) (key : κ) : Reply ρ × Cache κ ρ :=
  match c.entry? key with
  | some e =>
    (.leased e.resource, count (fun s => { s with hits := s.hits + 1 })
      (c.modify key fun e => { e with leases := e.leases + 1 }))
  | none =>
    if key ∈ c.creating then (.wait, c)
    else
      (.create, count (fun s => { s with misses := s.misses + 1 })
        { c with creating := key :: c.creating })

/-- The idle entry whose last lease came back first. -/
def oldestIdle? : List (CacheEntry κ ρ) → Option (CacheEntry κ ρ)
  | [] => none
  | e :: es =>
    match e.isIdle, oldestIdle? es with
    | true, some o => if e.returned ≤ o.returned then some e else some o
    | true, none => some e
    | false, o => o

/-- Takes at most `n` idle entries out, the oldest first, and tells which. -/
def evictIdle : (n : Nat) → List (CacheEntry κ ρ) → List (CacheEntry κ ρ) × List (CacheEntry κ ρ)
  | 0, es => ([], es)
  | n + 1, es =>
    match oldestIdle? es with
    | none => ([], es)
    | some o =>
      let (out, left) := evictIdle n (es.filter (·.key ≠ o.key))
      (o :: out, left)

/-- Takes out idle entries until the rest fits into the cache. -/
def shrink (c : Cache κ ρ) : List (κ × ρ) × Cache κ ρ :=
  let (out, left) := evictIdle (c.entries.length - c.capacity) c.entries
  (out.map fun e => (e.key, e.resource),
    count (fun s => { s with evictions := s.evictions + out.length }) { c with entries := left })

/-- Ends a creation: the resource goes to the one who made it, on a lease. -/
def created (c : Cache κ ρ) (key : κ) (resource : ρ) : List (κ × ρ) × Cache κ ρ :=
  shrink <| count (fun s => { s with creations := s.creations + 1 })
    { c with
      creating := c.creating.filter (· ≠ key)
      entries := c.entries ++ [{ key, resource, leases := 1 }] }

/-- Ends a creation that was broken off. -/
def abandoned (c : Cache κ ρ) (key : κ) : Cache κ ρ :=
  { c with creating := c.creating.filter (· ≠ key) }

/-- Ends a creation without a resource. That there is none is no failure. -/
def refused (c : Cache κ ρ) (key : κ) (refusal : Refusal) : Cache κ ρ :=
  match refusal with
  | .notFound _ => c.abandoned key
  | .invalid _ | .failed _ =>
    count (fun s => { s with failures := s.failures + 1 }) (c.abandoned key)

/-- Takes one more lease on a resource that is leased. -/
def share (c : Cache κ ρ) (key : κ) : Cache κ ρ :=
  c.modify key fun e => { e with leases := e.leases + 1 }

/-- Gives a lease back. -/
def release (c : Cache κ ρ) (key : κ) : List (κ × ρ) × Cache κ ρ :=
  let c := { c with clock := c.clock + 1 }
  if c.contains key then
    shrink (c.modify key fun e =>
      { e with leases := e.leases - 1, returned := if e.leases ≤ 1 then c.clock else e.returned })
  else ([], c)

/-- Takes out all idle entries. -/
def clearIdle (c : Cache κ ρ) : List (κ × ρ) × Cache κ ρ :=
  let out := c.entries.filter (·.isIdle)
  (out.map fun e => (e.key, e.resource),
    count (fun s => { s with evictions := s.evictions + out.length })
      { c with entries := c.entries.filter (!·.isIdle) })

/-- What an acquisition ends with: the resource on a lease or the refusal, and what was evicted. -/
structure Acquisition (κ ρ : Type) where
  answer : Except Refusal ρ
  evicted : List (κ × ρ) := []

/-- Asks for a resource, and makes it if need be. Nobody else makes anything meanwhile. -/
def acquire (c : Cache κ ρ) (key : κ) (make : κ → Except Refusal ρ) :
    Acquisition κ ρ × Cache κ ρ :=
  match c.ask key with
  | (.leased resource, c) => (⟨.ok resource, []⟩, c)
  | (.wait, c) => (⟨.error (.failed "in creation"), []⟩, c)
  | (.create, c) =>
    match make key with
    | .ok resource =>
      let (evicted, c) := c.created key resource
      (⟨.ok resource, evicted⟩, c)
    | .error refusal => (⟨.error refusal, []⟩, c.refused key refusal)

end Cache
end Linkage

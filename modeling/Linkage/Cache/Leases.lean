import Linkage.Cache.Basic
import Linkage.Text.Escaped

/-! A cache together with the leases that are out, each under the name that its holder gave it. -/
namespace Linkage

/-- A cache and the leases on its resources. -/
structure LeaseBook (κ ρ : Type) where
  cache : Cache κ ρ
  held : List (String × κ × ρ) := []

/-- What is said of a lease on a resource of some cache. -/
def leaseText (cache key : String) : String :=
  "ScopedHandle \x7b cache: " ++ escaped cache ++ ", key: " ++ escaped key
    ++ ", released: false \x7d"

namespace LeaseBook

variable {κ ρ : Type} [DecidableEq κ]

def held? (b : LeaseBook κ ρ) (name : String) : Option (κ × ρ) := b.held.lookup name

/-- Gives the lease of that name back, if there is one, and tells what is evicted then. -/
def release (b : LeaseBook κ ρ) (name : String) : List (κ × ρ) × LeaseBook κ ρ :=
  match b.held? name with
  | none => ([], b)
  | some (key, _) =>
    let (evicted, cache) := b.cache.release key
    (evicted, ⟨cache, b.held.filter (·.1 ≠ name)⟩)

/-- Notes a lease that was just taken. An older one of that name is given back. -/
def note (b : LeaseBook κ ρ) (name : String) (key : κ) (resource : ρ) :
    List (κ × ρ) × LeaseBook κ ρ :=
  let (evicted, b) := b.release name
  (evicted, { b with held := (name, key, resource) :: b.held })

/-- Takes one more lease on what a lease is on. -/
def share (b : LeaseBook κ ρ) (name new : String) :
    Option (κ × ρ) × List (κ × ρ) × LeaseBook κ ρ :=
  match b.held? name with
  | none => (none, [], b)
  | some (key, resource) =>
    (some (key, resource), { b with cache := b.cache.share key }.note new key resource)

/-- Acquires a resource. Making it may be broken off, which leaves no answer. -/
def acquire (b : LeaseBook κ ρ) (key : κ) (name : String)
    (make : κ → Option (Except Refusal ρ)) :
    Option (Except Refusal ρ) × List (κ × ρ) × LeaseBook κ ρ :=
  let lease (resource : ρ) (evicted : List (κ × ρ)) (cache : Cache κ ρ) :=
    let (more, b) := { b with cache }.note name key resource
    (some (.ok resource), evicted ++ more, b)
  match b.cache.ask key with
  | (.leased resource, cache) => lease resource [] cache
  | (.wait, cache) => (none, [], { b with cache })
  | (.create, cache) =>
    match make key with
    | none => (none, [], { b with cache := cache.abandoned key })
    | some (.error refusal) => (some (.error refusal), [], { b with cache := cache.refused key refusal })
    | some (.ok resource) =>
      let (evicted, cache) := cache.created key resource
      lease resource evicted cache

/-- Gives all leases back. -/
def releaseAll (b : LeaseBook κ ρ) : List (κ × ρ) × LeaseBook κ ρ :=
  b.held.foldl (fun (evicted, b) (name, _) =>
    let (more, b) := b.release name
    (evicted ++ more, b)) ([], b)

end LeaseBook
end Linkage

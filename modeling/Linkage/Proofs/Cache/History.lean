import Linkage.Proofs.Cache.Callers

/-! What the callers of a cache have done so far, and what has become of all that they made. -/
namespace Linkage

/-- A step that was made, with the states before and after it. -/
structure Stride (κ : Type) where
  before : Callers κ
  step : CallerStep κ
  after : Callers κ

/-- What is made in a step. -/
def Stride.created {κ : Type} (stride : Stride κ) : List (κ × Nat) :=
  match stride.step with
  | .provided key => [(key, stride.before.made)]
  | _ => []

/-- All that was made, in the order in which it was. -/
def created {κ : Type} (past : List (Stride κ)) : List (κ × Nat) := past.flatMap (·.created)

theorem created_concat {κ : Type} (past : List (Stride κ)) (stride : Stride κ) :
    created (past ++ [stride]) = created past ++ stride.created := by
  simp [created]

/-- What the cache gives up in a step. -/
def Stride.givenUp {κ : Type} [DecidableEq κ] (stride : Stride κ) : List (κ × Nat) :=
  match stride.step with
  | .provided key => (stride.before.cache.created key stride.before.made).1
  | .release lease => (stride.before.cache.release lease.1).1
  | .clearIdle => stride.before.cache.clearIdle.1
  | _ => []

/-- All that the cache gave up, be it for want of room or because it was cleared. -/
def givenUp {κ : Type} [DecidableEq κ] (past : List (Stride κ)) : List (κ × Nat) :=
  past.flatMap (·.givenUp)

theorem givenUp_concat {κ : Type} [DecidableEq κ] (past : List (Stride κ)) (stride : Stride κ) :
    givenUp (past ++ [stride]) = givenUp past ++ stride.givenUp := by
  simp [givenUp]

namespace Cache

variable {κ ρ : Type}

/-- The resources of a cache, each with its key. -/
def holdings (c : Cache κ ρ) : List (κ × ρ) := c.entries.map fun e => (e.key, e.resource)

theorem mem_holdings {c : Cache κ ρ} {e : CacheEntry κ ρ} (he : e ∈ c.entries) :
    (e.key, e.resource) ∈ c.holdings :=
  List.mem_map.mpr ⟨e, he, rfl⟩

theorem Evicts.holdings {c c' : Cache κ ρ} {out : List (κ × ρ)} (h : Evicts c out c') :
    (out ++ c'.holdings).Perm c.holdings := by
  obtain ⟨victims, rfl, hperm, -⟩ := h.entries
  have hmap := hperm.map fun e : CacheEntry κ ρ => (e.key, e.resource)
  rwa [List.map_append] at hmap

variable [DecidableEq κ]

theorem holdings_modify {c : Cache κ ρ} {key : κ} {f : CacheEntry κ ρ → CacheEntry κ ρ}
    (hkey : ∀ e, (f e).key = e.key) (hresource : ∀ e, (f e).resource = e.resource) :
    (c.modify key f).holdings = c.holdings := by
  unfold holdings modify
  rw [List.map_map]
  refine List.map_congr_left fun e _ => ?_
  dsimp only [Function.comp]
  split
  · rw [hkey, hresource]
  · rfl

theorem holdings_share (c : Cache κ ρ) (key : κ) : (c.share key).holdings = c.holdings :=
  holdings_modify (fun _ => rfl) fun _ => rfl

section Change

variable {c : Cache κ ρ} {key : κ}

/-- The cache that a lease comes back to, before anything is given up. -/
def returned (c : Cache κ ρ) (key : κ) : Cache κ ρ :=
  { c with clock := c.clock + 1 }.modify key fun e =>
    { e with leases := e.leases - 1, returned := if e.leases ≤ 1 then c.clock + 1 else e.returned }

/-- The cache with a new resource, before anything is given up. -/
def joined (c : Cache κ ρ) (key : κ) (resource : ρ) : Cache κ ρ :=
  count (fun s => { s with creations := s.creations + 1 })
    { c with
      creating := c.creating.filter (· ≠ key)
      entries := c.entries ++ [{ key, resource, leases := 1 }] }

theorem keys_returned (c : Cache κ ρ) (key : κ) : (c.returned key).keys = c.keys :=
  keys_modify fun _ => rfl

theorem holdings_returned (c : Cache κ ρ) (key : κ) : (c.returned key).holdings = c.holdings :=
  holdings_modify (fun _ => rfl) fun _ => rfl

theorem keys_joined (c : Cache κ ρ) (key : κ) (resource : ρ) :
    (c.joined key resource).keys = c.keys ++ [key] :=
  List.map_append

theorem nodup_keys_joined (hkeys : c.keys.Nodup) (hnew : key ∉ c.keys) (resource : ρ) :
    (c.joined key resource).keys.Nodup := by
  rw [keys_joined]
  refine List.nodup_append.mpr ⟨hkeys, List.nodup_singleton key, ?_⟩
  intro k hk k' hk' heq
  rw [heq, List.mem_singleton.mp hk'] at hk
  exact hnew hk

theorem release_of_mem (h : key ∈ c.keys) : c.release key = (c.returned key).shrink :=
  if_pos (contains_iff.mpr h)

theorem release_of_not_mem (h : key ∉ c.keys) :
    c.release key = ([], { c with clock := c.clock + 1 }) :=
  if_neg fun hcontains => h (contains_iff.mp hcontains)

theorem created_eq (c : Cache κ ρ) (key : κ) (resource : ρ) :
    c.created key resource = (c.joined key resource).shrink := rfl

theorem holdings_release (hkeys : c.keys.Nodup) (key : κ) :
    ((c.release key).1 ++ (c.release key).2.holdings).Perm c.holdings := by
  by_cases hmem : key ∈ c.keys
  · rw [release_of_mem hmem, ← holdings_returned c key]
    exact (evicts_shrink ((keys_returned c key).symm ▸ hkeys)).holdings
  · rw [release_of_not_mem hmem]
    exact List.Perm.refl _

theorem holdings_created (hkeys : c.keys.Nodup) (hnew : key ∉ c.keys) (resource : ρ) :
    ((c.created key resource).1 ++ (c.created key resource).2.holdings).Perm
      (c.holdings ++ [(key, resource)]) := by
  have hheld : (c.joined key resource).holdings = c.holdings ++ [(key, resource)] :=
    List.map_append
  rw [created_eq, ← hheld]
  exact (evicts_shrink (nodup_keys_joined hkeys hnew resource)).holdings

end Change

end Cache

namespace Callers

variable {κ : Type} [DecidableEq κ]

/-- The steps of a run, the first first. -/
def history (s : Callers κ) : List (CallerStep κ) → List (Stride κ)
  | [] => []
  | step :: steps =>
    match s.step step with
    | none => []
    | some t => ⟨s, step, t⟩ :: t.history steps

variable {s t : Callers κ} {steps : List (CallerStep κ)}

theorem run_cons {step : CallerStep κ} (h : s.run (step :: steps) = some t) :
    ∃ next, s.step step = some next ∧ next.run steps = some t
      ∧ s.history (step :: steps) = ⟨s, step, next⟩ :: next.history steps := by
  obtain ⟨next, hnext, hrest⟩ := Option.bind_eq_some_iff.mp h
  exact ⟨next, hnext, hrest, by simp [history, hnext]⟩

/-- What holds at the start with nothing done, and is kept by every step that is noted, holds after
a run with its history. -/
theorem holds_of_run {P : List (Stride κ) → Callers κ → Prop} (hstart : P [] s)
    (hstep : ∀ past u step v, P past u → u.step step = some v → P (past ++ [⟨u, step, v⟩]) v)
    (hrun : s.run steps = some t) : P (s.history steps) t := by
  -- the past of the run's first state grows along the run
  suffices hall : ∀ past u, P past u → u.run steps = some t → P (past ++ u.history steps) t from
    hall [] s hstart hrun
  clear hrun hstart
  intro past u hu hrun
  induction steps generalizing past u with
  | nil =>
    obtain rfl := Option.some.inj hrun
    simpa [history] using hu
  | cons step steps ih =>
    obtain ⟨next, hnext, hrest, hhistory⟩ := run_cons hrun
    have hwhole := ih (past ++ [⟨u, step, next⟩]) next (hstep past u step next hu hnext) hrest
    rwa [List.append_assoc, List.singleton_append, ← hhistory] at hwhole

/-- Who asks gets a lease, has to wait, or has to make the resource. -/
theorem ask_cases (s : Callers κ) (key : κ) :
    (∃ e ∈ s.cache.entries, e.key = key ∧ s.ask key =
        { s with
          cache := Cache.count (fun n => { n with hits := n.hits + 1 }) (s.cache.share key)
          arriving := (key, e.resource) :: s.arriving })
      ∨ key ∉ s.cache.keys ∧ key ∈ s.cache.creating
        ∧ s.ask key = { s with asleep := key :: s.asleep }
      ∨ key ∉ s.cache.keys ∧ key ∉ s.cache.creating ∧ s.ask key =
        { s with
          cache := Cache.count (fun n => { n with misses := n.misses + 1 })
            { s.cache with creating := key :: s.cache.creating }
          making := key :: s.making } := by
  unfold ask Cache.ask
  cases hentry : s.cache.entry? key with
  | some e =>
    obtain ⟨he, rfl⟩ := Cache.entry?_eq_some hentry
    exact Or.inl ⟨e, he, rfl, rfl⟩
  | none =>
    have hcached : key ∉ s.cache.keys := by
      rw [← Cache.contains_iff, Cache.contains, hentry]
      exact Bool.false_ne_true
    by_cases hcreating : key ∈ s.cache.creating
    · simp only [hcreating, if_true]
      exact Or.inr (Or.inl ⟨hcached, trivial, trivial⟩)
    · simp only [hcreating, if_false]
      exact Or.inr (Or.inr ⟨hcached, not_false, trivial⟩)

/-- What is in the cache and what has left it. -/
def accountedFor (s : Callers κ) : List (κ × Nat) := s.cache.holdings ++ s.gone

theorem accountedFor_ask (s : Callers κ) (key : κ) :
    (s.ask key).accountedFor = s.accountedFor := by
  rcases s.ask_cases key with ⟨e, -, -, heq⟩ | ⟨-, -, heq⟩ | ⟨-, -, heq⟩
  · rw [heq]
    exact congrArg (· ++ s.gone) (s.cache.holdings_share key)
  · rw [heq]
    rfl
  · rw [heq]
    rfl

/-- What a step takes out of the cache has left it. -/
theorem perm_afterEviction {change : List (κ × Nat) × Cache κ Nat} {held : List (κ × Nat)}
    (hchange : (change.1 ++ change.2.holdings).Perm held) :
    (s.afterEviction change).accountedFor.Perm (held ++ s.gone) := by
  refine List.perm_iff_count.mpr fun lease => ?_
  have hcount := hchange.count_eq lease
  simp only [accountedFor, afterEviction, gone, List.count_append] at hcount ⊢
  omega

/-- A step loses nothing and adds only what is made in it. -/
theorem Accounted.accountedFor_step (h : s.Accounted) {step : CallerStep κ}
    (hstep : s.step step = some t) :
    t.accountedFor.Perm (s.accountedFor ++ (Stride.mk s step t).created) := by
  cases step with
  | ask key =>
    obtain rfl := Option.some.inj hstep
    simp [Stride.created, accountedFor_ask]
  | askAgain key =>
    obtain ⟨-, rfl⟩ := of_guard hstep
    simp only [Stride.created, accountedFor_ask, List.append_nil]
    exact List.Perm.refl _
  | provided key =>
    obtain ⟨hmaking, rfl⟩ := of_guard hstep
    have hnew := h.uncached key (h.making.subset hmaking)
    have hperm := perm_afterEviction (s := { s.endCreation key with
      arriving := (key, s.made) :: s.arriving
      made := s.made + 1 }) (Cache.holdings_created h.keys hnew s.made)
    refine hperm.trans (List.perm_iff_count.mpr fun lease => ?_)
    simp only [accountedFor, Stride.created, endCreation, gone, List.count_append]
    omega
  | refused key refusal =>
    obtain ⟨-, rfl⟩ := of_guard hstep
    cases refusal <;> simp [Stride.created, accountedFor, Cache.refused, Cache.abandoned,
      Cache.count, Cache.holdings, endCreation, gone]
  | panicked key =>
    obtain ⟨-, rfl⟩ := of_guard hstep
    simp [Stride.created, accountedFor, Cache.abandoned, Cache.holdings, endCreation, gone]
  | receive lease =>
    obtain ⟨-, rfl⟩ := of_guard hstep
    simp [Stride.created, accountedFor, gone]
  | share lease =>
    obtain ⟨-, rfl⟩ := of_guard hstep
    simp [Stride.created, accountedFor, gone, Cache.holdings_share]
  | release lease =>
    obtain ⟨-, rfl⟩ := of_guard hstep
    have hperm := perm_afterEviction (s := { s with live := s.live.erase lease })
      (Cache.holdings_release h.keys lease.1)
    simpa [Stride.created, accountedFor, gone] using hperm
  | clearIdle =>
    obtain rfl := Option.some.inj hstep
    have hperm := perm_afterEviction (s := s) (Cache.evicts_clearIdle s.cache).holdings
    simpa [Stride.created, accountedFor, gone] using hperm
  | dispose lease =>
    obtain ⟨hlease, rfl⟩ := of_guard hstep
    have hmoved : (s.evicted.erase lease ++ lease :: s.disposed).Perm s.gone :=
      List.perm_middle.trans ((List.perm_cons_erase hlease).symm.append_right _)
    simpa [Stride.created, accountedFor, gone] using hmoved.append_left s.cache.holdings

/-- All that was ever made is in the cache or has left it, once. -/
theorem Accounted.accountedFor_run (h : s.Accounted) (hrun : s.run steps = some t) :
    t.accountedFor.Perm (s.accountedFor ++ created (s.history steps)) := by
  have hboth := holds_of_run
    (P := fun past u => u.Accounted ∧ u.accountedFor.Perm (s.accountedFor ++ created past))
    ⟨h, by simp [created]⟩
    (fun past u step v hu hstep => by
      refine ⟨hu.1.step hstep, (hu.1.accountedFor_step hstep).trans ?_⟩
      simpa [created_concat] using hu.2.append_right (Stride.mk u step v).created)
    hrun
  exact hboth.2

end Callers
end Linkage

import Linkage.Proofs.Cache.History

/-! What a cache counts, and what becomes of every resource that was made for it. -/
namespace Linkage

namespace CallerStep

variable {κ : Type}

/-- An acquisition begins. -/
def asks : CallerStep κ → Bool
  | .ask _ => true
  | _ => false

/-- A provider has nothing for its key. -/
def findsNothing : CallerStep κ → Bool
  | .refused _ (.notFound _) => true
  | _ => false

/-- A provider breaks down. -/
def panics : CallerStep κ → Bool
  | .panicked _ => true
  | _ => false

end CallerStep

namespace Cache

variable {κ ρ : Type}

theorem statistics_clearIdle (c : Cache κ ρ) : c.clearIdle.2.statistics =
    { c.statistics with evictions := c.statistics.evictions + c.clearIdle.1.length } := by
  simp [clearIdle, count]

variable [DecidableEq κ]

theorem statistics_shrink (c : Cache κ ρ) : c.shrink.2.statistics =
    { c.statistics with evictions := c.statistics.evictions + c.shrink.1.length } := by
  simp [shrink, count]

theorem statistics_release (c : Cache κ ρ) (key : κ) : (c.release key).2.statistics =
    { c.statistics with evictions := c.statistics.evictions + (c.release key).1.length } := by
  by_cases hmem : key ∈ c.keys
  · rw [release_of_mem hmem]
    exact statistics_shrink (c.returned key)
  · rw [release_of_not_mem hmem]
    rfl

theorem statistics_created (c : Cache κ ρ) (key : κ) (resource : ρ) :
    (c.created key resource).2.statistics =
      { c.statistics with
        creations := c.statistics.creations + 1
        evictions := c.statistics.evictions + (c.created key resource).1.length } :=
  statistics_shrink (c.joined key resource)

end Cache

namespace Callers

variable {κ : Type} [DecidableEq κ]

/-- No operation is in progress. Leases may be held. -/
structure Quiet (s : Callers κ) : Prop where
  making : s.making = []
  asleep : s.asleep = []
  awake : s.awake = []
  arriving : s.arriving = []
  evicted : s.evicted = []

/-- The acquisitions of which it is decided whether they are hits, and those of which it is not. -/
def requests (s : Callers κ) : Nat :=
  s.cache.statistics.hits + s.cache.statistics.misses + s.asleep.length + s.awake.length

/-- The creations that are counted, by how they ended, and those that go on. -/
def attempts (s : Callers κ) : Nat :=
  s.cache.statistics.creations + s.cache.statistics.failures + s.making.length

variable {s t : Callers κ} {past : List (Stride κ)}

theorem requests_ask (s : Callers κ) (key : κ) : (s.ask key).requests = s.requests + 1 := by
  rcases s.ask_cases key with ⟨e, -, -, heq⟩ | ⟨-, -, heq⟩ | ⟨-, -, heq⟩
  · rw [heq]
    simp only [requests, Cache.count, Cache.share, Cache.modify]
    omega
  · rw [heq]
    simp only [requests, List.length_cons]
    omega
  · rw [heq]
    simp only [requests, Cache.count]
    omega

theorem requests_step {step : CallerStep κ} (hstep : s.step step = some t) :
    t.requests = s.requests + if step.asks then 1 else 0 := by
  cases step with
  | ask key => exact Option.some.inj hstep ▸ requests_ask s key
  | askAgain key =>
    obtain ⟨hawake, rfl⟩ := of_guard hstep
    have hlength := List.length_erase_add_one hawake
    rw [requests_ask]
    simp only [requests, CallerStep.asks, Bool.false_eq_true, if_false]
    omega
  | provided key =>
    obtain ⟨-, rfl⟩ := of_guard hstep
    simp only [requests, afterEviction, endCreation, Cache.statistics_created, CallerStep.asks,
      List.length_append, List.length_nil, Bool.false_eq_true, if_false]
    omega
  | refused key refusal =>
    obtain ⟨-, rfl⟩ := of_guard hstep
    cases refusal <;>
      simp only [requests, endCreation, Cache.refused, Cache.abandoned, Cache.count,
        CallerStep.asks, List.length_append, List.length_nil, Bool.false_eq_true, if_false] <;>
      omega
  | panicked key =>
    obtain ⟨-, rfl⟩ := of_guard hstep
    simp only [requests, endCreation, Cache.abandoned, CallerStep.asks, List.length_append,
      List.length_nil, Bool.false_eq_true, if_false]
    omega
  | release lease =>
    obtain ⟨-, rfl⟩ := of_guard hstep
    simp only [requests, afterEviction, Cache.statistics_release]
    rfl
  | clearIdle =>
    obtain rfl := Option.some.inj hstep
    simp only [requests, afterEviction, Cache.statistics_clearIdle]
    rfl
  | _ =>
    obtain ⟨-, rfl⟩ := of_guard hstep
    rfl

theorem attempts_ask (s : Callers κ) (key : κ) :
    (s.ask key).attempts + s.cache.statistics.misses
      = s.attempts + (s.ask key).cache.statistics.misses := by
  rcases s.ask_cases key with ⟨e, -, -, heq⟩ | ⟨-, -, heq⟩ | ⟨-, -, heq⟩
  · rw [heq]
    rfl
  · rw [heq]
    rfl
  · rw [heq]
    simp only [attempts, Cache.count, List.length_cons]
    omega

/-- A miss begins an attempt. An attempt that finds nothing or breaks down is counted nowhere else. -/
theorem attempts_step {step : CallerStep κ} (hstep : s.step step = some t) :
    t.attempts + s.cache.statistics.misses
        + (if step.findsNothing then 1 else 0) + (if step.panics then 1 else 0)
      = s.attempts + t.cache.statistics.misses := by
  cases step with
  | ask key => exact Option.some.inj hstep ▸ attempts_ask s key
  | askAgain key =>
    obtain ⟨-, rfl⟩ := of_guard hstep
    exact attempts_ask { s with awake := s.awake.erase key } key
  | provided key =>
    obtain ⟨hmaking, rfl⟩ := of_guard hstep
    have hlength := List.length_erase_add_one hmaking
    simp only [attempts, afterEviction, endCreation, Cache.statistics_created,
      CallerStep.findsNothing, CallerStep.panics, Bool.false_eq_true, if_false]
    omega
  | refused key refusal =>
    obtain ⟨hmaking, rfl⟩ := of_guard hstep
    have hlength := List.length_erase_add_one hmaking
    cases refusal <;>
      simp only [attempts, endCreation, Cache.refused, Cache.abandoned, Cache.count,
        CallerStep.findsNothing, CallerStep.panics, Bool.false_eq_true, if_false, if_true] <;>
      omega
  | panicked key =>
    obtain ⟨hmaking, rfl⟩ := of_guard hstep
    have hlength := List.length_erase_add_one hmaking
    simp only [attempts, endCreation, Cache.abandoned, CallerStep.findsNothing, CallerStep.panics, Bool.false_eq_true, if_false, if_true]
    omega
  | release lease =>
    obtain ⟨-, rfl⟩ := of_guard hstep
    simp only [attempts, afterEviction, Cache.statistics_release]
    rfl
  | clearIdle =>
    obtain rfl := Option.some.inj hstep
    simp only [attempts, afterEviction, Cache.statistics_clearIdle]
    rfl
  | _ =>
    obtain ⟨-, rfl⟩ := of_guard hstep
    rfl

/-- Who asks makes nothing and takes nothing out. -/
theorem ask_keeps (s : Callers κ) (key : κ) : (s.ask key).made = s.made
    ∧ (s.ask key).gone = s.gone
    ∧ (s.ask key).cache.statistics.creations = s.cache.statistics.creations
    ∧ (s.ask key).cache.statistics.evictions = s.cache.statistics.evictions := by
  rcases s.ask_cases key with ⟨e, -, -, heq⟩ | ⟨-, -, heq⟩ | ⟨-, -, heq⟩ <;>
    rw [heq] <;> exact ⟨rfl, rfl, rfl, rfl⟩

/-- A resource is made in a step and counted under the next number, or none is. -/
theorem created_cases {step : CallerStep κ} (hstep : s.step step = some t) :
    (∃ key, (Stride.mk s step t).created = [(key, s.made)] ∧ t.made = s.made + 1
        ∧ t.cache.statistics.creations = s.cache.statistics.creations + 1)
      ∨ (Stride.mk s step t).created = [] ∧ t.made = s.made
        ∧ t.cache.statistics.creations = s.cache.statistics.creations := by
  cases step with
  | ask key =>
    obtain rfl := Option.some.inj hstep
    obtain ⟨hmade, -, hcreations, -⟩ := s.ask_keeps key
    exact Or.inr ⟨rfl, hmade, hcreations⟩
  | askAgain key =>
    obtain ⟨-, rfl⟩ := of_guard hstep
    obtain ⟨hmade, -, hcreations, -⟩ := ask_keeps { s with awake := s.awake.erase key } key
    exact Or.inr ⟨rfl, hmade, hcreations⟩
  | provided key =>
    obtain ⟨-, rfl⟩ := of_guard hstep
    have hmore := congrArg CacheStatistics.creations (s.cache.statistics_created key s.made)
    exact Or.inl ⟨key, rfl, rfl, hmore⟩
  | refused key refusal =>
    obtain ⟨-, rfl⟩ := of_guard hstep
    cases refusal <;> exact Or.inr ⟨rfl, rfl, rfl⟩
  | release lease =>
    obtain ⟨-, rfl⟩ := of_guard hstep
    have hsame := congrArg CacheStatistics.creations (s.cache.statistics_release lease.1)
    exact Or.inr ⟨rfl, rfl, hsame⟩
  | clearIdle =>
    obtain rfl := Option.some.inj hstep
    exact Or.inr ⟨rfl, rfl, rfl⟩
  | _ =>
    obtain ⟨-, rfl⟩ := of_guard hstep
    exact Or.inr ⟨rfl, rfl, rfl⟩

theorem gone_afterEviction (s : Callers κ) (change : List (κ × Nat) × Cache κ Nat) :
    (s.afterEviction change).gone.Perm (s.gone ++ change.1) := by
  refine List.perm_iff_count.mpr fun lease => ?_
  simp only [afterEviction, gone, List.count_append]
  omega

/-- What the cache gives up in a step is counted, and has left it. -/
theorem givenUp_step {step : CallerStep κ} (hstep : s.step step = some t) :
    t.cache.statistics.evictions
        = s.cache.statistics.evictions + (Stride.mk s step t).givenUp.length
      ∧ t.gone.Perm (s.gone ++ (Stride.mk s step t).givenUp) := by
  have hnone : s.gone.Perm (s.gone ++ []) := by rw [List.append_nil]
  cases step with
  | ask key =>
    obtain rfl := Option.some.inj hstep
    obtain ⟨-, hgone, -, hevictions⟩ := s.ask_keeps key
    exact ⟨hevictions, hgone ▸ hnone⟩
  | askAgain key =>
    obtain ⟨-, rfl⟩ := of_guard hstep
    obtain ⟨-, hgone, -, hevictions⟩ := ask_keeps { s with awake := s.awake.erase key } key
    exact ⟨hevictions, hgone ▸ hnone⟩
  | provided key =>
    obtain ⟨-, rfl⟩ := of_guard hstep
    refine ⟨?_, gone_afterEviction _ _⟩
    exact congrArg CacheStatistics.evictions (s.cache.statistics_created key s.made)
  | refused key refusal =>
    obtain ⟨-, rfl⟩ := of_guard hstep
    cases refusal <;> exact ⟨rfl, hnone⟩
  | release lease =>
    obtain ⟨-, rfl⟩ := of_guard hstep
    refine ⟨?_, gone_afterEviction _ _⟩
    exact congrArg CacheStatistics.evictions (s.cache.statistics_release lease.1)
  | clearIdle =>
    obtain rfl := Option.some.inj hstep
    refine ⟨?_, gone_afterEviction _ _⟩
    exact congrArg CacheStatistics.evictions s.cache.statistics_clearIdle
  | dispose lease =>
    obtain ⟨hlease, rfl⟩ := of_guard hstep
    have hmoved : (s.evicted.erase lease ++ lease :: s.disposed).Perm s.gone :=
      List.perm_middle.trans ((List.perm_cons_erase hlease).symm.append_right _)
    exact ⟨rfl, hmoved.trans hnone⟩
  | _ =>
    obtain ⟨-, rfl⟩ := of_guard hstep
    exact ⟨rfl, hnone⟩

/-- The books of a cache, which agree with its past in every state. -/
structure Balanced (past : List (Stride κ)) (s : Callers κ) : Prop where
  accounted : s.Accounted
  asks : s.requests = past.countP (·.step.asks)
  misses : s.attempts + past.countP (·.step.findsNothing) + past.countP (·.step.panics)
    = s.cache.statistics.misses
  numbers : (created past).map (·.2) = List.range s.made
  creations : s.cache.statistics.creations = s.made
  evictions : s.cache.statistics.evictions = (givenUp past).length
  gone : s.gone.Perm (givenUp past)
  accountedFor : s.accountedFor.Perm (created past)

theorem balanced_start (capacity : Nat) : (start capacity : Callers κ).Balanced [] where
  accounted := accounted_start capacity
  asks := rfl
  misses := rfl
  numbers := rfl
  creations := rfl
  evictions := rfl
  gone := List.Perm.refl _
  accountedFor := List.Perm.refl _

theorem Balanced.step (h : s.Balanced past) {step : CallerStep κ} (hstep : s.step step = some t) :
    t.Balanced (past ++ [⟨s, step, t⟩]) := by
  obtain ⟨hevictions, hgone⟩ := givenUp_step hstep
  refine ⟨h.accounted.step hstep, ?_, ?_, ?_, ?_, ?_, ?_, ?_⟩
  · rw [requests_step hstep, h.asks, List.countP_append, List.countP_singleton]
  · have hattempts := attempts_step hstep
    have hmisses := h.misses
    simp only [List.countP_append, List.countP_singleton]
    omega
  · rw [created_concat, List.map_append, h.numbers]
    rcases created_cases hstep with ⟨key, hcreated, hmade, -⟩ | ⟨hcreated, hmade, -⟩
    · rw [hcreated, hmade, List.range_succ, List.map_singleton]
    · rw [hcreated, hmade, List.map_nil, List.append_nil]
  · rcases created_cases hstep with ⟨key, -, hmade, hcreations⟩ | ⟨-, hmade, hcreations⟩ <;>
      rw [hmade, hcreations, h.creations]
  · rw [hevictions, h.evictions, givenUp_concat, List.length_append]
  · rw [givenUp_concat]
    exact hgone.trans (h.gone.append_right _)
  · rw [created_concat]
    exact (h.accounted.accountedFor_step hstep).trans (h.accountedFor.append_right _)

/-- What holds of a cache's statistics and of its resources while no operation is in progress. -/
structure Conserved (past : List (Stride κ)) (s : Callers κ) : Prop where
  asks : s.cache.statistics.hits + s.cache.statistics.misses = past.countP (·.step.asks)
  /-- A provider that breaks down is counted as a miss only. -/
  misses : s.cache.statistics.misses = s.cache.statistics.creations + s.cache.statistics.failures
    + past.countP (·.step.findsNothing) + past.countP (·.step.panics)
  size : s.cache.statistics.creations = s.cache.statistics.evictions + s.cache.size
  creations : (created past).map (·.2) = List.range s.cache.statistics.creations
  evictions : s.cache.statistics.evictions = (givenUp past).length
  /-- What is made is disposed of once if the cache gave it up, and else it is in the cache and not
  disposed of. -/
  once : ∀ lease ∈ created past,
    (lease ∈ givenUp past ∧ s.disposed.count lease = 1 ∧ lease ∉ s.cache.holdings)
      ∨ (lease ∉ givenUp past ∧ s.disposed.count lease = 0 ∧ lease ∈ s.cache.holdings)
  /-- Nothing else is disposed of. -/
  only : ∀ lease ∈ s.disposed, lease ∈ created past

theorem Balanced.conserved (h : s.Balanced past) (hquiet : s.Quiet) : s.Conserved past := by
  have hgone : s.gone = s.disposed := by
    rw [Callers.gone, hquiet.evicted, List.nil_append]
  -- what is made has different numbers, so nothing of it is in two places
  have hnodup : (created past).Nodup := by
    have hnumbers : ((created past).map (·.2)).Nodup := h.numbers ▸ List.nodup_range
    exact hnumbers.of_map
  have hall : (s.cache.holdings ++ s.disposed).Perm (created past) := hgone ▸ h.accountedFor
  have hdisposed : s.disposed.Perm (givenUp past) := hgone ▸ h.gone
  obtain ⟨-, honce, hapart⟩ := List.nodup_append.mp (hall.nodup_iff.mpr hnodup)
  refine ⟨?_, ?_, ?_, ?_, h.evictions, ?_, ?_⟩
  · have hasks := h.asks
    rw [requests, hquiet.asleep, hquiet.awake] at hasks
    exact hasks
  · have hmisses := h.misses
    rw [attempts, hquiet.making] at hmisses
    exact hmisses.symm
  · have hlength := hall.length_eq
    have hmade : (created past).length = s.made := by
      rw [← List.length_map, h.numbers, List.length_range]
    rw [List.length_append, hmade, Cache.holdings, List.length_map] at hlength
    rw [h.evictions, ← hdisposed.length_eq, h.creations, Cache.size]
    omega
  · rw [h.creations]
    exact h.numbers
  · intro lease hlease
    rcases List.mem_append.mp (hall.symm.subset hlease) with hheld | hout
    · have hnot : lease ∉ s.disposed := fun hout => hapart lease hheld lease hout rfl
      exact Or.inr ⟨fun hgiven => hnot (hdisposed.symm.subset hgiven),
        List.count_eq_zero.mpr hnot, hheld⟩
    · exact Or.inl ⟨hdisposed.subset hout, List.count_eq_one_of_mem honce hout,
        fun hheld => hapart lease hheld lease hout rfl⟩
  · exact fun lease hout => hall.subset (List.mem_append_right _ hout)

/-- Whatever callers do and in whatever order: when none of them is at it, nothing has been counted
twice or not at all, and nothing has been lost. -/
theorem conserved_of_run (capacity : Nat) {steps : List (CallerStep κ)}
    (hrun : (start capacity).run steps = some s) (hquiet : s.Quiet) :
    s.Conserved ((start capacity).history steps) := by
  have hbalanced := holds_of_run (P := Balanced) (balanced_start capacity)
    (fun _ _ _ _ hu hstep => hu.step hstep) hrun
  exact hbalanced.conserved hquiet

/-- One is in use, one went for want of room and one when the cache was cleared, after a hit, a wait
and two providers that had nothing. -/
def workday : List (CallerStep String) :=
  [.ask "a", .ask "a", .provided "a", .askAgain "a", .receive ("a", 0), .receive ("a", 0), .ask "b",
    .refused "b" (.notFound "nowhere"), .ask "b", .refused "b" (.failed "unreadable"), .ask "b",
    .provided "b", .receive ("b", 1), .release ("a", 0), .release ("a", 0), .dispose ("a", 0),
    .release ("b", 1), .clearIdle, .dispose ("b", 1), .ask "c", .provided "c", .receive ("c", 2)]

theorem conserved_of_run_workday : ∃ s : Callers String, (start 1).run workday = some s
    ∧ s.Quiet ∧ s.cache.statistics = ⟨1, 5, 3, 1, 2⟩ ∧ s.disposed = [("b", 1), ("a", 0)]
    ∧ s.Conserved ((start 1).history workday) :=
  have hquiet : Quiet (κ := String) _ := ⟨rfl, rfl, rfl, rfl, rfl⟩
  ⟨_, rfl, hquiet, rfl, rfl,
    conserved_of_run 1 (show (start 1).run workday = _ from rfl) hquiet⟩

end Callers
end Linkage

import Linkage.Proofs.Cache.Shrinking

/-! How much a cache keeps, and what it gives up first: the order in which the last leases came back
decides, and nothing else. -/
namespace Linkage

/-- In a step the last lease on a key comes back. -/
def Stride.frees {κ : Type} [DecidableEq κ] (stride : Stride κ) (key : κ) : Bool :=
  0 < stride.before.leasesOn key && stride.after.leasesOn key == 0

/-- The number of the last step in which the last lease on a key came back. If there is none, it is
0, which comes before all steps. -/
def lastFreed {κ : Type} [DecidableEq κ] (past : List (Stride κ)) (key : κ) : Nat :=
  past.length - past.reverse.findIdx (·.frees key)

namespace Callers

variable {κ : Type} [DecidableEq κ] {s t : Callers κ} {past : List (Stride κ)} {capacity : Nat}

theorem lastFreed_concat (past : List (Stride κ)) (stride : Stride κ) (key : κ) :
    lastFreed (past ++ [stride]) key
      = if stride.frees key then past.length + 1 else lastFreed past key := by
  unfold lastFreed
  rw [List.reverse_append, List.reverse_singleton, List.singleton_append, List.findIdx_cons,
    List.length_append, List.length_singleton]
  cases stride.frees key with
  | true => rfl
  | false => exact Nat.add_sub_add_right _ _ _

theorem lastFreed_le (past : List (Stride κ)) (key : κ) : lastFreed past key ≤ past.length :=
  Nat.sub_le _ _

/-- What a step does to the entries and to the leases on them, and what it gives up. -/
inductive Turn (s t : Callers κ) : CallerStep κ → List (κ × Nat) → Prop
  | keep {step : CallerStep κ} (hentries : t.cache.entries = s.cache.entries)
    (hclock : t.cache.clock = s.cache.clock) (hcapacity : t.cache.capacity = s.cache.capacity)
    (hleased : t.leased.Perm s.leased) : Turn s t step []
  | lease {step : CallerStep κ} (lease : κ × Nat)
    (hentries : t.cache.entries = (s.cache.share lease.1).entries)
    (hclock : t.cache.clock = s.cache.clock) (hcapacity : t.cache.capacity = s.cache.capacity)
    (hleased : t.leased.Perm (lease :: s.leased)) : Turn s t step []
  | create (key : κ) (hmaking : key ∈ s.making)
    (hcache : t.cache = (s.cache.joined key s.made).shrink.2)
    (hleased : t.leased.Perm ((key, s.made) :: s.leased)) :
    Turn s t (.provided key) (s.cache.joined key s.made).shrink.1
  | giveBack (lease : κ × Nat) (hcache : t.cache = (s.cache.returned lease.1).shrink.2)
    (hleased : s.leased.Perm (lease :: t.leased)) :
    Turn s t (.release lease) (s.cache.returned lease.1).shrink.1
  | clear (hcache : t.cache = s.cache.clearIdle.2) (hleased : t.leased.Perm s.leased) :
    Turn s t .clearIdle s.cache.clearIdle.1

theorem turn_ask (s : Callers κ) (key : κ) (step : CallerStep κ) : Turn s (s.ask key) step [] := by
  rcases s.ask_cases key with ⟨e, -, rfl, heq⟩ | ⟨-, -, heq⟩ | ⟨-, -, heq⟩
  · rw [heq]
    exact .lease (e.key, e.resource) rfl rfl rfl List.perm_middle
  · rw [heq]
    exact .keep rfl rfl rfl (List.Perm.refl _)
  · rw [heq]
    exact .keep rfl rfl rfl (List.Perm.refl _)

theorem Accounted.turn (h : s.Accounted) {step : CallerStep κ} (hstep : s.step step = some t) :
    Turn s t step (Stride.mk s step t).givenUp := by
  cases step with
  | ask key => exact Option.some.inj hstep ▸ turn_ask s key _
  | askAgain key =>
    obtain ⟨-, rfl⟩ := of_guard hstep
    cases turn_ask { s with awake := s.awake.erase key } key (.askAgain key) with
    | keep hentries hclock hcapacity hleased => exact .keep hentries hclock hcapacity hleased
    | lease lease hentries hclock hcapacity hleased =>
      exact .lease lease hentries hclock hcapacity hleased
  | provided key =>
    obtain ⟨hmaking, rfl⟩ := of_guard hstep
    exact .create key hmaking rfl List.perm_middle
  | refused key refusal =>
    obtain ⟨-, rfl⟩ := of_guard hstep
    cases refusal <;> exact .keep rfl rfl rfl (List.Perm.refl _)
  | panicked key =>
    obtain ⟨-, rfl⟩ := of_guard hstep
    exact .keep rfl rfl rfl (List.Perm.refl _)
  | receive lease =>
    obtain ⟨harriving, rfl⟩ := of_guard hstep
    have hmoved : (lease :: s.live ++ s.arriving.erase lease).Perm s.leased :=
      List.perm_middle.symm.trans ((List.perm_cons_erase harriving).symm.append_left _)
    exact .keep rfl rfl rfl hmoved
  | share lease =>
    obtain ⟨-, rfl⟩ := of_guard hstep
    exact .lease lease rfl rfl rfl List.perm_middle
  | release lease =>
    obtain ⟨hlive, rfl⟩ := of_guard hstep
    obtain ⟨e, he, heq⟩ := h.leased lease (List.mem_append_left _ hlive)
    have hmem : lease.1 ∈ s.cache.keys := heq ▸ List.mem_map_of_mem he
    have hrelease := Cache.release_of_mem hmem
    have hout : (s.cache.release lease.1).1 = (s.cache.returned lease.1).shrink.1 :=
      congrArg Prod.fst hrelease
    change Turn s _ (.release lease) (s.cache.release lease.1).1
    rw [hout]
    exact .giveBack lease (congrArg Prod.snd hrelease)
      ((List.perm_cons_erase hlive).append_right s.arriving)
  | clearIdle =>
    obtain rfl := Option.some.inj hstep
    exact .clear rfl (List.Perm.refl _)
  | dispose lease =>
    obtain ⟨-, rfl⟩ := of_guard hstep
    exact .keep rfl rfl rfl (List.Perm.refl _)

/-- What every step keeps: the bound, and that the entries tell when they came back. -/
structure Ordered (capacity : Nat) (past : List (Stride κ)) (s : Callers κ) : Prop where
  accounted : s.Accounted
  capacity : s.cache.capacity = capacity
  bounded : s.cache.Bounded
  dated : s.cache.Dated (lastFreed past)

theorem leasesOn_perm (hleased : t.leased.Perm s.leased) (key : κ) :
    t.leasesOn key = s.leasesOn key :=
  hleased.countP_eq _

/-- A step that takes no lease off a key does not free it. -/
theorem lastFreed_of_le {step : CallerStep κ} {key : κ} (h : s.leasesOn key ≤ t.leasesOn key) :
    lastFreed (past ++ [⟨s, step, t⟩]) key = lastFreed past key := by
  have hnot : Stride.frees ⟨s, step, t⟩ key = false := by
    simp only [Stride.frees, Bool.and_eq_false_iff, decide_eq_false_iff_not, beq_eq_false_iff_ne]
    omega
  rw [lastFreed_concat, hnot]
  rfl

/-- What comes back in a step is told by the entries, before any of them is given up. -/
theorem Ordered.dated_returned (h : s.Ordered capacity past) {lease : κ × Nat}
    {step : CallerStep κ} (hleased : s.leased.Perm (lease :: t.leased)) :
    (s.cache.returned lease.1).Dated (lastFreed (past ++ [⟨s, step, t⟩])) := by
  have hcount := leasesOn_cons t hleased
  refine h.dated.returned h.accounted.keys ?_ ?_
  · intro k hk
    refine lastFreed_of_le ?_
    rw [hcount k, if_neg (Ne.symm hk)]
    exact Nat.le_refl _
  · -- the lease was the only one left, so the key is freed in this very step
    intro e he hkey hone k
    have hfreed : Stride.frees ⟨s, step, t⟩ lease.1 = true := by
      have hleases := h.accounted.counts e he
      have hdown := hcount lease.1
      rw [if_pos rfl] at hdown
      rw [hkey] at hleases
      simp only [Stride.frees, Bool.and_eq_true, decide_eq_true_eq, beq_iff_eq]
      omega
    rw [lastFreed_concat, hfreed, if_pos rfl]
    exact Nat.lt_succ_of_le (lastFreed_le past k)

/-- After a step the cache is as it should be, or it was too large and has given up what it had to
of what it had before. -/
theorem Ordered.step_cases (h : s.Ordered capacity past) {step : CallerStep κ}
    (hstep : s.step step = some t) :
    (t.cache.capacity = capacity ∧ t.cache.Bounded
        ∧ t.cache.Dated (lastFreed (past ++ [⟨s, step, t⟩]))
        ∧ (step ≠ .clearIdle → (Stride.mk s step t).givenUp = []))
      ∨ ∃ c : Cache κ Nat, c.capacity = capacity ∧ c.keys.Nodup
        ∧ c.Dated (lastFreed (past ++ [⟨s, step, t⟩]))
        ∧ (∀ e ∈ c.entries, e.isIdle = true → (e.key, e.resource) ∈ s.cache.holdings)
        ∧ t.cache = c.shrink.2 ∧ (Stride.mk s step t).givenUp = c.shrink.1 := by
  have hsame (hle : ∀ key, s.leasesOn key ≤ t.leasesOn key) :
      s.cache.Dated (lastFreed (past ++ [⟨s, step, t⟩])) :=
    h.dated.congr fun e _ _ => lastFreed_of_le (hle e.key)
  generalize hgivenUp : (Stride.mk s step t).givenUp = out
  cases hgivenUp ▸ h.accounted.turn hstep with
  | keep hentries hclock hcapacity hleased =>
    have hdated := hsame fun key => (leasesOn_perm hleased key).ge
    exact Or.inl ⟨hcapacity.trans h.capacity, h.bounded.of_entries hentries hcapacity,
      hdated.of_entries hentries hclock, fun _ => rfl⟩
  | lease lease hentries hclock hcapacity hleased =>
    have hdated := hsame fun key => leasesOn_cons s hleased key ▸ Nat.le_add_right _ _
    exact Or.inl ⟨hcapacity.trans h.capacity,
      (h.bounded.share lease.1).of_entries hentries hcapacity,
      (hdated.share lease.1).of_entries hentries hclock, fun _ => rfl⟩
  | create key hmaking hcache hleased =>
    have hnew := h.accounted.uncached key (h.accounted.making.subset hmaking)
    have hkeys := Cache.nodup_keys_joined h.accounted.keys hnew s.made
    refine Or.inr ⟨s.cache.joined key s.made, h.capacity, hkeys, ?_, ?_, hcache, rfl⟩
    · refine (hsame fun k => ?_).subset (Nat.le_refl _) fun e => Cache.idle_joined
      rw [leasesOn_cons s hleased]
      exact Nat.le_add_right _ _
    · exact fun e he hidle => Cache.mem_holdings (Cache.idle_joined he hidle)
  | giveBack lease hcache hleased =>
    have hkeys : (s.cache.returned lease.1).keys.Nodup := by
      rw [Cache.keys_returned]
      exact h.accounted.keys
    refine Or.inr ⟨s.cache.returned lease.1, h.capacity, hkeys, h.dated_returned hleased, ?_, hcache,
      rfl⟩
    rw [← Cache.holdings_returned s.cache lease.1]
    exact fun e he _ => Cache.mem_holdings he
  | clear hcache hleased =>
    have hbusy (e : CacheEntry κ Nat) (he : e ∈ t.cache.entries) : e.isIdle = false := by
      rw [hcache] at he
      simpa using (List.mem_filter.mp he).2
    refine Or.inl ⟨hcache ▸ h.capacity, Or.inr hbusy, ?_, fun hnot => absurd rfl hnot⟩
    refine (hsame fun key => (leasesOn_perm hleased key).ge).subset (hcache ▸ Nat.le_refl _) ?_
    intro e he hidle
    rw [hbusy e he] at hidle
    cases hidle

theorem Ordered.step (h : s.Ordered capacity past) {step : CallerStep κ}
    (hstep : s.step step = some t) : t.Ordered capacity (past ++ [⟨s, step, t⟩]) := by
  have haccounted := h.accounted.step hstep
  rcases h.step_cases hstep with
    ⟨hcapacity, hbounded, hdated, -⟩ | ⟨c, rfl, hkeys, hdated, -, hcache, -⟩
  · exact ⟨haccounted, hcapacity, hbounded, hdated⟩
  · exact ⟨haccounted, hcache ▸ rfl, hcache ▸ Cache.bounded_shrink hkeys, hcache ▸ hdated.shrink⟩

theorem ordered_start (capacity : Nat) : (start capacity : Callers κ).Ordered capacity [] where
  accounted := accounted_start capacity
  capacity := rfl
  bounded := Or.inl (Nat.zero_le _)
  dated := by constructor <;> exact fun e he => absurd he List.not_mem_nil

/-- The bound of a cache between two steps, and what the next step gives up. -/
structure Tidy (capacity : Nat) (past : List (Stride κ)) (s : Callers κ) : Prop where
  /-- There are no more entries than there may be, unless all are leased. -/
  bound : s.cache.size ≤ capacity ∨ ∀ e ∈ s.cache.entries, e.isIdle = false
  stamps : ((s.cache.entries.filter (·.isIdle)).map (·.returned)).Nodup
  /-- Idle entries are ordered by the steps in which their last leases came back. -/
  dates : ∀ e ∈ s.cache.entries, ∀ e' ∈ s.cache.entries, e.isIdle = true → e'.isIdle = true →
    0 < lastFreed past e.key
      ∧ (e.returned < e'.returned ↔ lastFreed past e.key < lastFreed past e'.key)
  /-- What has to go was there and is leased no more. It came back before all that stays idle, and
  goes in the order in which it did; nothing goes once the rest fits. -/
  evictions : ∀ step (t : Callers κ), s.step step = some t → step ≠ .clearIdle →
    (∀ v ∈ (Stride.mk s step t).givenUp, v ∈ s.cache.holdings ∧ t.leasesOn v.1 = 0)
      ∧ Cache.GivesUp (lastFreed (past ++ [⟨s, step, t⟩])) (Stride.mk s step t).givenUp t.cache
  /-- The order in which the entries are kept has no influence on what goes. -/
  reordered : ∀ entries, entries.Perm s.cache.entries →
    (∀ key, ({ s.cache with entries }.release key).1 = (s.cache.release key).1)
      ∧ ∀ key, ({ s.cache with entries }.created key s.made).1 = (s.cache.created key s.made).1

theorem Accounted.leasesOn_eq_zero (h : s.Accounted) {key : κ} (hkey : key ∉ s.cache.keys) :
    s.leasesOn key = 0 := by
  refine List.countP_eq_zero.mpr fun lease hlease heq => hkey ?_
  obtain ⟨e, he, rfl⟩ := h.leased lease hlease
  exact of_decide_eq_true heq ▸ List.mem_map_of_mem he

theorem Ordered.evictions (h : s.Ordered capacity past) {step : CallerStep κ}
    (hstep : s.step step = some t) (hclear : step ≠ .clearIdle) :
    (∀ v ∈ (Stride.mk s step t).givenUp, v ∈ s.cache.holdings ∧ t.leasesOn v.1 = 0)
      ∧ Cache.GivesUp (lastFreed (past ++ [⟨s, step, t⟩])) (Stride.mk s step t).givenUp t.cache := by
  rcases h.step_cases hstep with ⟨-, -, -, hnone⟩ | ⟨c, rfl, hkeys, hdated, hheld, hcache, hout⟩
  · rw [hnone hclear]
    exact ⟨fun v hv => absurd hv List.not_mem_nil, List.Pairwise.nil,
      fun v hv => absurd hv List.not_mem_nil, fun hne => absurd rfl hne⟩
  · rw [hout, hcache]
    refine ⟨fun v hv => ⟨?_, (h.accounted.step hstep).leasesOn_eq_zero ?_⟩, hdated.givesUp hkeys⟩
    · obtain ⟨e, he, rfl⟩ := List.mem_map.mp hv
      obtain ⟨hmem, hidle⟩ := (Cache.mem_evictIdle _ _).1 e he
      exact hheld e hmem hidle
    · rw [hcache]
      exact (Cache.evicts_shrink hkeys).not_mem_keys hkeys v hv

theorem Ordered.tidy (h : s.Ordered capacity past) : s.Tidy capacity past where
  bound := by
    rw [← h.capacity]
    exact h.bounded
  stamps := by
    have hentries : s.cache.entries.Nodup := h.accounted.keys.of_map
    refine (hentries.filter _).map_on fun e he e' he' heq => ?_
    obtain ⟨hmem, hidle⟩ := List.mem_filter.mp he
    obtain ⟨hmem', hidle'⟩ := List.mem_filter.mp he'
    exact h.dated.stamped e hmem e' hmem' hidle hidle' heq
  dates e he e' he' hidle hidle' :=
    ⟨h.dated.pos e he hidle, h.dated.order e he e' he' hidle hidle'⟩
  evictions step t hstep hclear := h.evictions hstep hclear
  reordered entries hperm :=
    ⟨fun key => Cache.release_reordered hperm h.dated h.accounted.keys key,
      fun key => Cache.created_reordered hperm h.dated key s.made⟩

/-- Whatever callers do and in whatever order: the cache is tidy in every state that they can get
to. -/
theorem tidy_of_run (capacity : Nat) {steps : List (CallerStep κ)}
    (hrun : (start capacity).run steps = some s) :
    s.Tidy capacity ((start capacity).history steps) :=
  (holds_of_run (P := Ordered capacity) (ordered_start capacity)
    (fun _ _ _ _ hu hstep => hu.step hstep) hrun).tidy

/-- What came back first is leased again, so it is not what goes when there is no room. -/
def revived : List (CallerStep String) :=
  [.ask "a", .provided "a", .receive ("a", 0), .release ("a", 0), .ask "b", .provided "b",
    .receive ("b", 1), .release ("b", 1), .ask "a", .receive ("a", 0), .release ("a", 0), .ask "c",
    .provided "c"]

theorem tidy_of_run_revived : ∃ s : Callers String, (start 2).run revived = some s
    ∧ s.evicted = [("b", 1)] ∧ s.cache.keys = ["a", "c"]
    ∧ s.Tidy 2 ((start 2).history revived) :=
  ⟨_, rfl, by decide, by decide, tidy_of_run 2 (show (start 2).run revived = _ from rfl)⟩

end Callers
end Linkage

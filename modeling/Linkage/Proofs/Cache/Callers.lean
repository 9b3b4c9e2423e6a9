import Linkage.Proofs.Cache.Eviction

/-! Any number of callers of one cache, whose steps come in any order. -/
namespace Linkage

/-- A cache and its callers between two steps. A resource is known by the number of its creation. -/
structure Callers (κ : Type) where
  cache : Cache κ Nat
  /-- Keys whose provider runs. -/
  making : List κ := []
  /-- Keys that callers wait for in their sleep, and keys that woken callers will ask for again. -/
  asleep : List κ := []
  awake : List κ := []
  /-- Leases that are counted and whose handles are about to be returned. -/
  arriving : List (κ × Nat) := []
  /-- The handles that are not released. -/
  live : List (κ × Nat) := []
  /-- Resources that have left the cache and are not disposed yet, and those that are. -/
  evicted : List (κ × Nat) := []
  disposed : List (κ × Nat) := []
  made : Nat := 0
  deriving Repr

/-- One step of one caller: what it does under the lock, or on its own between two locks. -/
inductive CallerStep (κ : Type) where
  | ask (key : κ)
  | askAgain (key : κ)
  | provided (key : κ)
  | refused (key : κ) (refusal : Refusal)
  | panicked (key : κ)
  | receive (lease : κ × Nat)
  | share (lease : κ × Nat)
  | release (lease : κ × Nat)
  | clearIdle
  | dispose (lease : κ × Nat)

namespace Callers

variable {κ : Type} [DecidableEq κ]

def start (capacity : Nat) : Callers κ := { cache := { capacity } }

/-- The locked part of an acquisition up to the first answer. -/
def ask (s : Callers κ) (key : κ) : Callers κ :=
  match s.cache.ask key with
  | (.leased resource, cache) => { s with cache, arriving := (key, resource) :: s.arriving }
  | (.wait, cache) => { s with cache, asleep := key :: s.asleep }
  | (.create, cache) => { s with cache, making := key :: s.making }

/-- The end of a creation, whichever it is, wakes all who sleep. -/
def endCreation (s : Callers κ) (key : κ) : Callers κ :=
  { s with making := s.making.erase key, asleep := [], awake := s.awake ++ s.asleep }

/-- The cache after a step that takes entries out, which are to be disposed of. -/
def afterEviction (s : Callers κ) (change : List (κ × Nat) × Cache κ Nat) : Callers κ :=
  { s with cache := change.2, evicted := s.evicted ++ change.1 }

/-- A step that the callers can make, and what comes of it. -/
def step (s : Callers κ) : CallerStep κ → Option (Callers κ)
  | .ask key => some (s.ask key)
  | .askAgain key =>
    if key ∈ s.awake then some ({ s with awake := s.awake.erase key }.ask key) else none
  | .provided key =>
    if key ∈ s.making then
      some ({ s.endCreation key with
        arriving := (key, s.made) :: s.arriving
        made := s.made + 1 }.afterEviction (s.cache.created key s.made))
    else none
  | .refused key refusal =>
    if key ∈ s.making then some { s.endCreation key with cache := s.cache.refused key refusal }
    else none
  | .panicked key =>
    if key ∈ s.making then some { s.endCreation key with cache := s.cache.abandoned key } else none
  | .receive lease =>
    if lease ∈ s.arriving then
      some { s with arriving := s.arriving.erase lease, live := lease :: s.live }
    else none
  | .share lease =>
    if lease ∈ s.live then
      some { s with cache := s.cache.share lease.1, arriving := lease :: s.arriving }
    else none
  | .release lease =>
    if lease ∈ s.live then
      some ({ s with live := s.live.erase lease }.afterEviction (s.cache.release lease.1))
    else none
  | .clearIdle => some (s.afterEviction s.cache.clearIdle)
  | .dispose lease =>
    if lease ∈ s.evicted then
      some { s with evicted := s.evicted.erase lease, disposed := lease :: s.disposed }
    else none

/-- Steps one after the other, each of which can be made. -/
def run (s : Callers κ) : List (CallerStep κ) → Option (Callers κ)
  | [] => some s
  | step :: steps => (s.step step).bind (·.run steps)

/-- The counted leases, returned or not. -/
def leased (s : Callers κ) : List (κ × Nat) := s.live ++ s.arriving

/-- What has left the cache. -/
def gone (s : Callers κ) : List (κ × Nat) := s.evicted ++ s.disposed

/-- The counted leases on a key. -/
def leasesOn (s : Callers κ) (key : κ) : Nat := s.leased.countP (·.1 = key)

/-- What all steps keep: every lease is counted once, on an entry that has its resource, and no
resource is in two places. -/
structure Accounted (s : Callers κ) : Prop where
  keys : s.cache.keys.Nodup
  making : s.making.Perm s.cache.creating
  creating : s.cache.creating.Nodup
  uncached : ∀ key ∈ s.cache.creating, key ∉ s.cache.keys
  counts : ∀ e ∈ s.cache.entries, e.leases = s.leasesOn e.key
  leased : ∀ lease ∈ s.leased, ∃ e ∈ s.cache.entries, (e.key, e.resource) = lease
  resources : (s.cache.resources ++ s.gone.map (·.2)).Nodup
  fresh : ∀ r ∈ s.cache.resources ++ s.gone.map (·.2), r < s.made

theorem accounted_start (capacity : Nat) : (start capacity : Callers κ).Accounted where
  keys := List.nodup_nil
  making := List.Perm.refl _
  creating := List.nodup_nil
  uncached _ h := by simp [start] at h
  counts _ h := by simp [start] at h
  leased _ h := by simp [start, Callers.leased] at h
  resources := List.nodup_nil
  fresh _ h := by simp [start, Cache.resources, gone] at h

/-- Only the entries, the creations, the leases and what is gone matter, and of leases and resources
gone not even the order. -/
theorem Accounted.congr {s t : Callers κ} (h : s.Accounted)
    (hentries : t.cache.entries = s.cache.entries) (hcreating : t.cache.creating = s.cache.creating)
    (hmaking : t.making = s.making) (hleased : t.leased.Perm s.leased) (hgone : t.gone.Perm s.gone)
    (hmade : t.made = s.made) : t.Accounted := by
  have hkeys : t.cache.keys = s.cache.keys := congrArg (List.map _) hentries
  have hresources : t.cache.resources = s.cache.resources := congrArg (List.map _) hentries
  have hperm : (t.cache.resources ++ t.gone.map (·.2)).Perm
      (s.cache.resources ++ s.gone.map (·.2)) := by
    rw [hresources]
    exact (hgone.map _).append_left _
  refine ⟨?_, ?_, ?_, ?_, ?_, ?_, ?_, ?_⟩
  · rw [hkeys]
    exact h.keys
  · rw [hmaking, hcreating]
    exact h.making
  · rw [hcreating]
    exact h.creating
  · rw [hcreating, hkeys]
    exact h.uncached
  · intro e he
    rw [hentries] at he
    rw [h.counts e he, leasesOn, leasesOn, hleased.countP_eq]
  · intro lease hlease
    rw [hentries]
    exact h.leased lease (hleased.subset hlease)
  · exact hperm.nodup_iff.mpr h.resources
  · intro r hr
    rw [hmade]
    exact h.fresh r (hperm.subset hr)

/-- An idle entry has no lease. -/
theorem Accounted.not_leased {s : Callers κ} (h : s.Accounted) {e : CacheEntry κ Nat}
    (he : e ∈ s.cache.entries) (hidle : e.isIdle = true) {lease : κ × Nat}
    (hlease : lease ∈ s.leased) : lease.1 ≠ e.key := by
  intro hkey
  have hcount := h.counts e he
  have hpos : 0 < s.leasesOn e.key :=
    List.countP_pos_iff.mpr ⟨lease, hlease, by simpa using hkey⟩
  have hzero : e.leases = 0 := by simpa [CacheEntry.isIdle] using hidle
  omega

/-- Taking idle entries out breaks no lease. -/
theorem Accounted.evict {s : Callers κ} (h : s.Accounted) {change : List (κ × Nat) × Cache κ Nat}
    (hevicts : Cache.Evicts s.cache change.1 change.2) : (s.afterEviction change).Accounted := by
  obtain ⟨⟨victims, hout, hperm, hidle⟩, hcreating⟩ := hevicts
  have hleft {e : CacheEntry κ Nat} (he : e ∈ change.2.entries) : e ∈ s.cache.entries :=
    hperm.subset (List.mem_append_right _ he)
  have hkeys : (victims.map (·.key) ++ change.2.keys).Perm s.cache.keys := by
    have hmap := hperm.map (·.key)
    rwa [List.map_append] at hmap
  have hresources : (change.2.resources ++ (s.evicted ++ change.1 ++ s.disposed).map (·.2)).Perm
      (s.cache.resources ++ s.gone.map (·.2)) := by
    have hmap : (victims.map (·.resource) ++ change.2.resources).Perm s.cache.resources := by
      have hmap := hperm.map (·.resource)
      rwa [List.map_append] at hmap
    have hmoved : change.1.map (·.2) = victims.map (·.resource) := by
      rw [hout, List.map_map]
      rfl
    refine List.perm_iff_count.mpr fun r => ?_
    have hcount := hmap.count_eq r
    simp only [gone, List.map_append, List.count_append, hmoved] at hcount ⊢
    omega
  refine ⟨?_, ?_, ?_, ?_, ?_, ?_, ?_, ?_⟩
  · exact (List.nodup_append.mp (hkeys.nodup_iff.mpr h.keys)).2.1
  · exact hcreating ▸ h.making
  · exact hcreating ▸ h.creating
  · intro key hkey hcached
    rw [show (s.afterEviction change).cache.creating = s.cache.creating from hcreating] at hkey
    exact h.uncached key hkey (hkeys.subset (List.mem_append_right _ hcached))
  · exact fun e he => h.counts e (hleft he)
  · intro lease hlease
    obtain ⟨e, he, heq⟩ := h.leased lease hlease
    rcases List.mem_append.mp (hperm.mem_iff.mpr he) with hvictim | hkept
    · exact absurd (congrArg Prod.fst heq).symm (h.not_leased he (hidle e hvictim) hlease)
    · exact ⟨e, hkept, heq⟩
  · exact hresources.nodup_iff.mpr h.resources
  · exact fun r hr => h.fresh r (hresources.subset hr)

theorem leasesOn_cons (s : Callers κ) {t : Callers κ} {lease : κ × Nat}
    (hleased : t.leased.Perm (lease :: s.leased)) (key : κ) :
    t.leasesOn key = s.leasesOn key + if lease.1 = key then 1 else 0 := by
  unfold leasesOn
  rw [hleased.countP_eq, List.countP_cons]
  simp

/-- Entries that stay what they are may be leased more or less often, as long as it is counted. -/
theorem Accounted.modify {s t : Callers κ} (h : s.Accounted) {key : κ}
    {f : CacheEntry κ Nat → CacheEntry κ Nat}
    (hentries : t.cache.entries = (s.cache.modify key f).entries)
    (hkey : ∀ e, (f e).key = e.key) (hresource : ∀ e, (f e).resource = e.resource)
    (hcreating : t.cache.creating = s.cache.creating) (hmaking : t.making = s.making)
    (hgone : t.gone = s.gone) (hmade : t.made = s.made)
    (hcounts : ∀ e ∈ s.cache.entries,
      (if e.key = key then f e else e).leases = t.leasesOn e.key)
    (hleased : ∀ lease ∈ t.leased, ∃ e ∈ s.cache.entries, (e.key, e.resource) = lease) :
    t.Accounted := by
  have hkeys : t.cache.keys = s.cache.keys :=
    (congrArg (List.map _) hentries).trans (Cache.keys_modify hkey)
  have hresources : t.cache.resources = s.cache.resources :=
    (congrArg (List.map _) hentries).trans (Cache.resources_modify hresource)
  refine ⟨?_, ?_, ?_, ?_, ?_, ?_, ?_, ?_⟩
  · rw [hkeys]
    exact h.keys
  · rw [hmaking, hcreating]
    exact h.making
  · rw [hcreating]
    exact h.creating
  · rw [hcreating, hkeys]
    exact h.uncached
  · intro e he
    rw [hentries] at he
    obtain ⟨old, hold, rfl⟩ := Cache.mem_modify.mp he
    have hsame : (if old.key = key then f old else old).key = old.key := by
      split
      · exact hkey old
      · rfl
    rw [hsame]
    exact hcounts old hold
  · intro lease hlease
    obtain ⟨e, he, rfl⟩ := hleased lease hlease
    rw [hentries]
    refine ⟨_, Cache.mem_modify.mpr ⟨e, he, rfl⟩, ?_⟩
    split
    · rw [hkey, hresource]
    · rfl
  · rw [hresources, hgone]
    exact h.resources
  · rw [hresources, hgone, hmade]
    exact h.fresh

/-- One more lease on an entry is one more handle to come. -/
theorem Accounted.lease {s : Callers κ} (h : s.Accounted) {lease : κ × Nat}
    (hentry : ∃ e ∈ s.cache.entries, (e.key, e.resource) = lease) :
    { s with cache := s.cache.share lease.1, arriving := lease :: s.arriving }.Accounted := by
  let t : Callers κ := { s with cache := s.cache.share lease.1, arriving := lease :: s.arriving }
  have hleased : t.leased.Perm (lease :: s.leased) := List.perm_middle
  change t.Accounted
  refine h.modify rfl (fun _ => rfl) (fun _ => rfl) rfl rfl rfl rfl ?_ ?_
  · intro e he
    have hcount := h.counts e he
    rw [leasesOn_cons s hleased]
    by_cases hkey : e.key = lease.1
    · rw [if_pos hkey, if_pos hkey.symm, ← hcount]
    · rw [if_neg hkey, if_neg (Ne.symm hkey), ← hcount]
      rfl
  · intro other hother
    rcases List.mem_cons.mp (hleased.subset hother) with rfl | hother
    · exact hentry
    · exact h.leased other hother

/-- A returned lease is taken off the entry it was counted on. -/
theorem Accounted.unlease {s : Callers κ} (h : s.Accounted) {lease : κ × Nat}
    (hlease : lease ∈ s.live) (returned : CacheEntry κ Nat → Nat) :
    { s with
      cache := s.cache.modify lease.1 fun e =>
        { e with leases := e.leases - 1, returned := returned e }
      live := s.live.erase lease }.Accounted := by
  let t : Callers κ := { s with
    cache := s.cache.modify lease.1 fun e =>
      { e with leases := e.leases - 1, returned := returned e }
    live := s.live.erase lease }
  have hleased : s.leased.Perm (lease :: t.leased) :=
    (List.perm_cons_erase hlease).append_right s.arriving
  change t.Accounted
  refine h.modify rfl (fun _ => rfl) (fun _ => rfl) rfl rfl rfl rfl ?_ ?_
  · intro e he
    have hcount := h.counts e he
    rw [leasesOn_cons t hleased] at hcount
    by_cases hkey : e.key = lease.1
    · rw [if_pos hkey.symm] at hcount
      rw [if_pos hkey]
      exact Nat.sub_eq_of_eq_add hcount
    · rw [if_neg (Ne.symm hkey)] at hcount
      rw [if_neg hkey]
      exact hcount
  · intro other hother
    exact h.leased other (hleased.symm.subset (List.mem_cons_of_mem lease hother))

/-- A creation that ends without a resource changes nothing but that the key is free again. -/
theorem Accounted.giveUp {s : Callers κ} (h : s.Accounted) (key : κ) {cache : Cache κ Nat}
    (hentries : cache.entries = s.cache.entries)
    (hcreating : cache.creating = s.cache.creating.filter (· ≠ key)) :
    { s.endCreation key with cache }.Accounted := by
  let t : Callers κ := { s.endCreation key with cache }
  have hkeys : t.cache.keys = s.cache.keys := congrArg (List.map _) hentries
  have hresources : t.cache.resources = s.cache.resources := congrArg (List.map _) hentries
  change t.Accounted
  refine ⟨?_, ?_, ?_, ?_, ?_, ?_, ?_, ?_⟩
  · rw [hkeys]
    exact h.keys
  · have hfilter : s.cache.creating.filter (· ≠ key) = s.cache.creating.erase key := by
      rw [h.creating.erase_eq_filter]
      exact List.filter_congr fun _ _ => decide_not
    rw [hcreating, hfilter]
    exact h.making.erase key
  · rw [hcreating]
    exact h.creating.filter _
  · intro key' hkey'
    rw [hcreating] at hkey'
    rw [hkeys]
    exact h.uncached key' (List.mem_of_mem_filter hkey')
  · intro e he
    rw [hentries] at he
    exact h.counts e he
  · intro lease hlease
    rw [hentries]
    exact h.leased lease hlease
  · rw [hresources]
    exact h.resources
  · rw [hresources]
    exact h.fresh

/-- A new resource comes with its first lease. -/
theorem Accounted.insert {s : Callers κ} (h : s.Accounted) {key : κ}
    (hcached : key ∉ s.cache.keys) (hcreating : key ∉ s.cache.creating) :
    ({ s with
      cache := { s.cache with
        entries := s.cache.entries ++ [{ key, resource := s.made, leases := 1 }] }
      arriving := (key, s.made) :: s.arriving
      made := s.made + 1 } : Callers κ).Accounted := by
  let t : Callers κ := { s with
    cache := { s.cache with
      entries := s.cache.entries ++ [{ key, resource := s.made, leases := 1 }] }
    arriving := (key, s.made) :: s.arriving
    made := s.made + 1 }
  have hkeys : t.cache.keys = s.cache.keys ++ [key] := List.map_append
  have hresources : (t.cache.resources ++ t.gone.map (·.2)).Perm
      (s.made :: (s.cache.resources ++ s.gone.map (·.2))) := by
    have happend : t.cache.resources = s.cache.resources ++ [s.made] := List.map_append
    rw [happend, List.append_assoc]
    exact List.perm_middle
  have hleased : t.leased.Perm ((key, s.made) :: s.leased) := List.perm_middle
  change t.Accounted
  refine ⟨?_, h.making, h.creating, ?_, ?_, ?_, ?_, ?_⟩
  · rw [hkeys, List.nodup_append]
    refine ⟨h.keys, List.nodup_singleton key, ?_⟩
    intro k hk k' hk'
    rw [List.mem_singleton.mp hk']
    exact fun heq => hcached (heq ▸ hk)
  · intro k hk hmem
    rw [hkeys] at hmem
    rcases List.mem_append.mp hmem with hmem | hmem
    · exact h.uncached k hk hmem
    · exact hcreating (List.mem_singleton.mp hmem ▸ hk)
  · intro e he
    rw [leasesOn_cons s hleased]
    rcases List.mem_append.mp he with he | he
    · have hne : key ≠ e.key := fun heq => hcached (heq ▸ List.mem_map_of_mem he)
      rw [if_neg hne]
      exact h.counts e he
    · rw [List.mem_singleton.mp he, if_pos rfl]
      have hnone : s.leasesOn key = 0 := by
        refine List.countP_eq_zero.mpr fun lease hlease hkey => ?_
        obtain ⟨e', he', heq⟩ := h.leased lease hlease
        have hkey' : e'.key = key := (congrArg Prod.fst heq).trans (of_decide_eq_true hkey)
        exact hcached (hkey' ▸ List.mem_map_of_mem he')
      rw [hnone]
  · intro lease hlease
    rcases List.mem_cons.mp (hleased.subset hlease) with rfl | hlease
    · exact ⟨_, List.mem_append_right _ List.mem_cons_self, rfl⟩
    · obtain ⟨e, he, heq⟩ := h.leased lease hlease
      exact ⟨e, List.mem_append_left _ he, heq⟩
  · rw [hresources.nodup_iff, List.nodup_cons]
    exact ⟨fun hmade => Nat.lt_irrefl _ (h.fresh _ hmade), h.resources⟩
  · intro r hr
    rcases List.mem_cons.mp (hresources.subset hr) with rfl | hr
    · exact Nat.lt_succ_self _
    · exact Nat.lt_succ_of_lt (h.fresh r hr)

theorem Accounted.begin {s : Callers κ} (h : s.Accounted) {key : κ}
    (hcached : key ∉ s.cache.keys) (hcreating : key ∉ s.cache.creating) :
    { s with
      cache := { s.cache with creating := key :: s.cache.creating }
      making := key :: s.making }.Accounted := by
  refine ⟨h.keys, h.making.cons key, h.creating.cons hcreating, ?_, h.counts, h.leased,
    h.resources, h.fresh⟩
  intro k hk
  rcases List.mem_cons.mp hk with rfl | hk
  · exact hcached
  · exact h.uncached k hk

theorem Accounted.ask {s : Callers κ} (h : s.Accounted) (key : κ) : (s.ask key).Accounted := by
  unfold Callers.ask Cache.ask
  cases hentry : s.cache.entry? key with
  | some e =>
    obtain ⟨he, rfl⟩ := Cache.entry?_eq_some hentry
    have hlease := h.lease ⟨e, he, rfl⟩
    exact hlease.congr rfl rfl rfl (List.Perm.refl _) (List.Perm.refl _) rfl
  | none =>
    by_cases hcreating : key ∈ s.cache.creating
    · simp only [hcreating, if_true]
      exact h.congr rfl rfl rfl (List.Perm.refl _) (List.Perm.refl _) rfl
    · have hcached : key ∉ s.cache.keys := by
        rw [← Cache.contains_iff, Cache.contains, hentry]
        exact Bool.false_ne_true
      simp only [hcreating, if_false]
      have hbegin := h.begin hcached hcreating
      exact hbegin.congr rfl rfl rfl (List.Perm.refl _) (List.Perm.refl _) rfl

/-- The maker gets the new resource on the first lease, and older ones may have to go. -/
theorem Accounted.provided {s : Callers κ} (h : s.Accounted) {key : κ} (hmaking : key ∈ s.making) :
    ({ s.endCreation key with
        arriving := (key, s.made) :: s.arriving
        made := s.made + 1 }.afterEviction (s.cache.created key s.made)).Accounted := by
  have hcached := h.uncached key (h.making.subset hmaking)
  have hfree : { s.endCreation key with cache := s.cache.abandoned key }.Accounted :=
    h.giveUp key rfl rfl
  have hinsert := hfree.insert hcached (by simp [Cache.abandoned])
  let t : Callers κ := { s.endCreation key with
    cache := { s.cache.abandoned key with
      entries := s.cache.entries ++ [{ key, resource := s.made, leases := 1 }]
      statistics := { s.cache.statistics with creations := s.cache.statistics.creations + 1 } }
    arriving := (key, s.made) :: s.arriving
    made := s.made + 1 }
  have ht : t.Accounted :=
    hinsert.congr rfl rfl rfl (List.Perm.refl _) (List.Perm.refl _) rfl
  exact ht.evict (Cache.evicts_shrink ht.keys)

theorem Accounted.release {s : Callers κ} (h : s.Accounted) {lease : κ × Nat}
    (hlease : lease ∈ s.live) :
    ({ s with live := s.live.erase lease }.afterEviction (s.cache.release lease.1)).Accounted := by
  have hcached : s.cache.contains lease.1 = true := by
    obtain ⟨e, he, heq⟩ := h.leased lease (List.mem_append_left _ hlease)
    rw [Cache.contains_iff, ← heq]
    exact List.mem_map_of_mem he
  let clock := s.cache.clock + 1
  let t : Callers κ := { s with
    cache := { s.cache with clock }.modify lease.1 fun e =>
      { e with leases := e.leases - 1, returned := if e.leases ≤ 1 then clock else e.returned }
    live := s.live.erase lease }
  have ht : t.Accounted :=
    (h.unlease hlease fun e => if e.leases ≤ 1 then clock else e.returned).congr rfl rfl rfl
      (List.Perm.refl _) (List.Perm.refl _) rfl
  have hrelease : s.cache.release lease.1 = t.cache.shrink := if_pos hcached
  rw [hrelease]
  exact ht.evict (Cache.evicts_shrink ht.keys)

omit [DecidableEq κ] in
theorem of_guard {p : Prop} [Decidable p] {s t : Callers κ}
    (h : (if p then some s else none) = some t) : p ∧ s = t := by
  simpa using h

theorem Accounted.step {s t : Callers κ} (h : s.Accounted) {step : CallerStep κ}
    (hstep : s.step step = some t) : t.Accounted := by
  cases step with
  | ask key => exact Option.some.inj hstep ▸ h.ask key
  | clearIdle => exact Option.some.inj hstep ▸ h.evict (Cache.evicts_clearIdle s.cache)
  | askAgain key =>
    obtain ⟨-, rfl⟩ := of_guard hstep
    have hawake : { s with awake := s.awake.erase key }.Accounted :=
      h.congr rfl rfl rfl (List.Perm.refl _) (List.Perm.refl _) rfl
    exact hawake.ask key
  | provided key =>
    obtain ⟨hmaking, rfl⟩ := of_guard hstep
    exact h.provided hmaking
  | refused key refusal =>
    obtain ⟨-, rfl⟩ := of_guard hstep
    cases refusal <;> exact h.giveUp key rfl rfl
  | panicked key =>
    obtain ⟨-, rfl⟩ := of_guard hstep
    exact h.giveUp key rfl rfl
  | receive lease =>
    obtain ⟨hlease, rfl⟩ := of_guard hstep
    have hmoved : (lease :: s.live ++ s.arriving.erase lease).Perm s.leased :=
      List.perm_middle.symm.trans ((List.perm_cons_erase hlease).symm.append_left _)
    exact h.congr rfl rfl rfl hmoved (List.Perm.refl _) rfl
  | share lease =>
    obtain ⟨hlease, rfl⟩ := of_guard hstep
    exact h.lease (h.leased lease (List.mem_append_left _ hlease))
  | release lease =>
    obtain ⟨hlease, rfl⟩ := of_guard hstep
    exact h.release hlease
  | dispose lease =>
    obtain ⟨hlease, rfl⟩ := of_guard hstep
    have hmoved : (s.evicted.erase lease ++ lease :: s.disposed).Perm s.gone :=
      List.perm_middle.trans ((List.perm_cons_erase hlease).symm.append_right _)
    exact h.congr rfl rfl rfl (List.Perm.refl _) hmoved rfl

theorem Accounted.run {s t : Callers κ} (h : s.Accounted) {steps : List (CallerStep κ)}
    (hrun : s.run steps = some t) : t.Accounted := by
  induction steps generalizing s with
  | nil => exact Option.some.inj hrun ▸ h
  | cons step steps ih =>
    obtain ⟨next, hnext, hrest⟩ := Option.bind_eq_some_iff.mp hrun
    exact ih (h.step hnext) hrest

/-- What callers can rely on: the cache counts exactly the leases that are out, and what is leased
is in the cache, neither evicted nor disposed of. -/
structure Safe (s : Callers κ) : Prop where
  counts : ∀ key ∈ s.cache.keys, s.cache.leases? key = some (s.leasesOn key)
  cached : ∀ lease ∈ s.leased, (s.cache.entry? lease.1).map (·.resource) = some lease.2
  kept : ∀ lease ∈ s.leased, lease.2 ∉ s.gone.map (·.2)

theorem Accounted.safe {s : Callers κ} (h : s.Accounted) : s.Safe where
  counts key hkey := by
    obtain ⟨e, he, rfl⟩ := List.mem_map.mp hkey
    rw [Cache.leases?, Cache.entry?_of_mem h.keys he, Option.map_some, h.counts e he]
  cached lease hlease := by
    obtain ⟨e, he, rfl⟩ := h.leased lease hlease
    rw [Cache.entry?_of_mem h.keys he]
    rfl
  kept lease hlease hgone := by
    obtain ⟨e, he, rfl⟩ := h.leased lease hlease
    exact (List.nodup_append.mp h.resources).2.2 _ (List.mem_map_of_mem he) _ hgone rfl

/-- Whatever callers do and in whatever order: in every state they can get to, the leases are
safe. -/
theorem safe_of_run (capacity : Nat) {steps : List (CallerStep κ)} {s : Callers κ}
    (hrun : (start capacity).run steps = some s) : s.Safe :=
  ((accounted_start capacity).run hrun).safe

/-- Two callers of one key and one of another, while the cache has room for one entry. -/
def crowded : List (CallerStep String) :=
  [.ask "a", .ask "a", .provided "a", .askAgain "a", .receive ("a", 0), .ask "b", .panicked "b",
    .ask "b", .provided "b", .receive ("b", 1), .share ("b", 1), .release ("b", 1),
    .release ("a", 0), .receive ("a", 0), .release ("a", 0), .dispose ("a", 0)]

theorem safe_of_run_crowded : ∃ s : Callers String, (start 1).run crowded = some s
    ∧ s.arriving = [("b", 1)] ∧ s.disposed = [("a", 0)] ∧ s.Safe :=
  ⟨_, rfl, rfl, rfl, safe_of_run 1 (show (start 1).run crowded = _ from rfl)⟩

end Callers
end Linkage

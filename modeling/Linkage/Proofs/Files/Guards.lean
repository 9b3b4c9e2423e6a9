import Linkage.Files.Lock
import Mathlib

/-! Guards of locks on paths, which are taken and dropped in any order. A path is locked as long as
there is a guard on it, or on something that it lies in. -/
namespace Linkage

namespace Place

/-- The names on the way to a place from the root. The way from there to the current directory counts
as one name that no path has. -/
def components : Place → List (Option String)
  | .here names => none :: names.map some
  | .root names => names.map some

theorem map_some_prefix_iff {names more : List String} :
    names.map some <+: more.map some ↔ names <+: more :=
  List.prefix_map_iff_of_injective (Option.some_injective String)

theorem mem_takes_iff (names more : List String) :
    (∃ n < more.length + 1, names = more.take n) ↔ names <+: more := by
  constructor
  · rintro ⟨n, -, rfl⟩
    exact List.take_prefix n more
  · intro h
    have hlength : names.length ≤ more.length := h.length_le
    exact ⟨names.length, by omega, List.prefix_iff_eq_take.mp h⟩

/-- The places that a place lies in are those whose names it begins with. -/
theorem mem_ancestors_iff {p q : Place} : q ∈ p.ancestors ↔ q.components <+: p.components := by
  cases p with
  | here names =>
    cases q with
    | here above =>
      have htakes := mem_takes_iff above names
      simp only [ancestors, components, List.cons_prefix_cons, true_and, map_some_prefix_iff]
      rw [← htakes]
      simp [eq_comm]
    | root above =>
      have hroot : above.map some <+: none :: names.map some ↔ above = [] := by
        cases above with
        | nil => simp
        | cons name above => simp [List.cons_prefix_cons]
      simp only [ancestors, components, hroot]
      simp
  | root names =>
    cases q with
    | here above =>
      have hhere : ¬none :: above.map some <+: names.map some := by
        cases names with
        | nil => simp
        | cons name names => simp [List.cons_prefix_cons]
      simp only [ancestors, components, hhere]
      simp
    | root above =>
      have htakes := mem_takes_iff above names
      simp only [ancestors, components, map_some_prefix_iff]
      rw [← htakes]
      simp [eq_comm]

end Place

namespace LockTable

theorem contains_iff {t : LockTable} {p : Place} :
    t.contains p = true ↔ ∃ n, (p, n) ∈ t.counts := by
  simp [contains]

theorem isLocked_iff {t : LockTable} {p : Place} :
    t.isLocked p = true ↔ ∃ q n, (q, n) ∈ t.counts ∧ q.components <+: p.components := by
  rw [isLocked, List.any_eq_true]
  constructor
  · rintro ⟨q, hq, hlocked⟩
    obtain ⟨n, hn⟩ := contains_iff.mp hlocked
    exact ⟨q, n, hn, Place.mem_ancestors_iff.mp hq⟩
  · rintro ⟨q, n, hn, hq⟩
    exact ⟨q, Place.mem_ancestors_iff.mpr hq, contains_iff.mpr ⟨n, hn⟩⟩

/-- A table counts guards: each place of a guard stands in it once, with the number of its guards,
and no other place does. -/
structure Counts (t : LockTable) (guards : List Place) : Prop where
  nodup : (t.counts.map (·.1)).Nodup
  mem_iff : ∀ p n, (p, n) ∈ t.counts ↔ n = guards.count p ∧ 0 < n

theorem counts_nil : Counts {} [] where
  nodup := List.nodup_nil
  mem_iff p n := by simp

theorem Counts.count_eq {t : LockTable} {guards : List Place} (h : t.Counts guards) (p : Place) :
    t.count p = guards.count p := by
  unfold count
  cases hlookup : t.counts.lookup p with
  | none =>
    by_contra hne
    have hpos : 0 < guards.count p := Nat.pos_of_ne_zero (Ne.symm hne)
    have hmem : (p, guards.count p) ∈ t.counts := (h.mem_iff p _).mpr ⟨rfl, hpos⟩
    have hno := List.lookup_eq_none_iff.mp hlookup _ hmem
    simp at hno
  | some n =>
    obtain ⟨front, back, hsplit, -⟩ := List.lookup_eq_some_iff.mp hlookup
    have hmem : (p, n) ∈ t.counts := by
      rw [hsplit]
      exact List.mem_append_right _ List.mem_cons_self
    exact ((h.mem_iff p n).mp hmem).1

theorem Counts.mem_places_iff {t : LockTable} {guards : List Place} (h : t.Counts guards)
    {p : Place} : p ∈ t.counts.map (·.1) ↔ p ∈ guards := by
  rw [List.mem_map, ← List.count_pos_iff]
  constructor
  · rintro ⟨⟨q, n⟩, hmem, rfl⟩
    obtain ⟨rfl, hpos⟩ := (h.mem_iff q n).mp hmem
    exact hpos
  · intro hpos
    exact ⟨(p, guards.count p), (h.mem_iff p _).mpr ⟨rfl, hpos⟩, rfl⟩

theorem Counts.size_eq {t : LockTable} {guards : List Place} (h : t.Counts guards) :
    t.size = guards.dedup.length := by
  have hplaces : (t.counts.map (·.1)).Perm guards.dedup := by
    refine (List.perm_ext_iff_of_nodup h.nodup (List.nodup_dedup guards)).mpr fun p => ?_
    rw [h.mem_places_iff, List.mem_dedup]
  have hlength := hplaces.length_eq
  rwa [List.length_map] at hlength

theorem Counts.isLocked_iff {t : LockTable} {guards : List Place} (h : t.Counts guards)
    {p : Place} : t.isLocked p = true ↔ ∃ guard ∈ guards, guard.components <+: p.components := by
  rw [LockTable.isLocked_iff]
  constructor
  · rintro ⟨q, n, hmem, hq⟩
    have hplace : q ∈ t.counts.map (·.1) := List.mem_map_of_mem hmem
    exact ⟨q, h.mem_places_iff.mp hplace, hq⟩
  · rintro ⟨guard, hguard, hp⟩
    have hpos : 0 < guards.count guard := List.count_pos_iff.mpr hguard
    exact ⟨guard, guards.count guard, (h.mem_iff guard _).mpr ⟨rfl, hpos⟩, hp⟩

theorem mem_lock_new_iff {t : LockTable} {place p : Place} {n : Nat} (h : t.count place = 0) :
    (p, n) ∈ (t.lock place).counts ↔ (p, n) ∈ t.counts ∨ p = place ∧ n = 1 := by
  rw [LockTable.lock, if_pos h, List.mem_append, List.mem_singleton, Prod.mk.injEq]

theorem mem_lock_more_iff {t : LockTable} {place p : Place} {n : Nat} (h : t.count place ≠ 0) :
    (p, n) ∈ (t.lock place).counts ↔
      p ≠ place ∧ (p, n) ∈ t.counts ∨ p = place ∧ ∃ m, n = m + 1 ∧ (p, m) ∈ t.counts := by
  rw [LockTable.lock, if_neg h, List.mem_map]
  constructor
  · rintro ⟨⟨q, m⟩, hmem, heq⟩
    by_cases hq : q = place
    · obtain ⟨rfl, rfl⟩ := Prod.mk.inj ((if_pos hq).symm.trans heq)
      exact .inr ⟨hq, m, rfl, hmem⟩
    · obtain ⟨rfl, rfl⟩ := Prod.mk.inj ((if_neg hq).symm.trans heq)
      exact .inl ⟨hq, hmem⟩
  · rintro (⟨hp, hmem⟩ | ⟨hp, m, rfl, hmem⟩)
    · exact ⟨(p, n), hmem, if_neg hp⟩
    · exact ⟨(p, m), hmem, if_pos hp⟩

theorem mem_unlock_iff {t : LockTable} {place p : Place} {n : Nat} :
    (p, n) ∈ (t.unlock place).counts ↔
      p ≠ place ∧ (p, n) ∈ t.counts ∨ p = place ∧ 0 < n ∧ (p, n + 1) ∈ t.counts := by
  rw [LockTable.unlock, List.mem_filterMap]
  constructor
  · rintro ⟨⟨q, m⟩, hmem, heq⟩
    by_cases hq : q = place
    · have hentry := (if_pos hq).symm.trans heq
      by_cases hlast : m ≤ 1
      · cases (if_pos hlast).symm.trans hentry
      · obtain ⟨rfl, rfl⟩ := Prod.mk.inj (Option.some.inj ((if_neg hlast).symm.trans hentry))
        have hm : m - 1 + 1 = m := by omega
        exact .inr ⟨hq, by omega, hm ▸ hmem⟩
    · obtain ⟨rfl, rfl⟩ := Prod.mk.inj (Option.some.inj ((if_neg hq).symm.trans heq))
      exact .inl ⟨hq, hmem⟩
  · rintro (⟨hp, hmem⟩ | ⟨hp, hpos, hmem⟩)
    · exact ⟨(p, n), hmem, if_neg hp⟩
    · have hmore : ¬n + 1 ≤ 1 := by omega
      exact ⟨(p, n + 1), hmem, (if_pos hp).trans (if_neg hmore)⟩

theorem nodup_lock {t : LockTable} (h : (t.counts.map (·.1)).Nodup) {place : Place}
    (hnew : t.count place = 0 → place ∉ t.counts.map (·.1)) :
    ((t.lock place).counts.map (·.1)).Nodup := by
  by_cases hzero : t.count place = 0
  · rw [LockTable.lock, if_pos hzero, List.map_append]
    exact h.append (List.nodup_singleton place) (List.disjoint_singleton.mpr (hnew hzero))
  · rw [LockTable.lock, if_neg hzero, List.map_map]
    have hplaces : (fun e : Place × Nat => e.1) ∘
        (fun (p, n) => if p = place then (p, n + 1) else (p, n)) = fun e => e.1 := by
      funext e
      simp only [Function.comp]
      split <;> rfl
    rw [hplaces]
    exact h

theorem nodup_unlock {t : LockTable} (h : (t.counts.map (·.1)).Nodup) (place : Place) :
    ((t.unlock place).counts.map (·.1)).Nodup := by
  unfold LockTable.unlock List.Nodup at *
  rw [List.pairwise_map] at h ⊢
  rw [List.pairwise_filterMap]
  have hkept {e e' : Place × Nat} (he : (if e.1 = place then
      (if e.2 ≤ 1 then none else some (e.1, e.2 - 1)) else some (e.1, e.2)) = some e') :
      e'.1 = e.1 := by
    split at he
    · split at he
      · cases he
      · exact (congrArg Prod.fst (Option.some.inj he)).symm
    · exact (congrArg Prod.fst (Option.some.inj he)).symm
  refine h.imp fun {e f} hne e' he' f' hf' => ?_
  rw [hkept he', hkept hf']
  exact hne

theorem Counts.lock {t : LockTable} {guards : List Place} (h : t.Counts guards) (place : Place) :
    (t.lock place).Counts (place :: guards) := by
  have hcount : t.count place = guards.count place := h.count_eq place
  have hnew (hzero : t.count place = 0) : place ∉ t.counts.map (·.1) := by
    rw [h.mem_places_iff, ← List.count_pos_iff]
    omega
  refine ⟨nodup_lock h.nodup hnew, fun p n => ?_⟩
  by_cases hp : p = place
  · subst hp
    rw [List.count_cons_self]
    by_cases hzero : t.count p = 0
    · rw [mem_lock_new_iff hzero, h.mem_iff, and_iff_right rfl]
      omega
    · rw [mem_lock_more_iff hzero]
      constructor
      · rintro (⟨hne, -⟩ | ⟨-, m, rfl, hmem⟩)
        · exact absurd rfl hne
        · obtain ⟨rfl, -⟩ := (h.mem_iff p m).mp hmem
          exact ⟨rfl, Nat.succ_pos _⟩
      · rintro ⟨rfl, -⟩
        have hmem : (p, guards.count p) ∈ t.counts := (h.mem_iff p _).mpr ⟨rfl, by omega⟩
        exact .inr ⟨rfl, _, rfl, hmem⟩
  · rw [List.count_cons_of_ne (Ne.symm hp), ← h.mem_iff]
    by_cases hzero : t.count place = 0
    · rw [mem_lock_new_iff hzero]
      simp [hp]
    · rw [mem_lock_more_iff hzero]
      simp [hp]

theorem Counts.unlock {t : LockTable} {guards : List Place} (h : t.Counts guards)
    (place : Place) : (t.unlock place).Counts (guards.erase place) := by
  refine ⟨nodup_unlock h.nodup place, fun p n => ?_⟩
  rw [mem_unlock_iff]
  by_cases hp : p = place
  · subst hp
    rw [List.count_erase_self, h.mem_iff p (n + 1)]
    constructor
    · rintro (⟨hne, -⟩ | ⟨-, hpos, hn, -⟩)
      · exact absurd rfl hne
      · omega
    · rintro ⟨rfl, hpos⟩
      exact .inr ⟨rfl, hpos, by omega, by omega⟩
  · rw [List.count_erase_of_ne hp, ← h.mem_iff]
    simp [hp]

end LockTable

/-- A lock table and the guards that are live, each of which is known by the place that it locks. -/
structure Guards where
  table : LockTable := {}
  live : List Place := []

/-- What is done with guards. -/
inductive GuardStep where
  | lock (path : String)
  | drop (guard : Place)

namespace Guards

/-- A step, if it can be made: a guard is dropped once. Paths lead to the places that they are told to
lead to. -/
def step (canonical : String → Place) (s : Guards) : GuardStep → Option Guards
  | .lock path => some ⟨s.table.lock (canonical path), canonical path :: s.live⟩
  | .drop guard =>
    if guard ∈ s.live then some ⟨s.table.unlock guard, s.live.erase guard⟩ else none

/-- Steps one after the other, each of which can be made. -/
def run (canonical : String → Place) (s : Guards) : List GuardStep → Option Guards
  | [] => some s
  | step :: steps => (s.step canonical step).bind (run canonical · steps)

variable {canonical : String → Place} {s s' : Guards}

theorem step_drop_iff {guard : Place} : s.step canonical (.drop guard) = some s' ↔
    guard ∈ s.live ∧ s' = ⟨s.table.unlock guard, s.live.erase guard⟩ := by
  simp [step, eq_comm]

theorem counts_step (h : s.table.Counts s.live) {step : GuardStep}
    (hstep : s.step canonical step = some s') : s'.table.Counts s'.live := by
  cases step with
  | lock path =>
    obtain rfl := Option.some.inj hstep
    exact h.lock (canonical path)
  | drop guard =>
    obtain ⟨-, rfl⟩ := step_drop_iff.mp hstep
    exact h.unlock guard

theorem counts_run (h : s.table.Counts s.live) {steps : List GuardStep}
    (hrun : s.run canonical steps = some s') : s'.table.Counts s'.live := by
  induction steps generalizing s with
  | nil =>
    obtain rfl := Option.some.inj hrun
    exact h
  | cons step steps ih =>
    obtain ⟨between, hstep, hrest⟩ := Option.bind_eq_some_iff.mp hrun
    exact ih (counts_step h hstep) hrest

/-- Whatever guards have been taken and dropped: a path is locked if and only if its names begin with
those of the place of a live guard; as many places are locked as the live guards have different ones;
each place counts its live guards; and with a guard that is dropped the count of its place, which is
not zero, goes down by one, while the paths that other guards lock stay locked. -/
theorem locks_follow_guards {steps : List GuardStep}
    (hrun : run canonical {} steps = some s) :
    (∀ path, s.table.isLocked (canonical path) = true ↔
        ∃ guard ∈ s.live, guard.components <+: (canonical path).components)
      ∧ s.table.size = s.live.dedup.length
      ∧ (∀ place, s.table.count place = s.live.count place)
      ∧ (∀ place n, (place, n) ∈ s.table.counts → 0 < n)
      ∧ ∀ guard s', s.step canonical (.drop guard) = some s' →
        s.table.count guard = s'.table.count guard + 1
          ∧ ∀ other ∈ s'.live, ∀ path, other.components <+: (canonical path).components →
            s'.table.isLocked (canonical path) = true := by
  have hcounts : s.table.Counts s.live := counts_run LockTable.counts_nil hrun
  refine ⟨fun path => hcounts.isLocked_iff, hcounts.size_eq, hcounts.count_eq, ?_, ?_⟩
  · intro place n hmem
    exact ((hcounts.mem_iff place n).mp hmem).2
  · intro guard s' hdrop
    have hafter : s'.table.Counts s'.live := counts_step hcounts hdrop
    obtain ⟨hlive, rfl⟩ := step_drop_iff.mp hdrop
    have hpos : 0 < s.live.count guard := List.count_pos_iff.mpr hlive
    constructor
    · have hbefore : s.table.count guard = s.live.count guard := hcounts.count_eq guard
      have hless : (s.table.unlock guard).count guard = (s.live.erase guard).count guard :=
        hafter.count_eq guard
      rw [hbefore, hless, List.count_erase_self]
      omega
    · intro other hother path hcovers
      exact hafter.isLocked_iff.mpr ⟨other, hother, hcovers⟩

/-- Of two guards on one place, under two spellings of its path, the second keeps the place locked. -/
theorem locks_follow_guards_spelled :
    run (FileTree.canonical {}) {} [.lock "a", .lock "./a", .drop (.here ["a"])]
        = some ⟨⟨[(.here ["a"], 1)]⟩, [.here ["a"]]⟩
      ∧ LockTable.isLocked ⟨[(.here ["a"], 1)]⟩ (FileTree.canonical {} "a/b") = true := by
  have hplain : FileTree.canonical {} "a" = .here ["a"] := by cbv
  have hspelled : FileTree.canonical {} "./a" = .here ["a"] := by cbv
  have hpath : FileTree.canonical {} "a/b" = .here ["a", "b"] := by cbv
  have hrun : run (FileTree.canonical {}) {} [.lock "a", .lock "./a", .drop (.here ["a"])]
      = some ⟨⟨[(.here ["a"], 1)]⟩, [.here ["a"]]⟩ := by
    simp only [run, step, hplain, hspelled, Option.bind_some]
    rfl
  have hlocked := (locks_follow_guards hrun).1 "a/b"
  refine ⟨hrun, hlocked.mpr ⟨.here ["a"], List.mem_singleton_self _, ?_⟩⟩
  rw [hpath]
  decide

end Guards

end Linkage

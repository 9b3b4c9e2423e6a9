import Linkage.Proofs.Cache.History

/-! How resources come to be: for each key in one creation at a time, for which nobody waits in
vain, and whose resource all are given who ask until it is evicted. -/
namespace Linkage

/-- The creation for a key ends without a resource. -/
def CallerStep.BreaksOff {κ : Type} (step : CallerStep κ) (key : κ) : Prop :=
  step = .panicked key ∨ ∃ refusal, step = .refused key refusal

/-- The creation for a key ends. -/
def CallerStep.Ends {κ : Type} (step : CallerStep κ) (key : κ) : Prop :=
  step = .provided key ∨ step.BreaksOff key

namespace Callers

variable {κ : Type} [DecidableEq κ]

/-- From `s` to `t` somebody is answered with a lease. -/
def Answers (s t : Callers κ) (lease : κ × Nat) : Prop := t.arriving = lease :: s.arriving

/-- The protocol of creations, between two steps and for all that comes after. -/
structure Orderly (s : Callers κ) : Prop where
  /-- One provider at most runs for each key. -/
  single : s.making.Nodup
  /-- What is being made is not there, so nothing is overwritten when it comes. -/
  uncached : ∀ key ∈ s.making, s.cache.entry? key = none
  /-- Who sleeps does so while the resource is being made. -/
  asleep : ∀ key ∈ s.asleep, key ∈ s.making
  /-- The end of any creation wakes all. -/
  woken : ∀ key step t, step.Ends key → s.step step = some t →
    t.asleep = [] ∧ t.awake = s.awake ++ s.asleep
  /-- A creation leaves what is there as it was when it begins. -/
  begun : ∀ step t, s.step step = some t → s.making.length < t.making.length →
    t.cache.entries = s.cache.entries ∧ t.cache.clock = s.cache.clock
  /-- It does so as well when it breaks off, and whoever asks next can begin again. -/
  failed : ∀ key step t, step.BreaksOff key → s.step step = some t →
    t.cache.entries = s.cache.entries ∧ t.cache.clock = s.cache.clock
      ∧ ∃ u, t.step (.ask key) = some u ∧ u.making = key :: t.making
  /-- From a creation to the eviction of what came of it, all answers for the key are the same. -/
  same : ∀ key t, s.step (.provided key) = some t → Answers s t (key, s.made)
    ∧ ∀ steps u, t.run steps = some u → (key, s.made) ∉ u.gone →
      ∀ step v lease, u.step step = some v → Answers u v lease → lease.1 = key → lease.2 = s.made

variable {s t : Callers κ}

theorem Accounted.asleep_step (h : s.Accounted) (hasleep : ∀ key ∈ s.asleep, key ∈ s.making)
    {step : CallerStep κ} (hstep : s.step step = some t) : ∀ key ∈ t.asleep, key ∈ t.making := by
  -- who falls asleep has found the key in creation, and where a creation ends nobody sleeps on
  have hask (u : Callers κ) (hu : u.making.Perm u.cache.creating)
      (hkeys : ∀ k ∈ u.asleep, k ∈ u.making) (key : κ) :
      ∀ k ∈ (u.ask key).asleep, k ∈ (u.ask key).making := by
    rcases u.ask_cases key with ⟨e, -, -, heq⟩ | ⟨-, hcreating, heq⟩ | ⟨-, -, heq⟩
    · rw [heq]
      exact hkeys
    · rw [heq]
      intro k hk
      rcases List.mem_cons.mp hk with rfl | hk
      · exact hu.symm.subset hcreating
      · exact hkeys k hk
    · rw [heq]
      exact fun k hk => List.mem_cons_of_mem key (hkeys k hk)
  cases step with
  | ask key => exact Option.some.inj hstep ▸ hask s h.making hasleep key
  | askAgain key =>
    obtain ⟨-, rfl⟩ := of_guard hstep
    exact hask { s with awake := s.awake.erase key } h.making hasleep key
  | provided key =>
    obtain ⟨-, rfl⟩ := of_guard hstep
    exact fun k hk => absurd hk List.not_mem_nil
  | refused key refusal =>
    obtain ⟨-, rfl⟩ := of_guard hstep
    exact fun k hk => absurd hk List.not_mem_nil
  | panicked key =>
    obtain ⟨-, rfl⟩ := of_guard hstep
    exact fun k hk => absurd hk List.not_mem_nil
  | clearIdle =>
    obtain rfl := Option.some.inj hstep
    exact hasleep
  | _ =>
    obtain ⟨-, rfl⟩ := of_guard hstep
    exact hasleep

theorem entries_refused (c : Cache κ Nat) (key : κ) (refusal : Refusal) :
    (c.refused key refusal).entries = c.entries ∧ (c.refused key refusal).clock = c.clock
      ∧ (c.refused key refusal).creating = c.creating.filter (· ≠ key) := by
  cases refusal <;> exact ⟨rfl, rfl, rfl⟩

/-- Where a creation breaks off, only its key is not being made any more. -/
theorem of_breaksOff {key : κ} {step : CallerStep κ} (hbreaks : step.BreaksOff key)
    (hstep : s.step step = some t) :
    key ∈ s.making ∧ t.cache.entries = s.cache.entries ∧ t.cache.clock = s.cache.clock
      ∧ t.cache.creating = s.cache.creating.filter (· ≠ key) := by
  rcases hbreaks with rfl | ⟨refusal, rfl⟩
  · obtain ⟨hmaking, rfl⟩ := of_guard hstep
    exact ⟨hmaking, rfl, rfl, rfl⟩
  · obtain ⟨hmaking, rfl⟩ := of_guard hstep
    exact ⟨hmaking, entries_refused _ _ _⟩

theorem Accounted.retry (h : s.Accounted) {key : κ} {step : CallerStep κ}
    (hbreaks : step.BreaksOff key) (hstep : s.step step = some t) :
    ∃ u, t.step (.ask key) = some u ∧ u.making = key :: t.making := by
  obtain ⟨hmaking, hentries, -, hcreating⟩ := of_breaksOff hbreaks hstep
  have hkeys : t.cache.keys = s.cache.keys := congrArg (List.map _) hentries
  have hnew := h.uncached key (h.making.subset hmaking)
  refine ⟨t.ask key, rfl, ?_⟩
  rcases t.ask_cases key with ⟨e, he, rfl, -⟩ | ⟨-, hagain, -⟩ | ⟨-, -, heq⟩
  · exact absurd (hkeys ▸ List.mem_map_of_mem he) hnew
  · simp [hcreating] at hagain
  · rw [heq]

theorem Ends.wakes {key : κ} {step : CallerStep κ} (hends : step.Ends key)
    (hstep : s.step step = some t) : t.asleep = [] ∧ t.awake = s.awake ++ s.asleep := by
  rcases hends with rfl | rfl | ⟨refusal, rfl⟩
  · obtain ⟨-, rfl⟩ := of_guard hstep
    exact ⟨rfl, rfl⟩
  · obtain ⟨-, rfl⟩ := of_guard hstep
    exact ⟨rfl, rfl⟩
  · obtain ⟨-, rfl⟩ := of_guard hstep
    exact ⟨rfl, rfl⟩

/-- A provider more runs only after somebody asked, which changes no entry. -/
theorem entries_of_begun {step : CallerStep κ} (hstep : s.step step = some t)
    (hmore : s.making.length < t.making.length) :
    t.cache.entries = s.cache.entries ∧ t.cache.clock = s.cache.clock := by
  have hask (u : Callers κ) (key : κ) (hmore : u.making.length < (u.ask key).making.length) :
      (u.ask key).cache.entries = u.cache.entries ∧ (u.ask key).cache.clock = u.cache.clock := by
    rcases u.ask_cases key with ⟨e, -, -, heq⟩ | ⟨-, -, heq⟩ | ⟨-, -, heq⟩
    · rw [heq] at hmore
      exact absurd hmore (Nat.lt_irrefl _)
    · rw [heq]
      exact ⟨rfl, rfl⟩
    · rw [heq]
      exact ⟨rfl, rfl⟩
  have herase (key : κ) : ¬ s.making.length < (s.making.erase key).length :=
    Nat.not_lt.mpr List.erase_sublist.length_le
  cases step with
  | ask key => exact Option.some.inj hstep ▸ hask s key (Option.some.inj hstep ▸ hmore)
  | askAgain key =>
    obtain ⟨-, rfl⟩ := of_guard hstep
    exact hask { s with awake := s.awake.erase key } key hmore
  | provided key =>
    obtain ⟨-, rfl⟩ := of_guard hstep
    exact absurd hmore (herase key)
  | refused key refusal =>
    obtain ⟨-, rfl⟩ := of_guard hstep
    exact absurd hmore (herase key)
  | panicked key =>
    obtain ⟨-, rfl⟩ := of_guard hstep
    exact absurd hmore (herase key)
  | clearIdle =>
    obtain rfl := Option.some.inj hstep
    exact absurd hmore (Nat.lt_irrefl _)
  | _ =>
    obtain ⟨-, rfl⟩ := of_guard hstep
    exact absurd hmore (Nat.lt_irrefl _)

/-- An answer is a lease on what is in the cache, or on what was just made. -/
theorem Accounted.answer_cases (h : s.Accounted) {step : CallerStep κ} {lease : κ × Nat}
    (hstep : s.step step = some t) (hanswer : Answers s t lease) :
    (∃ e ∈ s.cache.entries, (e.key, e.resource) = lease) ∨ lease.1 ∈ s.making := by
  have hask (u : Callers κ) (key : κ) (hanswer : Answers u (u.ask key) lease) :
      ∃ e ∈ u.cache.entries, (e.key, e.resource) = lease := by
    rcases u.ask_cases key with ⟨e, he, rfl, heq⟩ | ⟨-, -, heq⟩ | ⟨-, -, heq⟩
    · rw [heq] at hanswer
      exact ⟨e, he, (List.cons.inj hanswer).1⟩
    · rw [heq] at hanswer
      exact absurd hanswer.symm (List.cons_ne_self _ _)
    · rw [heq] at hanswer
      exact absurd hanswer.symm (List.cons_ne_self _ _)
  cases step with
  | ask key => exact Or.inl (hask s key (Option.some.inj hstep ▸ hanswer))
  | askAgain key =>
    obtain ⟨-, rfl⟩ := of_guard hstep
    exact Or.inl (hask { s with awake := s.awake.erase key } key hanswer)
  | provided key =>
    obtain ⟨hmaking, rfl⟩ := of_guard hstep
    have heq : (key, s.made) = lease := (List.cons.inj hanswer).1
    exact Or.inr (heq ▸ hmaking)
  | share lease' =>
    obtain ⟨hlive, rfl⟩ := of_guard hstep
    have heq : lease' = lease := (List.cons.inj hanswer).1
    exact Or.inl (h.leased lease (List.mem_append_left _ (heq ▸ hlive)))
  | receive lease' =>
    obtain ⟨-, rfl⟩ := of_guard hstep
    have hlength : (s.arriving.erase lease').length = s.arriving.length + 1 :=
      congrArg List.length hanswer
    have hle := (List.erase_sublist (a := lease') (l := s.arriving)).length_le
    omega
  | clearIdle =>
    obtain rfl := Option.some.inj hstep
    exact absurd hanswer.symm (List.cons_ne_self _ _)
  | _ =>
    obtain ⟨-, rfl⟩ := of_guard hstep
    exact absurd hanswer.symm (List.cons_ne_self _ _)

/-- Until it is evicted, what was made for a key is the answer to all who ask for it. -/
theorem Accounted.same (h : s.Accounted) {lease answer : κ × Nat} (hmade : lease ∈ s.accountedFor)
    {steps : List (CallerStep κ)} {u v : Callers κ} (hrun : s.run steps = some u)
    (hkept : lease ∉ u.gone) {step : CallerStep κ} (hstep : u.step step = some v)
    (hanswer : Answers u v answer) (hkey : answer.1 = lease.1) : answer = lease := by
  have hu := h.run hrun
  have hheld : lease ∈ u.accountedFor :=
    (h.accountedFor_run hrun).symm.subset (List.mem_append_left _ hmade)
  -- what was made is still there, so its key is not made again and no other entry has it
  obtain ⟨e, he, rfl⟩ := List.mem_map.mp ((List.mem_append.mp hheld).resolve_right hkept)
  rcases hu.answer_cases hstep hanswer with ⟨e', he', rfl⟩ | hmaking
  · rw [List.inj_on_of_nodup_map hu.keys he' he hkey]
  · have hnew := hu.uncached _ (hu.making.subset hmaking)
    exact absurd (List.mem_map_of_mem he) (hkey ▸ hnew)

theorem Accounted.orderly (h : s.Accounted) (hasleep : ∀ key ∈ s.asleep, key ∈ s.making) :
    s.Orderly where
  single := h.making.nodup_iff.mpr h.creating
  uncached key hkey := by
    have hnew := h.uncached key (h.making.subset hkey)
    rwa [← Cache.contains_iff, Cache.contains, Option.not_isSome_iff_eq_none] at hnew
  asleep := hasleep
  woken _ _ _ hends hstep := Ends.wakes hends hstep
  begun _ _ hstep hmore := entries_of_begun hstep hmore
  failed key step t hbreaks hstep := by
    obtain ⟨-, hentries, hclock, -⟩ := of_breaksOff hbreaks hstep
    exact ⟨hentries, hclock, h.retry hbreaks hstep⟩
  same key t hstep := by
    have hmade : (key, s.made) ∈ t.accountedFor :=
      (h.accountedFor_step hstep).symm.subset (List.mem_append_right _ List.mem_cons_self)
    constructor
    · obtain ⟨-, rfl⟩ := of_guard hstep
      rfl
    · intro steps u hrun hkept step v lease hnext hanswer hkey
      rw [(h.step hstep).same hmade hrun hkept hnext hanswer hkey]

/-- Whoever asks for whatever, and however the providers end: creations are orderly in every state
that callers can get to. -/
theorem orderly_of_run (capacity : Nat) {steps : List (CallerStep κ)}
    (hrun : (start capacity).run steps = some s) : s.Orderly := by
  have hkept := holds_of_run (P := fun _ u => u.Accounted ∧ ∀ key ∈ u.asleep, key ∈ u.making)
    ⟨accounted_start capacity, fun key hkey => absurd hkey List.not_mem_nil⟩
    (fun _ _ _ _ hu hstep => ⟨hu.1.step hstep, hu.1.asleep_step hu.2 hstep⟩) hrun
  exact hkept.1.orderly hkept.2

/-- One provider fails while another caller sleeps, who then makes the resource and is asked for it
by a third, while a provider of another key breaks down. -/
def flaky : List (CallerStep String) :=
  [.ask "a", .ask "a", .ask "b", .ask "b", .refused "a" (.failed "first attempt"), .askAgain "b",
    .askAgain "a", .panicked "b", .ask "a", .provided "a", .askAgain "a"]

theorem orderly_of_run_flaky : ∃ s : Callers String, (start 1).run flaky = some s
    ∧ s.awake = ["b"] ∧ s.arriving = [("a", 0), ("a", 0)] ∧ s.Orderly :=
  ⟨_, rfl, by decide, by decide, orderly_of_run 1 (show (start 1).run flaky = _ from rfl)⟩

end Callers
end Linkage

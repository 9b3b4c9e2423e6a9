import Linkage.Proofs.Check.Findings

/-! Filters only sort what is found. -/
namespace Linkage.Check

variable (env : Surroundings) (filters : List Filter)

/-- `parts` is what was found on the whole, with the problems that filters take out put aside. -/
structure Partitions (whole parts : Outcome) : Prop where
  once : (identities (parts.problems ++ parts.ignored.map (·.problem))).Nodup
  complete : (parts.problems ++ parts.ignored.map (·.problem)).Perm whole.problems
  reportedInOrder : parts.problems.Sublist whole.problems
  ignoredInOrder : (parts.ignored.map (·.problem)).Sublist whole.problems
  kept : ∀ p ∈ parts.problems, ∀ f ∈ filters, f.reason? env p = none
  explained : ∀ i ∈ parts.ignored, ∃ front f back, filters = front ++ f :: back
    ∧ (∀ g ∈ front, g.reason? env i.problem = none)
    ∧ f.reason? env i.problem = some i.reason ∧ i.filter = f.name
  wholeReported : whole.ignored = []
  rest : parts.checked = whole.checked ∧ parts.invalid = whole.invalid

theorem verdict?_eq_none_iff {p : Problem} :
    verdict? env filters p = none ↔ ∀ f ∈ filters, f.reason? env p = none := by
  simp [verdict?]

/-- The first filter that takes a problem out says why. -/
theorem verdict?_eq_some {p : Problem} {i : IgnoredProblem} (h : verdict? env filters p = some i) :
    i.problem = p ∧ ∃ front f back, filters = front ++ f :: back
      ∧ (∀ g ∈ front, g.reason? env p = none) ∧ f.reason? env p = some i.reason
      ∧ i.filter = f.name := by
  unfold verdict? at h
  obtain ⟨front, f, back, hfilters, hf, hfront⟩ := List.findSome?_eq_some_iff.mp h
  obtain ⟨reason, hreason, rfl⟩ := Option.map_eq_some_iff.mp hf
  exact ⟨rfl, front, f, back, hfilters, by simpa using hfront, hreason, rfl⟩

/-- Problems that are put aside are those that a filter takes out. -/
theorem map_problem_filterMap_verdict? (problems : List Problem) :
    (problems.filterMap (verdict? env filters)).map (·.problem)
      = problems.filter fun p => !(verdict? env filters p).isNone := by
  induction problems with
  | nil => rfl
  | cons p problems ih =>
    cases hverdict : verdict? env filters p with
    | none => simp [hverdict, ih]
    | some i => simp [hverdict, ih, (verdict?_eq_some env filters hverdict).1]

theorem partitions_outcomeOf (plugin : Classpath) (ps : List Problem) :
    Partitions env filters (outcomeOf env [] plugin ps) (outcomeOf env filters plugin ps) := by
  let all := firsts [] ps
  have hwhole : (outcomeOf env [] plugin ps).problems = all := by
    rw [outcomeOf_no_filters]
    rfl
  have hproblems : (outcomeOf env filters plugin ps).problems
      = all.filter fun p => (verdict? env filters p).isNone := by
    simp [outcomeOf, Outcome.look, Outcome.sort, all]
  have hignored : (outcomeOf env filters plugin ps).ignored
      = all.filterMap (verdict? env filters) := by
    simp [outcomeOf, Outcome.look, Outcome.sort, all]
  have hperm : ((outcomeOf env filters plugin ps).problems
      ++ (outcomeOf env filters plugin ps).ignored.map (·.problem)).Perm all := by
    rw [hproblems, hignored, map_problem_filterMap_verdict?]
    exact List.filter_append_perm _ _
  refine ⟨?_, ?_, ?_, ?_, fun p hp => ?_, fun i hi => ?_, ?_, rfl, rfl⟩
  · exact ((hperm.map _).nodup_iff).mpr (nodup_identities_firsts [] ps)
  · rw [hwhole]
    exact hperm
  · rw [hwhole, hproblems]
    exact List.filter_sublist
  · rw [hwhole, hignored, map_problem_filterMap_verdict?]
    exact List.filter_sublist
  · rw [hproblems] at hp
    have hnone := (List.mem_filter.mp hp).2
    exact (verdict?_eq_none_iff env filters).mp (Option.isNone_iff_eq_none.mp hnone)
  · rw [hignored] at hi
    obtain ⟨p, -, hverdict⟩ := List.mem_filterMap.mp hi
    obtain ⟨rfl, hfirst⟩ := verdict?_eq_some env filters hverdict
    exact hfirst
  · rw [outcomeOf_no_filters]
    rfl

/-- Filters only sort what is found: whoever watches, a check with filters and one without come to
the same problems, each identity once, reported or ignored in the same order. -/
theorem filters_partition (plugin : Classpath) : ∃ whole parts,
    Yields env [] plugin whole ∧ Yields env filters plugin parts
      ∧ Partitions env filters whole parts :=
  ⟨_, _, yields_outcomeOf env [] plugin, yields_outcomeOf env filters plugin,
    partitions_outcomeOf env filters plugin _⟩

end Linkage.Check

import Linkage.Data.Search
import Mathlib.Tactic

/-! A breadth-first search finds what can be reached, each name once. -/
namespace Linkage.Search

open Relation (ReflTransGen)

variable {next : String → List String} {n : String}

@[simp] theorem mem_fresh {seen ns : List String} : n ∈ fresh seen ns ↔ n ∈ ns ∧ n ∉ seen := by
  induction ns generalizing seen with
  | nil => simp [fresh]
  | cons m ns ih =>
    unfold fresh
    split
    · next hm =>
      rw [ih, List.mem_cons]
      refine and_congr_left fun hn => (or_iff_right ?_).symm
      rintro rfl
      exact hn hm
    · next hm =>
      rw [List.mem_cons, List.mem_cons, ih, List.mem_cons]
      by_cases heq : n = m
      · simp [heq, hm]
      · simp [heq]

theorem nodup_fresh (seen ns : List String) : (fresh seen ns).Nodup := by
  induction ns generalizing seen with
  | nil => simp [fresh]
  | cons m ns ih =>
    unfold fresh
    split
    · exact ih seen
    · exact List.nodup_cons.mpr ⟨by simp, ih (m :: seen)⟩

/-- A search finds nothing that was seen before. -/
theorem not_mem_of_mem_breadthFirst {rounds : Nat} {seen level : List String}
    (h : n ∈ breadthFirst next rounds seen level) : n ∉ seen := by
  induction rounds generalizing seen level with
  | zero => simp [breadthFirst] at h
  | succ rounds ih =>
    rcases List.mem_append.mp h with h | h
    · exact (mem_fresh.mp h).2
    · exact fun hn => ih h (List.mem_append_left _ hn)

theorem nodup_breadthFirst (rounds : Nat) (seen level : List String) :
    (breadthFirst next rounds seen level).Nodup := by
  induction rounds generalizing seen level with
  | zero => simp [breadthFirst]
  | succ rounds ih =>
    refine List.nodup_append.mpr ⟨nodup_fresh seen level, ih _ _, fun m hm m' hm' heq => ?_⟩
    exact not_mem_of_mem_breadthFirst hm' (heq ▸ List.mem_append_right _ hm)

/-- What a search finds can be reached from the level that it starts with. -/
theorem reachable_of_mem_breadthFirst {rounds : Nat} {seen level : List String}
    (h : n ∈ breadthFirst next rounds seen level) :
    ∃ m ∈ level, ReflTransGen (fun a b => b ∈ next a) m n := by
  induction rounds generalizing seen level with
  | zero => simp [breadthFirst] at h
  | succ rounds ih =>
    rcases List.mem_append.mp h with h | h
    · exact ⟨n, (mem_fresh.mp h).1, .refl⟩
    · obtain ⟨m, hm, hpath⟩ := ih h
      obtain ⟨k, hk, hstep⟩ := List.mem_flatMap.mp hm
      exact ⟨k, (mem_fresh.mp hk).1, hpath.head hstep⟩

/-- The names that lead on and were not seen yet. -/
abbrev unseen (sources : List String) (seen : List String) : Finset String :=
  sources.toFinset \ seen.toFinset

theorem card_unseen_lt {sources seen seen' : List String} (hsub : seen ⊆ seen') (hn : n ∈ sources)
    (hnew : n ∉ seen) (hseen : n ∈ seen') :
    (unseen sources seen').card < (unseen sources seen).card := by
  refine Finset.card_lt_card (Finset.ssubset_iff_of_subset ?_ |>.mpr ⟨n, ?_, ?_⟩)
  · refine Finset.sdiff_subset_sdiff (Finset.Subset.refl _) fun m hm => ?_
    exact List.mem_toFinset.mpr (hsub (List.mem_toFinset.mp hm))
  · simp [hn, hnew]
  · simp [hseen]

/-- A round leaves nothing that waits, or fewer names that were not seen and lead on. -/
theorem nothing_left_or_fewer {sources : List String} (hsources : ∀ m, m ∉ sources → next m = [])
    {rounds : Nat} {seen level : List String}
    (hrounds : level = [] ∨ (unseen sources seen).card < rounds + 1) :
    (fresh seen level).flatMap next = []
      ∨ (unseen sources (seen ++ fresh seen level)).card < rounds := by
  by_cases hall : ∀ m ∈ fresh seen level, m ∉ sources
  · exact Or.inl (List.flatMap_eq_nil_iff.mpr fun m hm => hsources m (hall m hm))
  · push Not at hall
    obtain ⟨m, hm, hsource⟩ := hall
    obtain ⟨hmlevel, hmseen⟩ := mem_fresh.mp hm
    have hlt := card_unseen_lt (List.subset_append_left seen (fresh seen level)) hsource hmseen
      (List.mem_append_right seen hm)
    have hmany := hrounds.resolve_left (List.ne_nil_of_mem hmlevel)
    exact Or.inr (by omega)

/-- Each round but the last sees a name that leads on, so that as many rounds as there are such names
leave nothing to be found. -/
private theorem closed_breadthFirst {sources : List String}
    (hsources : ∀ m, m ∉ sources → next m = []) {rounds : Nat} {seen level : List String}
    (hrounds : level = [] ∨ (unseen sources seen).card < rounds)
    (hseen : ∀ a ∈ seen, ∀ b ∈ next a, b ∈ seen ∨ b ∈ level) :
    level ⊆ seen ++ breadthFirst next rounds seen level
      ∧ ∀ a ∈ seen ++ breadthFirst next rounds seen level, ∀ b ∈ next a,
        b ∈ seen ++ breadthFirst next rounds seen level := by
  induction rounds generalizing seen level with
  | zero =>
    obtain rfl : level = [] := hrounds.resolve_right (Nat.not_lt_zero _)
    simpa [breadthFirst] using hseen
  | succ rounds ih =>
    have hlevel : level ⊆ seen ++ fresh seen level := by
      intro b hb
      by_cases hmem : b ∈ seen
      · exact List.mem_append_left _ hmem
      · exact List.mem_append_right _ (mem_fresh.mpr ⟨hb, hmem⟩)
    have hnext : ∀ a ∈ seen ++ fresh seen level, ∀ b ∈ next a,
        b ∈ seen ++ fresh seen level ∨ b ∈ (fresh seen level).flatMap next := by
      intro a ha b hb
      rcases List.mem_append.mp ha with ha | ha
      · refine Or.inl ?_
        rcases hseen a ha b hb with hb | hb
        · exact List.mem_append_left _ hb
        · exact hlevel hb
      · exact Or.inr (List.mem_flatMap.mpr ⟨a, ha, hb⟩)
    have hleft := nothing_left_or_fewer hsources hrounds
    obtain ⟨-, hclosed⟩ := ih hleft hnext
    have hfound : seen ++ breadthFirst next (rounds + 1) seen level
        = seen ++ fresh seen level
          ++ breadthFirst next rounds (seen ++ fresh seen level)
            ((fresh seen level).flatMap next) := (List.append_assoc _ _ _).symm
    rw [hfound]
    exact ⟨fun b hb => List.mem_append_left _ (hlevel hb), hclosed⟩

/-- With more rounds than there are names that lead on, a search finds exactly what can be reached. -/
theorem mem_breadthFirst_iff {sources : List String} (hsources : ∀ m, m ∉ sources → next m = [])
    {rounds : Nat} (hrounds : sources.length < rounds) {level : List String} :
    n ∈ breadthFirst next rounds [] level
      ↔ ∃ m ∈ level, ReflTransGen (fun a b => b ∈ next a) m n := by
  have hcard : (unseen sources []).card < rounds := by
    have hle : (unseen sources []).card ≤ sources.length := by
      simpa [unseen] using sources.toFinset_card_le
    omega
  have hnothing : ∀ a ∈ ([] : List String), ∀ b ∈ next a, b ∈ [] ∨ b ∈ level := by simp
  obtain ⟨hlevel, hclosed⟩ := closed_breadthFirst hsources (Or.inr hcard) hnothing
  rw [List.nil_append] at hlevel hclosed
  refine ⟨reachable_of_mem_breadthFirst, ?_⟩
  rintro ⟨m, hm, hpath⟩
  induction hpath with
  | refl => exact hlevel hm
  | tail _ hstep ih => exact hclosed _ ih _ hstep

end Linkage.Search

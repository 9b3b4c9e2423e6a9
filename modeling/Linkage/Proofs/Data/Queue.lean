import Linkage.Proofs.Data.Loop
import Linkage.Proofs.Data.Search

/-! Searches that take one name at a time from a queue find what a search level by level finds, and
come to an end. -/
namespace Linkage.Search

open Loop (Ends Reaches)

variable {next : String → List String} {found : List String} {n : String}

/-- The names that a search has seen, in the order in which it came to them, and those that wait. -/
structure Queue where
  seen : List String
  waiting : List String

/-- Takes the name that waits longest. What a new name leads to waits behind the others. -/
def Queue.turn (next : String → List String) : Queue → Queue ⊕ List String
  | ⟨seen, []⟩ => .inr seen
  | ⟨seen, n :: waiting⟩ =>
    if n ∈ seen then .inl ⟨seen, waiting⟩ else .inl ⟨seen ++ [n], waiting ++ next n⟩

/-- The same until a certain name turns up. -/
def Queue.turnUntil (target : String) (next : String → List String) : Queue → Queue ⊕ Bool
  | ⟨_, []⟩ => .inr false
  | ⟨seen, n :: waiting⟩ =>
    if n = target then .inr true
    else if n ∈ seen then .inl ⟨seen, waiting⟩
    else .inl ⟨seen ++ [n], waiting ++ next n⟩

theorem Queue.turn_eq_inr {q : Queue} : q.turn next = .inr found ↔ q = ⟨found, []⟩ := by
  obtain ⟨seen, _ | ⟨n, waiting⟩⟩ := q
  · simp [turn]
  · simp only [turn]
    split <;> simp

theorem Queue.turn_eq_inl {q q' : Queue} : q.turn next = .inl q' ↔
    ∃ n waiting, q.waiting = n :: waiting ∧
      (n ∈ q.seen ∧ q' = ⟨q.seen, waiting⟩ ∨ n ∉ q.seen ∧ q' = ⟨q.seen ++ [n], waiting ++ next n⟩) := by
  obtain ⟨seen, _ | ⟨n, waiting⟩⟩ := q
  · simp [turn]
  · by_cases hn : n ∈ seen <;> simp [turn, hn, eq_comm]

theorem fresh_congr {seen seen' : List String} (h : ∀ n, n ∈ seen ↔ n ∈ seen') (ns : List String) :
    fresh seen ns = fresh seen' ns := by
  induction ns generalizing seen seen' with
  | nil => rfl
  | cons m ns ih =>
    unfold fresh
    have hrest : fresh (m :: seen) ns = fresh (m :: seen') ns := ih fun n => by simp [h n]
    simp only [h m, ih h, hrest]

/-- The names of a level are taken before what they lead to. -/
theorem reaches_level (seen level later : List String) :
    Reaches (Queue.turn next) ⟨seen, level ++ later⟩
      ⟨seen ++ fresh seen level, later ++ (fresh seen level).flatMap next⟩ := by
  induction level generalizing seen later with
  | nil => simpa [fresh] using Reaches.refl _
  | cons m level ih =>
    by_cases hm : m ∈ seen
    · have hfresh : fresh seen (m :: level) = fresh seen level := if_pos hm
      rw [hfresh]
      exact .head (if_pos hm) (ih seen later)
    · have hsame : fresh (m :: seen) level = fresh (seen ++ [m]) level :=
        fresh_congr (fun n => by simp [or_comm]) level
      have hfresh : fresh seen (m :: level) = m :: fresh (seen ++ [m]) level := by
        rw [fresh, if_neg hm, hsame]
      rw [hfresh]
      have hrest := ih (seen ++ [m]) (later ++ next m)
      simp only [List.append_assoc, List.singleton_append] at hrest
      refine .head (if_neg hm) ?_
      simpa using hrest

/-- If finitely many names lead on, a queue gets empty, cycles or not, and then all that a search level
by level finds has been seen. -/
theorem ends_turn {sources : List String} (hsources : ∀ m, m ∉ sources → next m = []) {rounds : Nat}
    {seen level : List String} (hrounds : level = [] ∨ (unseen sources seen).card < rounds) :
    Ends (Queue.turn next) ⟨seen, level⟩ (seen ++ breadthFirst next rounds seen level) := by
  induction rounds generalizing seen level with
  | zero =>
    obtain rfl : level = [] := hrounds.resolve_right (Nat.not_lt_zero _)
    exact .stop (by simp [Queue.turn, breadthFirst])
  | succ rounds ih =>
    have hrest := ih (nothing_left_or_fewer hsources hrounds)
    have hlevel : Reaches (Queue.turn next) ⟨seen, level ++ []⟩ _ := reaches_level seen level []
    rw [List.append_nil, List.nil_append] at hlevel
    rw [breadthFirst, ← List.append_assoc]
    exact hrest.of_reaches hlevel

theorem ends_turn_breadthFirst {sources : List String} (hsources : ∀ m, m ∉ sources → next m = [])
    {rounds : Nat} (hrounds : sources.length < rounds) (level : List String) :
    Ends (Queue.turn next) ⟨[], level⟩ (breadthFirst next rounds [] level) := by
  have hcard : (unseen sources []).card ≤ sources.length := by
    simpa [unseen] using sources.toFinset_card_le
  exact ends_turn hsources (Or.inr (by omega))

theorem seen_subset_of_ends {q : Queue} (h : Ends (Queue.turn next) q found) : q.seen ⊆ found := by
  induction h with
  | stop hstop =>
    rw [Queue.turn_eq_inr.mp hstop]
    exact List.Subset.refl _
  | goOn hgo _ ih =>
    obtain ⟨n, waiting, -, ⟨-, rfl⟩ | ⟨-, rfl⟩⟩ := Queue.turn_eq_inl.mp hgo
    · exact ih
    · exact List.Subset.trans (List.subset_append_left _ [n]) ih

/-- A search that stops at a name tells whether the whole search would come to it. -/
theorem ends_turnUntil {q : Queue} (h : Ends (Queue.turn next) q found) {target : String}
    (hseen : target ∉ q.seen) :
    Ends (Queue.turnUntil target next) q (found.contains target) := by
  induction h with
  | @stop q found hstop =>
    obtain rfl := Queue.turn_eq_inr.mp hstop
    have hno : found.contains target = false := by simpa using hseen
    exact .stop (by rw [hno]; rfl)
  | @goOn q q' found hgo rest ih =>
    obtain ⟨seen, waiting⟩ := q
    obtain ⟨n, waiting, rfl, ⟨hn, rfl⟩ | ⟨hn, rfl⟩⟩ := Queue.turn_eq_inl.mp hgo
    · have hne : n ≠ target := ne_of_mem_of_not_mem hn hseen
      exact .goOn ((if_neg hne).trans (if_pos hn)) (ih hseen)
    · by_cases hne : n = target
      · have hfound : target ∈ found := seen_subset_of_ends rest (by simp [hne])
        have hyes : found.contains target = true := by simpa using hfound
        exact .stop (by rw [hyes]; exact if_pos hne)
      · have hseen' : target ∉ seen ++ [n] := by simpa [Ne.symm hne] using hseen
        exact .goOn ((if_neg hne).trans (if_neg hn)) (ih hseen')

end Linkage.Search

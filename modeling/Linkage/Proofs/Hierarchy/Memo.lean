import Linkage.Proofs.Data.Sorted
import Linkage.Proofs.Hierarchy.Exploration

/-! What a builder answers when other classes were asked for before. -/
namespace Linkage.Hierarchy

open Relation (TransGen)

variable {cp : Classpath} {memo memo' : Memo}

theorem Sound.extends {d : String} {tree k : Hierarchy} (h : Sound cp memo)
    (hd : memo.lookup d = some tree) (hk : k ∈ tree.supertypes) : cp.Extends d k.name := by
  cases hclass : cp.class? d with
  | none =>
    rw [h.missing d tree hd hclass] at hk
    simp [supertypes] at hk
  | some c =>
    obtain ⟨superclass, interfaces, rfl, hsuper, hinterfaces⟩ := h.found d tree c hd hclass
    have hmem : k.name ∈ (superclass.toList ++ interfaces).map name := List.mem_map_of_mem hk
    rw [extends_of_class hclass, ClassFile.supertypes, ← hsuper, ← hinterfaces]
    rw [List.map_append] at hmem
    cases superclass <;> simpa using hmem

theorem Sound.exists_supertype {d s : String} {tree : Hierarchy} (h : Sound cp memo)
    (hd : memo.lookup d = some tree) (hs : cp.Extends d s) : ∃ k ∈ tree.supertypes, k.name = s := by
  cases hclass : cp.class? d with
  | none =>
    unfold Classpath.Extends Classpath.supertypesOf at hs
    rw [hclass] at hs
    simp at hs
  | some c =>
    obtain ⟨superclass, interfaces, rfl, hsuper, hinterfaces⟩ := h.found d tree c hd hclass
    rw [extends_of_class hclass, ClassFile.supertypes, ← hsuper, ← hinterfaces] at hs
    have hmem : s ∈ (superclass.toList ++ interfaces).map name := by
      rw [List.map_append]
      cases superclass <;> simpa using hs
    exact List.mem_map.mp hmem

/-- A declaration leads on: nothing is kept of `d`, or the kept tree of `d` is not cut at `s`. -/
def Leads (cp : Classpath) (memo : Memo) (d s : String) : Prop :=
  cp.Extends d s ∧ ∀ tree, memo.lookup d = some tree →
    ∃ k ∈ tree.supertypes, k.name = s ∧ k ≠ .cyclePoint s

/-- Missing classes in a kept tree are reached by declarations that lead on. -/
theorem Sound.leads_of_mem_above (h : Sound cp memo) {d m : String} {tree : Hierarchy}
    (hd : memo.lookup d = some tree) (hm : .unresolved m ∈ tree.above) :
    cp.class? m = none ∧ TransGen (Leads cp memo) d m := by
  induction tree using inductionOnSupertypes generalizing d with
  | step tree ih =>
    obtain ⟨k, hk, hmk⟩ := mem_above.mp hm
    rcases h.kept d tree hd k hk with ⟨hcut, -⟩ | hkept
    · rw [hcut, nodes_eq] at hmk
      simp [supertypes] at hmk
    · have hedge : Leads cp memo d k.name := by
        refine ⟨h.extends hd hk, fun t ht => ⟨k, ?_, rfl, ?_⟩⟩
        · rwa [← Option.some.inj (hd.symm.trans ht)]
        · exact fun hcut => h.noCuts _ _ (hkept.trans (congrArg some hcut))
      rcases mem_nodes.mp hmk with rfl | hmk
      · refine ⟨?_, TransGen.single hedge⟩
        cases hclass : cp.class? m with
        | none => rfl
        | some c =>
          obtain ⟨superclass, interfaces, heq, -⟩ := h.found m _ c hkept hclass
          exact absurd heq (by simp)
      · obtain ⟨hclass, hpath⟩ := ih k hk hkept hmk
        exact ⟨hclass, hpath.head hedge⟩

theorem Sound.kept_of_leads (h : Sound cp memo) {d s : String} {tree : Hierarchy}
    (hd : memo.lookup d = some tree) (hedge : Leads cp memo d s) :
    ∃ k ∈ tree.supertypes, memo.lookup s = some k := by
  obtain ⟨k, hk, rfl, hne⟩ := hedge.2 tree hd
  rcases h.kept d tree hd k hk with ⟨hcut, -⟩ | hkept
  · exact absurd hcut hne
  · exact ⟨k, hk, hkept⟩

/-- A kept tree has all missing classes that are reached by declarations that lead on. -/
theorem Sound.mem_above_of_leads (h : Sound cp memo) {d m : String} (hclass : cp.class? m = none)
    (hpath : TransGen (Leads cp memo) d m) {tree : Hierarchy} (hd : memo.lookup d = some tree) :
    .unresolved m ∈ tree.above := by
  induction hpath using TransGen.head_induction_on generalizing tree with
  | single hedge =>
    obtain ⟨k, hk, hkept⟩ := h.kept_of_leads hd hedge
    rw [mem_above, ← h.missing m k hkept hclass]
    exact ⟨k, hk, self_mem_nodes k⟩
  | head hedge _ ih =>
    obtain ⟨k, hk, hkept⟩ := h.kept_of_leads hd hedge
    exact mem_above.mpr ⟨k, hk, mem_nodes.mpr (Or.inr (ih hkept))⟩

/-- The answer of a single query is kept, and all that is kept stays sound. -/
theorem Explore.answer {name : String} {answer : Hierarchy}
    (hexplore : Explore cp [] [name] memo [answer] memo') (h : Sound cp memo) :
    Sound cp memo' ∧ memo'.lookup name = some answer := by
  obtain ⟨hsound, hnames, hanswers⟩ := hexplore.sound (by simp) h
  refine ⟨hsound, ?_⟩
  rcases hanswers answer List.mem_cons_self with ⟨-, hvisiting⟩ | hkept
  · simp at hvisiting
  · rwa [List.singleton_inj.mp hnames] at hkept

/-- From a class that is new in the answer a declaration leads to another class of the answer. -/
theorem Explore.exists_of_leads {name : String} {answer : Hierarchy}
    (hexplore : Explore cp [] [name] memo [answer] memo') (h : Sound cp memo) {d s : String}
    {tree : Hierarchy} (hd : memo'.lookup d = some tree) (htree : tree ∈ answer.nodes)
    (hnew : memo.lookup d = none) (hedge : Leads cp memo d s) :
    ∃ t, memo'.lookup s = some t ∧ t ∈ answer.nodes := by
  obtain ⟨hsound, -⟩ := hexplore.answer h
  obtain ⟨k, hk, rfl⟩ := hsound.exists_supertype hd hedge.1
  rcases hsound.kept d tree hd k hk with ⟨hcut, -⟩ | hkept
  · rw [hcut] at hk
    obtain ⟨hunknown, hvisiting | ⟨t, ht⟩⟩ := hexplore.cut h.noCuts (by simp) hd hnew hk
    · simp at hvisiting
    · obtain ⟨top, htop, hmem⟩ := hexplore.mem_nodes_of_new ht hunknown
      rw [List.mem_singleton.mp htop] at hmem
      exact ⟨t, ht, hmem⟩
  · have hnode : k ∈ tree.nodes :=
      mem_nodes.mpr (Or.inr (mem_above.mpr ⟨k, hk, self_mem_nodes k⟩))
    exact ⟨k, hkept, nodes_trans hnode htree⟩

/-- A missing class that declarations lead to from a class of the answer is in the answer. -/
theorem Explore.mem_nodes_of_leads {name : String} {answer : Hierarchy}
    (hexplore : Explore cp [] [name] memo [answer] memo') (h : Sound cp memo) {d m : String}
    (hclass : cp.class? m = none) (hpath : TransGen (Leads cp memo) d m) {tree : Hierarchy}
    (hd : memo'.lookup d = some tree) (htree : tree ∈ answer.nodes) :
    .unresolved m ∈ answer.nodes := by
  have hknown {d : String} {tree t : Hierarchy} (hd : memo'.lookup d = some tree)
      (htree : tree ∈ answer.nodes) (ht : memo.lookup d = some t)
      (hpath : TransGen (Leads cp memo) d m) : .unresolved m ∈ answer.nodes := by
    obtain rfl := Option.some.inj ((hexplore.lookup_mono ht).symm.trans hd)
    exact nodes_trans (mem_nodes.mpr (Or.inr (h.mem_above_of_leads hclass hpath ht))) htree
  induction hpath using TransGen.head_induction_on generalizing tree with
  | @single d hedge =>
    cases hbefore : memo.lookup d with
    | some t => exact hknown hd htree hbefore (TransGen.single hedge)
    | none =>
      obtain ⟨t, ht, hmem⟩ := hexplore.exists_of_leads h hd htree hbefore hedge
      rwa [(hexplore.answer h).1.missing m t ht hclass] at hmem
  | @head d s hedge hrest ih =>
    cases hbefore : memo.lookup d with
    | some t => exact hknown hd htree hbefore (hrest.head hedge)
    | none =>
      obtain ⟨t, ht, hmem⟩ := hexplore.exists_of_leads h hd htree hbefore hedge
      exact ih ht hmem

theorem Explore.leads {visiting todo : List String} {answers : List Hierarchy}
    (hexplore : Explore cp visiting todo memo answers memo') {d s : String}
    (hedge : Leads cp memo' d s) : Leads cp memo d s :=
  ⟨hedge.1, fun tree hd => hedge.2 tree (hexplore.lookup_mono hd)⟩

theorem mem_unresolvedSupertypes {m : String} {h : Hierarchy} :
    m ∈ h.unresolvedSupertypes ↔ .unresolved m ∈ h.above := by
  unfold unresolvedSupertypes
  rw [mem_sortDistinct, List.mem_filterMap]
  constructor
  · rintro ⟨n, hn, hname⟩
    split at hname
    · cases hname
      exact hn
    · cases hname
  · exact fun hm => ⟨_, hm, rfl⟩

theorem unresolvedSupertypes_eq_iff {h h' : Hierarchy} :
    h.unresolvedSupertypes = h'.unresolvedSupertypes ↔
      ∀ m, m ∈ h.unresolvedSupertypes ↔ m ∈ h'.unresolvedSupertypes := by
  unfold unresolvedSupertypes
  rw [sortDistinct_eq_iff]
  simp only [mem_sortDistinct]

/-- The missing classes above a class are those that declarations lead to, past what is kept. -/
theorem Explore.mem_unresolvedSupertypes {name : String} {answer : Hierarchy}
    (hexplore : Explore cp [] [name] memo [answer] memo') (h : Sound cp memo) {m : String} :
    m ∈ answer.unresolvedSupertypes ↔
      cp.class? m = none ∧ TransGen (Leads cp memo) name m := by
  obtain ⟨hsound, hanswer⟩ := hexplore.answer h
  rw [Hierarchy.mem_unresolvedSupertypes]
  constructor
  · intro hm
    obtain ⟨hclass, hpath⟩ := hsound.leads_of_mem_above hanswer hm
    exact ⟨hclass, hpath.lift id fun _ _ => hexplore.leads⟩
  · rintro ⟨hclass, hpath⟩
    have hnode := hexplore.mem_nodes_of_leads h hclass hpath hanswer (self_mem_nodes answer)
    rcases mem_nodes.mp hnode with hself | habove
    · obtain ⟨s, hedge, -⟩ := TransGen.head'_iff.mp hpath
      obtain ⟨k, hk, -⟩ := hsound.exists_supertype hanswer hedge.1
      rw [← hself] at hk
      simp [supertypes] at hk
    · exact habove

theorem explore_resolve (cp : Classpath) (name : String) (memo : Memo) :
    Explore cp [] [name] memo [((resolve cp name).run memo).1] ((resolve cp name).run memo).2 :=
  explore_resolveFrom List.nodup_nil (List.nil_subset _) (by simp) name memo

/-- What a new builder keeps after classes were asked for. -/
def memoAfter (cp : Classpath) (earlier : List String) : Memo :=
  ((earlier.mapM (resolve cp)).run []).2

/-- What it answers then. -/
def answerAfter (cp : Classpath) (earlier : List String) (name : String) : Hierarchy :=
  ((resolve cp name).run (memoAfter cp earlier)).1

theorem sound_memoAfter (cp : Classpath) (earlier : List String) :
    Sound cp (memoAfter cp earlier) := by
  have hexplore := explore_mapM (explore_resolve cp) earlier []
  exact (hexplore.sound (by simp) (sound_nil cp)).1

theorem mem_unresolvedSupertypes_answerAfter {earlier : List String} {name m : String} :
    m ∈ (answerAfter cp earlier name).unresolvedSupertypes ↔
      cp.class? m = none ∧ TransGen (Leads cp (memoAfter cp earlier)) name m :=
  (explore_resolve cp name _).mem_unresolvedSupertypes (sound_memoAfter cp earlier)

/-- For a new builder every declaration leads on. -/
theorem leads_nil : Leads cp [] = cp.Extends := by
  funext d s
  simp [Leads]

theorem leads_memoAfter_nil : Leads cp (memoAfter cp []) = cp.Extends := leads_nil

/-- The answer does not depend on earlier queries exactly when these have not cut the class off from
a missing class above it. -/
theorem unresolvedSupertypes_answerAfter_iff (cp : Classpath) (earlier : List String)
    (name : String) :
    (answerAfter cp earlier name).unresolvedSupertypes
        = (answerAfter cp [] name).unresolvedSupertypes ↔
      ∀ m, cp.class? m = none → TransGen cp.Extends name m →
        TransGen (Leads cp (memoAfter cp earlier)) name m := by
  rw [unresolvedSupertypes_eq_iff]
  simp only [mem_unresolvedSupertypes_answerAfter, leads_memoAfter_nil]
  constructor
  · intro h m hclass hpath
    exact ((h m).mpr ⟨hclass, hpath⟩).2
  · intro h m
    refine and_congr_right fun hclass => ⟨fun hpath => ?_, h m hclass⟩
    exact hpath.lift id fun _ _ hedge => hedge.1

/-- Two classes above each other, of which one has an interface that is missing. -/
def mutualSupers : Classpath := .models "mutual"
  [{ name := "a/A", superName := some "a/B", interfaces := ["x/M"] },
    { name := "a/B", superName := some "a/A" }]

/-- The missing interface is above both, but the second is cut off from it when the first was asked
for. -/
theorem unresolvedSupertypes_answerAfter_mutualSupers :
    (answerAfter mutualSupers ["a/A"] "a/B").unresolvedSupertypes = []
      ∧ (answerAfter mutualSupers [] "a/B").unresolvedSupertypes = ["x/M"] := by
  decide

end Linkage.Hierarchy

import Linkage.Proofs.Data.Queue
import Linkage.Proofs.Resolution.Supertypes

/-! The searches above a class compute reachability, on hierarchies with cycles and gaps as well: their
loops come to an end, and with the right answer. -/
namespace Linkage.Classpath

open Relation (ReflTransGen TransGen)
open Loop (Ends Reaches)
open Search (Queue)

variable {cp : Classpath}

/-! ## Subtypes -/

/-- The search for an ancestor: of each class that can be found all supertypes are put in the
queue. -/
def subtypeTurn (cp : Classpath) (ancestor : String) : Queue → Queue ⊕ Bool :=
  Queue.turnUntil ancestor cp.supertypesOf

theorem ends_isSubtypeOf (cp : Classpath) (name ancestor : String) :
    Ends (cp.subtypeTurn ancestor) ⟨[], [name]⟩ (cp.isSubtypeOf name ancestor) := by
  have hsearch : Ends (Queue.turn cp.supertypesOf) ⟨[], [name]⟩ _ :=
    Search.ends_turn_breadthFirst (fun _ => supertypesOf_of_not_listed)
      (Nat.lt_succ_self cp.size) [name]
  exact Search.ends_turnUntil hsearch (List.not_mem_nil)

/-! ## Interfaces -/

/-- A queue of interfaces, and the classes of those that were found. -/
structure InterfaceSearch where
  queue : Queue
  found : List ClassFile

/-- Takes an interface from the queue; one that is new and can be found is kept, and its own interfaces
wait. -/
def interfaceTurn (cp : Classpath) : InterfaceSearch → InterfaceSearch ⊕ List ClassFile
  | ⟨⟨_, []⟩, found⟩ => .inr found
  | ⟨⟨seen, n :: waiting⟩, found⟩ =>
    if n ∈ seen then .inl ⟨⟨seen, waiting⟩, found⟩
    else
      match cp.class? n with
      | none => .inl ⟨⟨seen ++ [n], waiting⟩, found⟩
      | some i => .inl ⟨⟨seen ++ [n], waiting ++ i.interfaces⟩, found ++ [i]⟩

/-- What was found is what can be found of the names that were seen. -/
def InterfaceSearch.ofQueue (cp : Classpath) (q : Queue) : InterfaceSearch :=
  ⟨q, q.seen.filterMap cp.class?⟩

theorem interfaceTurn_ofQueue (cp : Classpath) (q : Queue) :
    cp.interfaceTurn (.ofQueue cp q)
      = (q.turn cp.interfacesOf).map (.ofQueue cp) (·.filterMap cp.class?) := by
  obtain ⟨seen, _ | ⟨n, waiting⟩⟩ := q
  · rfl
  · by_cases hn : n ∈ seen
    · simp [InterfaceSearch.ofQueue, interfaceTurn, Queue.turn, hn]
    · cases hclass : cp.class? n <;>
        simp [InterfaceSearch.ofQueue, interfaceTurn, Queue.turn, hn, hclass, interfacesOf]

theorem ends_superinterfaces (cp : Classpath) (classes : List ClassFile) :
    Ends cp.interfaceTurn ⟨⟨[], classes.flatMap (·.interfaces)⟩, []⟩
      (cp.superinterfaces classes) := by
  have hsearch : Ends (Queue.turn cp.interfacesOf) ⟨[], classes.flatMap (·.interfaces)⟩ _ :=
    Search.ends_turn_breadthFirst (fun _ => interfacesOf_of_not_listed)
      (Nat.lt_succ_self cp.size) (classes.flatMap (·.interfaces))
  have hmapped := hsearch.map cp.interfaceTurn_ofQueue
  exact hmapped

/-! ## Superclasses -/

/-- A chain of superclasses as it grows: the names that were seen, the superclass that comes next, and
the classes so far. -/
structure Climb where
  seen : List String
  next : Option String
  chain : List ClassFile

/-- Goes up to the next superclass, unless there is none, it was seen or it cannot be found. -/
def climbTurn (cp : Classpath) : Climb → Climb ⊕ List ClassFile
  | ⟨_, none, chain⟩ => .inr chain
  | ⟨seen, some name, chain⟩ =>
    if name ∈ seen then .inr chain
    else
      match cp.class? name with
      | none => .inr chain
      | some c => .inl ⟨name :: seen, c.superName, chain ++ [c]⟩

/-- `chain` goes up from `c`: each class is what the superclass of the one before it is found to be, no
name comes twice, and above the last class there is no superclass, one that was seen, or one that cannot
be found. -/
structure ClimbsFrom (cp : Classpath) (c : ClassFile) (chain : List ClassFile) : Prop where
  head : chain.head? = some c
  nodup : (chain.map (·.name)).Nodup
  linked : chain.IsChain fun d e => d.superName.bind cp.class? = some e
  stops : ∀ d ∈ chain.getLast?, ∀ s ∈ d.superName,
    s ∈ chain.map (·.name) ∨ cp.class? s = none

/-- What each step up keeps. -/
structure Climb.Climbing (cp : Classpath) (c : ClassFile) (s : Climb) : Prop where
  head : s.chain.head? = some c
  nodup : (s.chain.map (·.name)).Nodup
  linked : s.chain.IsChain fun d e => d.superName.bind cp.class? = some e
  seen : ∀ n, n ∈ s.seen ↔ n ∈ s.chain.map (·.name)
  next : ∀ d ∈ s.chain.getLast?, d.superName = s.next

theorem climbTurn_eq_inl {s s' : Climb} : cp.climbTurn s = .inl s' ↔
    ∃ name c, s.next = some name ∧ name ∉ s.seen ∧ cp.class? name = some c
      ∧ s' = ⟨name :: s.seen, c.superName, s.chain ++ [c]⟩ := by
  obtain ⟨seen, _ | name, chain⟩ := s
  · simp [climbTurn]
  · by_cases hname : name ∈ seen
    · simp [climbTurn, hname]
    · cases hclass : cp.class? name <;> simp [climbTurn, hname, hclass, eq_comm]

theorem climbTurn_eq_inr {s : Climb} {chain : List ClassFile} : cp.climbTurn s = .inr chain ↔
    s.chain = chain ∧ ∀ name ∈ s.next, name ∈ s.seen ∨ cp.class? name = none := by
  obtain ⟨seen, _ | name, chain⟩ := s
  · simp [climbTurn]
  · by_cases hname : name ∈ seen
    · simp [climbTurn, hname]
    · cases hclass : cp.class? name <;> simp [climbTurn, hname, hclass]

theorem Climb.Climbing.turn {c : ClassFile} {s s' : Climb} (h : s.Climbing cp c)
    (hturn : cp.climbTurn s = .inl s') : s'.Climbing cp c := by
  obtain ⟨name, d, hnext, hname, hclass, rfl⟩ := climbTurn_eq_inl.mp hturn
  obtain rfl := name_of_class? hclass
  refine ⟨?_, ?_, ?_, fun n => ?_, ?_⟩
  · rw [List.head?_append, h.head]
    rfl
  · rw [List.map_append]
    exact h.nodup.append (List.nodup_singleton d.name)
      (List.disjoint_singleton.mpr fun hmem => hname ((h.seen d.name).mpr hmem))
  · refine h.linked.append (List.isChain_singleton d) fun e he d' hd' => ?_
    obtain rfl : d = d' := by simpa using hd'
    rw [h.next e he, hnext]
    exact hclass
  · simp [h.seen n, or_comm]
  · simp

theorem climbing_start (cp : Classpath) (c : ClassFile) :
    Climb.Climbing cp c ⟨[c.name], c.superName, [c]⟩ where
  head := rfl
  nodup := List.nodup_singleton c.name
  linked := List.isChain_singleton c
  seen := by simp
  next := by simp

theorem climbsFrom_of_ends {c : ClassFile} {chain : List ClassFile}
    (h : Ends cp.climbTurn ⟨[c.name], c.superName, [c]⟩ chain) : cp.ClimbsFrom c chain := by
  obtain ⟨last, hreach, hstop⟩ := h.exists_last
  obtain ⟨hhead, hnodup, hlinked, hseen, hnext⟩ :=
    hreach.invariant (fun _ _ hs hturn => Climb.Climbing.turn hs hturn) (climbing_start cp c)
  obtain ⟨rfl, hstops⟩ := climbTurn_eq_inr.mp hstop
  refine ⟨hhead, hnodup, hlinked, fun d hd s hs => ?_⟩
  rw [← hseen]
  exact hstops s (hnext d hd ▸ hs)

/-- The classes that were not seen bound the steps up. -/
theorem ends_superclassesFrom {depth : Nat} {seen : List String}
    (hdepth : (Search.unseen cp.listedNames seen).card ≤ depth) (next : Option String)
    (chain : List ClassFile) :
    Ends cp.climbTurn ⟨seen, next, chain⟩ (chain ++ cp.superclassesFrom depth seen next) := by
  induction depth generalizing seen next chain with
  | zero =>
    have hall : ∀ name ∈ cp.listedNames, name ∈ seen := by
      simpa [Search.unseen, Finset.sdiff_eq_empty_iff_subset, Finset.subset_iff] using hdepth
    refine .stop (climbTurn_eq_inr.mpr ⟨by simp [superclassesFrom], fun name _ => ?_⟩)
    by_cases hname : name ∈ seen
    · exact Or.inl hname
    · exact Or.inr (class?_of_not_listed fun hlisted => hname (hall name hlisted))
  | succ depth ih =>
    cases next with
    | none => exact .stop (climbTurn_eq_inr.mpr (by simp [superclassesFrom]))
    | some name =>
      by_cases hname : name ∈ seen
      · exact .stop (climbTurn_eq_inr.mpr (by simp [superclassesFrom, hname]))
      · cases hclass : cp.class? name with
        | none => exact .stop (climbTurn_eq_inr.mpr (by simp [superclassesFrom, hname, hclass]))
        | some c =>
          have hlt := Search.card_unseen_lt (List.subset_cons_self name seen)
            (mem_listedNames_of_class? hclass) hname List.mem_cons_self
          have hrest := ih (Nat.le_of_lt_succ (hlt.trans_le hdepth)) c.superName (chain ++ [c])
          rw [List.append_assoc] at hrest
          refine .goOn (climbTurn_eq_inl.mpr ⟨name, c, rfl, hname, hclass, rfl⟩) ?_
          simpa [superclassesFrom, hname, hclass] using hrest

theorem ends_superclassChain (cp : Classpath) (c : ClassFile) :
    Ends cp.climbTurn ⟨[c.name], c.superName, [c]⟩ (cp.superclassChain c) := by
  refine ends_superclassesFrom ?_ c.superName [c]
  calc (Search.unseen cp.listedNames [c.name]).card
      ≤ cp.listedNames.toFinset.card := Finset.card_le_card Finset.sdiff_subset
    _ ≤ cp.size := cp.listedNames.toFinset_card_le

/-! ## Reachability -/

/-- On every classpath, with cycles and missing classes or without: a class is found to be below
another exactly if that is itself or can be reached through declared supertypes, which is reflexive and
transitive; the interfaces found above classes are, each once, exactly those that can be found and
reached by one declaration or more; and the superclasses found above a class are those that one comes to
by going up, as far as that leads. Each loop ends with this answer. -/
theorem searches_compute_reachability (cp : Classpath) :
    (∀ name ancestor,
      Ends (cp.subtypeTurn ancestor) ⟨[], [name]⟩ (cp.isSubtypeOf name ancestor)
        ∧ (cp.isSubtypeOf name ancestor = true
            ↔ ancestor = name ∨ TransGen cp.Extends name ancestor))
      ∧ IsPreorder String (fun name ancestor => cp.isSubtypeOf name ancestor = true)
      ∧ (∀ classes : List ClassFile,
        Ends cp.interfaceTurn ⟨⟨[], classes.flatMap (·.interfaces)⟩, []⟩
            (cp.superinterfaces classes)
          ∧ ((cp.superinterfaces classes).map (·.name)).Nodup
          ∧ ∀ i, i ∈ cp.superinterfaces classes ↔ cp.class? i.name = some i
            ∧ ∃ c ∈ classes, ∃ d ∈ c.interfaces, ReflTransGen cp.ExtendsInterface d i.name)
      ∧ ∀ c : ClassFile,
        Ends cp.climbTurn ⟨[c.name], c.superName, [c]⟩ (cp.superclassChain c)
          ∧ cp.ClimbsFrom c (cp.superclassChain c) := by
  have hrefl : ∀ name, cp.isSubtypeOf name name = true := fun name => isSubtypeOf_iff.mpr .refl
  have htrans : ∀ a b c, cp.isSubtypeOf a b = true → cp.isSubtypeOf b c = true →
      cp.isSubtypeOf a c = true := fun a b c hab hbc =>
    isSubtypeOf_iff.mpr ((isSubtypeOf_iff.mp hab).trans (isSubtypeOf_iff.mp hbc))
  refine ⟨fun name ancestor => ⟨cp.ends_isSubtypeOf name ancestor, ?_⟩,
    { refl := hrefl, trans := htrans }, fun classes => ⟨cp.ends_superinterfaces classes, ?_, ?_⟩,
    fun c => ⟨cp.ends_superclassChain c, ?_⟩⟩
  · rw [isSubtypeOf_iff, Relation.reflTransGen_iff_eq_or_transGen]
  · exact nodup_superinterfaces classes
  · exact fun i => mem_superinterfaces
  · exact climbsFrom_of_ends (cp.ends_superclassChain c)

/-- Two classes each of which extends the other, and two such interfaces, one of which extends an
interface that is missing. -/
def tangled : Classpath :=
  .models "tangled"
    [{ name := "a/A", superName := "a/B" }, { name := "a/B", superName := "a/A", interfaces := ["a/I"] },
      { name := "a/I", superName := none, interfaces := ["a/J", "x/M"] },
      { name := "a/J", superName := none, interfaces := ["a/I"] }]

example : (tangled.class? "a/A").map (fun c => (tangled.superclassChain c).map (·.name))
      = some ["a/A", "a/B"]
    ∧ (tangled.class? "a/B").map (fun c => (tangled.superinterfaces [c]).map (·.name))
      = some ["a/I", "a/J"]
    ∧ tangled.isSubtypeOf "a/A" "x/M" = true ∧ tangled.isSubtypeOf "a/J" "a/A" = false := by
  decide +kernel

end Linkage.Classpath

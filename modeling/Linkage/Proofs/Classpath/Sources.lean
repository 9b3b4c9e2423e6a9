import Linkage.Proofs.Classpath.Lookup
import Linkage.Proofs.Data.Latest
import Linkage.Proofs.Data.Sorted

/-! Sources of classes that remember what they decoded. What they answer is what the classpath says
that they make up, whatever they were asked before; and however unions are nested, the first of their
leaves that has a name tells what it means. -/
namespace Linkage

namespace Classpath

variable {label name : String} {answer : Lookup}

/-- A search from behind answers with what counts under the name, if that is an answer at all. -/
theorem answer_iff_latestOf {α : Type} {key : α → String} {as : List α} {f : α → Lookup}
    (hf : ∀ a, f a ≠ .notFound) :
    ((as.reverse.find? (key · == name)).map f).getD .notFound = answer ∧ answer ≠ .notFound
      ↔ ∃ a, LatestOf key as a ∧ key a = name ∧ f a = answer := by
  cases hfind : as.reverse.find? (key · == name) with
  | none =>
    refine iff_of_false (fun h => h.2 h.1.symm) ?_
    rintro ⟨a, hlatest, hname, -⟩
    rw [find?_reverse_eq_some_iff.mpr ⟨hlatest, hname⟩] at hfind
    cases hfind
  | some a =>
    constructor
    · rintro ⟨rfl, -⟩
      obtain ⟨hlatest, hname⟩ := find?_reverse_eq_some_iff.mp hfind
      exact ⟨a, hlatest, hname, rfl⟩
    · rintro ⟨b, hlatest, hname, rfl⟩
      rw [find?_reverse_eq_some_iff.mpr ⟨hlatest, hname⟩] at hfind
      cases hfind
      exact ⟨rfl, hf _⟩

/-- Of classes with one name the last one is found. -/
theorem lookup_models_iff {classes : List ClassFile} :
    (models label classes).lookup name = answer ∧ answer ≠ .notFound
      ↔ ∃ c, LatestOf ClassFile.name classes c ∧ c.name = name ∧ .found c = answer := by
  have hlookup : (models label classes).lookup name
      = ((classes.reverse.find? (·.name == name)).map .found).getD .notFound := by
    rw [lookup]
    cases classes.reverse.find? (·.name == name) <;> rfl
  rw [hlookup]
  apply answer_iff_latestOf
  simp

/-- Of class files with one name the last one is decoded. -/
theorem lookup_files_iff {entries : List (String × List UInt8)} :
    (files label entries).lookup name = answer ∧ answer ≠ .notFound
      ↔ ∃ bytes, LatestOf Prod.fst entries (name, bytes) ∧ decodeNamed name bytes = answer := by
  have hlookup : (files label entries).lookup name
      = ((entries.reverse.find? (·.1 == name)).map fun e => decodeNamed name e.2).getD
        .notFound := by
    rw [lookup]
    cases entries.reverse.find? (·.1 == name) <;> rfl
  have hfound (e : String × List UInt8) : decodeNamed name e.2 ≠ .notFound :=
    decodeNamed_ne_notFound name e.2
  rw [hlookup]
  refine (answer_iff_latestOf hfound).trans ?_
  constructor
  · rintro ⟨⟨_, bytes⟩, hlatest, rfl, hanswer⟩
    exact ⟨bytes, hlatest, hanswer⟩
  · rintro ⟨bytes, hlatest, hanswer⟩
    exact ⟨(name, bytes), hlatest, rfl, hanswer⟩

end Classpath

/-- Class files that are decoded when they are asked for. -/
structure ClassStore where
  label : String
  entries : List (String × List UInt8)

namespace ClassStore

def classpath (s : ClassStore) : Classpath := .files s.label s.entries

/-- What a store has decoded, by the names of the classes. -/
abbrev Memory := List (String × Lookup)

/-- A store decodes a class file when it is asked for it for the first time. -/
def ask (s : ClassStore) (name : String) : StateM Memory Lookup := do
  match s.entries.reverse.find? (·.1 == name) with
  | none => return .notFound
  | some (_, bytes) =>
    if let some known := (← get).lookup name then return known
    let answer := decodeNamed name bytes
    modify ((name, answer) :: ·)
    return answer

/-- What is remembered is what the class files say. -/
def Recalls (s : ClassStore) (memory : Memory) : Prop :=
  ∀ name answer, memory.lookup name = some answer → s.classpath.lookup name = answer

variable {s : ClassStore} {name : String} {memory : Memory}

theorem ask_of_missing (h : s.entries.reverse.find? (·.1 == name) = none) :
    s.ask name = pure .notFound := by
  unfold ask
  rw [h]

theorem Recalls.ask (h : s.Recalls memory) (name : String) :
    ((s.ask name).run memory).1 = s.classpath.lookup name
      ∧ s.Recalls ((s.ask name).run memory).2 := by
  cases hfind : s.entries.reverse.find? (·.1 == name) with
  | none =>
    have hmissing : s.classpath.lookup name = .notFound := by
      rw [classpath, Classpath.lookup, hfind]
    rw [ask_of_missing hfind, hmissing]
    exact ⟨rfl, h⟩
  | some entry =>
    have hlookup : s.classpath.lookup name = decodeNamed name entry.2 := by
      rw [classpath, Classpath.lookup, hfind]
    cases hknown : memory.lookup name with
    | some answer =>
      have hrun : (s.ask name).run memory = (answer, memory) := by
        unfold ClassStore.ask
        simp only [hfind, StateT.run_bind, StateT.run_get, pure_bind, hknown]
        rfl
      rw [hrun]
      exact ⟨(h name answer hknown).symm, h⟩
    | none =>
      have hrun : (s.ask name).run memory
          = (decodeNamed name entry.2, (name, decodeNamed name entry.2) :: memory) := by
        unfold ClassStore.ask
        simp only [hfind, StateT.run_bind, StateT.run_get, pure_bind, hknown]
        rfl
      rw [hrun, hlookup]
      refine ⟨rfl, fun n answer hn => ?_⟩
      by_cases hname : n = name
      · subst hname
        rw [List.lookup_cons_self, Option.some_inj] at hn
        rw [hlookup, hn]
      · have hother : (n == name) = false := by simpa using hname
        rw [List.lookup_cons, hother] at hn
        exact h n answer hn

end ClassStore

/-- A source of classes as it is held. Stores are known by their numbers, so that unions can share
them. -/
inductive Source where
  | empty
  | models (label : String) (classes : List ClassFile)
  | store (number : Nat)
  | union (members : List Source)

namespace Source

theorem inductionOnMembers {motive : Source → Prop} (empty : motive .empty)
    (models : ∀ label classes, motive (.models label classes))
    (store : ∀ number, motive (.store number))
    (union : ∀ members, (∀ m ∈ members, motive m) → motive (.union members)) (s : Source) :
    motive s :=
  match s with
  | .empty => empty
  | .models label classes => models label classes
  | .store number => store number
  | .union members => union members fun m _ => inductionOnMembers empty models store union m

mutual
/-- The sources that unions, however they are nested, are made of. -/
def leaves : Source → List Source
  | .empty => [.empty]
  | .models label classes => [.models label classes]
  | .store number => [.store number]
  | .union members => allLeaves members

private def allLeaves : List Source → List Source
  | [] => []
  | m :: ms => m.leaves ++ allLeaves ms
end

theorem leaves_union (members : List Source) : (union members).leaves = members.flatMap leaves := by
  have hall (ms : List Source) : allLeaves ms = ms.flatMap leaves := by
    induction ms with
    | nil => simp [allLeaves]
    | cons m ms ih => simp [allLeaves, ih]
  rw [leaves, hall]

variable (stores : Nat → ClassStore)

mutual
/-- The classpath that a source makes up. -/
def classpath : Source → Classpath
  | .empty => .empty
  | .models label classes => .models label classes
  | .store number => (stores number).classpath
  | .union members => .union (allClasspaths members)

private def allClasspaths : List Source → List Classpath
  | [] => []
  | m :: ms => m.classpath :: allClasspaths ms
end

theorem classpath_union (members : List Source) :
    (union members).classpath stores = .union (members.map (·.classpath stores)) := by
  have hall (ms : List Source) : allClasspaths stores ms = ms.map (·.classpath stores) := by
    induction ms with
    | nil => simp [allClasspaths]
    | cons m ms ih => simp [allClasspaths, ih]
  rw [classpath, hall]

/-- Whether a source has a name; nothing is decoded for that. -/
def contains (name : String) (s : Source) : Bool := (s.classpath stores).contains name

/-- The names that a source has; nothing is decoded for that either. -/
def classNames (s : Source) : List String := (s.classpath stores).classNames

/-- What all stores have decoded. -/
abbrev Memory := Nat → ClassStore.Memory

mutual
/-- Asks for a class. A union passes the question on to the first member that has the name. -/
def lookup (name : String) : Source → StateM Memory Lookup
  | .empty => return .notFound
  | .models label classes => return (Classpath.models label classes).lookup name
  | .store number => do
    let (answer, memory) := ((stores number).ask name).run ((← get) number)
    modify (Function.update · number memory)
    return answer
  | .union members => firstLookup name members

private def firstLookup (name : String) : List Source → StateM Memory Lookup
  | [] => return .notFound
  | m :: ms => if m.contains stores name then m.lookup name else firstLookup name ms
end

theorem lookup_union (name : String) (members : List Source) :
    (union members).lookup stores name
      = ((members.find? (·.contains stores name)).map (·.lookup stores name)).getD
        (pure .notFound) := by
  have hfirst (ms : List Source) : firstLookup stores name ms
      = ((ms.find? (·.contains stores name)).map (·.lookup stores name)).getD
        (pure .notFound) := by
    induction ms with
    | nil => simp [firstLookup]
    | cons m ms ih =>
      rw [firstLookup, List.find?_cons]
      cases m.contains stores name <;> simp [ih]
  rw [lookup, hfirst]

variable {stores} {memory : Memory} {name : String}

theorem run_lookup_store (number : Nat) :
    ((store number).lookup stores name).run memory
      = ((((stores number).ask name).run (memory number)).1,
        Function.update memory number (((stores number).ask name).run (memory number)).2) := by
  rw [lookup]
  rfl

theorem contains_union (members : List Source) :
    (union members).contains stores name = members.any (·.contains stores name) := by
  unfold contains
  rw [classpath_union, Classpath.contains_union, List.any_map]
  rfl

variable (stores) in
/-- All stores remember what their class files say. -/
def Faithful (memory : Memory) : Prop := ∀ number, (stores number).Recalls (memory number)

/-- A faithful memory does not matter to the answer, and stays faithful. -/
theorem Faithful.lookup (h : Faithful stores memory) (name : String) (s : Source) :
    ((s.lookup stores name).run memory).1 = (s.classpath stores).lookup name
      ∧ Faithful stores ((s.lookup stores name).run memory).2 := by
  induction s using inductionOnMembers with
  | empty =>
    rw [Source.lookup, classpath, Classpath.lookup]
    exact ⟨rfl, h⟩
  | models label classes =>
    rw [Source.lookup, classpath]
    exact ⟨rfl, h⟩
  | store number =>
    obtain ⟨hanswer, hrecalls⟩ := (h number).ask name
    rw [run_lookup_store, classpath]
    refine ⟨hanswer, fun k => ?_⟩
    dsimp only
    by_cases hk : k = number
    · subst hk
      rw [Function.update_self]
      exact hrecalls
    · rw [Function.update_of_ne hk]
      exact h k
  | union members ih =>
    rw [lookup_union, classpath_union, Classpath.lookup_union, List.find?_map]
    change _ = (((members.find? (·.contains stores name)).map (·.classpath stores)).map
      (·.lookup name)).getD .notFound ∧ _
    cases hfind : members.find? (·.contains stores name) with
    | none => exact ⟨rfl, h⟩
    | some m => exact ih m (List.mem_of_find?_eq_some hfind)

variable (stores) in
/-- What the stores remember after some questions to sources that are made of them. -/
def memoryAfter (earlier : List (Source × String)) : Memory :=
  earlier.foldl (fun memory (s, name) => ((s.lookup stores name).run memory).2) fun _ => []

theorem faithful_memoryAfter (earlier : List (Source × String)) :
    Faithful stores (memoryAfter stores earlier) := by
  induction earlier using List.reverseRecOn with
  | nil => exact fun _ _ _ h => absurd h (by simp [memoryAfter])
  | append_singleton earlier question ih =>
    unfold memoryAfter
    rw [List.foldl_concat]
    exact (ih.lookup question.2 question.1).2

/-- Who does not have a name is not asked for it. -/
theorem lookup_of_not_contains {s : Source} (h : s.contains stores name = false) :
    s.lookup stores name = pure .notFound := by
  cases s with
  | empty => rw [lookup]
  | models label classes =>
    have hmissing : (Classpath.models label classes).lookup name = .notFound := by
      apply Classpath.lookup_of_not_contains
      simpa [contains, classpath] using h
    rw [lookup, hmissing]
  | store number =>
    have hmissing : (stores number).entries.reverse.find? (·.1 == name) = none := by
      simpa [contains, classpath, ClassStore.classpath, Classpath.contains] using h
    funext memory
    change ((store number).lookup stores name).run memory = _
    rw [run_lookup_store, ClassStore.ask_of_missing hmissing]
    change (Lookup.notFound, Function.update memory number (memory number)) = _
    rw [Function.update_eq_self]
    rfl
  | union members =>
    have hmissing : members.find? (·.contains stores name) = none := by
      rw [contains_union] at h
      simpa using h
    rw [lookup_union, hmissing]
    rfl

theorem listedNames_leaves (s : Source) :
    s.leaves.flatMap (fun l => (l.classpath stores).listedNames)
      = (s.classpath stores).listedNames := by
  induction s using inductionOnMembers with
  | empty => simp [leaves]
  | models label classes => simp [leaves]
  | store number => simp [leaves]
  | union members ih =>
    rw [leaves_union, classpath_union, Classpath.listedNames_union, List.flatMap_assoc,
      List.flatMap_map]
    exact List.flatMap_congr ih

/-- A union has what its leaves have. -/
theorem contains_leaves (s : Source) :
    s.leaves.any (·.contains stores name) = s.contains stores name := by
  rw [Bool.eq_iff_iff, List.any_eq_true]
  unfold contains
  simp only [Classpath.contains_iff, ← listedNames_leaves s, List.mem_flatMap]

theorem lookup_union_cons (m : Source) (ms : List Source) :
    (union (m :: ms)).lookup stores name
      = if m.contains stores name then m.lookup stores name
        else (union ms).lookup stores name := by
  rw [lookup_union, lookup_union, List.find?_cons]
  cases m.contains stores name <;> rfl

theorem lookup_union_append (ms ns : List Source) :
    (union (ms ++ ns)).lookup stores name
      = if ms.any (·.contains stores name) then (union ms).lookup stores name
        else (union ns).lookup stores name := by
  induction ms with
  | nil => rfl
  | cons m ms ih =>
    rw [List.cons_append, lookup_union_cons, ih, lookup_union_cons, List.any_cons]
    cases m.contains stores name <;> simp

theorem lookup_union_singleton (s : Source) :
    (union [s]).lookup stores name = s.lookup stores name := by
  rw [lookup_union_cons]
  split
  · rfl
  · next hnot =>
    rw [lookup_of_not_contains (Bool.eq_false_of_not_eq_true hnot), lookup_union]
    rfl

/-- Unions can be nested in any way: to the same question they ask the same leaf. -/
theorem lookup_leaves (s : Source) :
    (union s.leaves).lookup stores name = s.lookup stores name := by
  induction s using inductionOnMembers with
  | empty => exact lookup_union_singleton _
  | models label classes => exact lookup_union_singleton _
  | store number => exact lookup_union_singleton _
  | union members ih =>
    rw [leaves_union]
    induction members with
    | nil => rfl
    | cons m ms ihms =>
      have hm := ih m List.mem_cons_self
      have hms := ihms fun m' hm' => ih m' (List.mem_cons_of_mem m hm')
      rw [List.flatMap_cons, lookup_union_append, contains_leaves, hm, hms, lookup_union_cons]

variable (stores) in
/-- What a leaf says of a name that it has. Of classes, or class files, of one name the last that was
put in counts. -/
inductive Says : Source → String → Lookup → Prop
  | model {label : String} {classes : List ClassFile} {c : ClassFile}
      (h : LatestOf ClassFile.name classes c) : Says (.models label classes) c.name (.found c)
  | file {number : Nat} {name : String} {bytes : List UInt8}
      (h : LatestOf Prod.fst (stores number).entries (name, bytes)) :
      Says (.store number) name (decodeNamed name bytes)

variable (stores) in
/-- The first leaf that has the name says this. -/
def Decides (s : Source) (name : String) (answer : Lookup) : Prop :=
  ∃ front leaf back, s.leaves = front ++ leaf :: back
    ∧ (∀ l ∈ front, ∀ a, ¬ Says stores l name a) ∧ Says stores leaf name answer

theorem not_union_of_mem_leaves {s l : Source} (h : l ∈ s.leaves) (members : List Source) :
    l ≠ .union members := by
  induction s using inductionOnMembers with
  | empty => simp_all [leaves]
  | models label classes => simp_all [leaves]
  | store number => simp_all [leaves]
  | union ms ih =>
    rw [leaves_union, List.mem_flatMap] at h
    obtain ⟨m, hm, hl⟩ := h
    exact ih m hm hl

theorem says_iff {l : Source} (hleaf : ∀ members, l ≠ .union members) {answer : Lookup} :
    Says stores l name answer
      ↔ (l.classpath stores).lookup name = answer ∧ answer ≠ .notFound := by
  cases l with
  | empty =>
    rw [classpath, Classpath.lookup]
    refine iff_of_false ?_ fun h => h.2 h.1.symm
    intro hsays
    cases hsays
  | models label classes =>
    rw [classpath, Classpath.lookup_models_iff]
    constructor
    · rintro ⟨h⟩
      exact ⟨_, h, rfl, rfl⟩
    · rintro ⟨c, h, rfl, rfl⟩
      exact .model h
  | store number =>
    rw [classpath, ClassStore.classpath, Classpath.lookup_files_iff]
    constructor
    · rintro (_ | h)
      exact ⟨_, h, rfl⟩
    · rintro ⟨bytes, h, rfl⟩
      exact .file h
  | union members => exact absurd rfl (hleaf members)

theorem lookup_eq_notFound_iff {s : Source} :
    (s.classpath stores).lookup name = .notFound ↔ s.contains stores name = false :=
  Classpath.lookup_eq_notFound_iff

/-- The classpath of a source says what the first of its leaves says that has the name. -/
theorem lookup_classpath (s : Source) (name : String) :
    (s.classpath stores).lookup name
      = ((s.leaves.find? (·.contains stores name)).map
        fun l => (l.classpath stores).lookup name).getD .notFound := by
  have hfaithful : Faithful stores (memoryAfter stores []) := faithful_memoryAfter []
  have hflat := (hfaithful.lookup name (union s.leaves)).1
  rw [lookup_leaves, (hfaithful.lookup name s).1, classpath_union, Classpath.lookup_union,
    List.find?_map, Option.map_map] at hflat
  exact hflat

/-- A leaf that does not have a name says nothing of it. -/
theorem not_says_iff {l : Source} (hleaf : ∀ members, l ≠ .union members) :
    (∀ answer, ¬ Says stores l name answer) ↔ l.contains stores name = false := by
  rw [← lookup_eq_notFound_iff]
  simp only [says_iff hleaf]
  constructor
  · intro h
    by_contra hfound
    exact h _ ⟨rfl, hfound⟩
  · rintro h answer ⟨rfl, hfound⟩
    exact hfound h

theorem decides_iff {s : Source} {answer : Lookup} :
    Decides stores s name answer ↔ ∃ leaf, s.leaves.find? (·.contains stores name) = some leaf
      ∧ (leaf.classpath stores).lookup name = answer := by
  have hleaf : ∀ l ∈ s.leaves, ∀ members, l ≠ .union members :=
    fun _ hl => not_union_of_mem_leaves hl
  simp only [List.find?_eq_some_iff_append]
  constructor
  · rintro ⟨front, leaf, back, hleaves, hfront, hsays⟩
    rw [hleaves] at hleaf
    obtain ⟨hanswer, hfound⟩ := (says_iff (hleaf leaf (by simp))).mp hsays
    have hcontains : leaf.contains stores name = true := by
      by_contra hnot
      rw [← hanswer] at hfound
      exact hfound (lookup_eq_notFound_iff.mpr (Bool.eq_false_of_not_eq_true hnot))
    refine ⟨leaf, ⟨hcontains, front, back, hleaves, fun l hl => ?_⟩, hanswer⟩
    rw [(not_says_iff (hleaf l (by simp [hl]))).mp (hfront l hl)]
    rfl
  · rintro ⟨leaf, ⟨hcontains, front, back, hleaves, hfront⟩, hanswer⟩
    rw [hleaves] at hleaf
    refine ⟨front, leaf, back, hleaves, fun l hl => ?_, ?_⟩
    · rw [not_says_iff (hleaf l (by simp [hl]))]
      simpa using hfront l hl
    · refine (says_iff (hleaf leaf (by simp))).mpr ⟨hanswer, fun hmissing => ?_⟩
      rw [hmissing, lookup_eq_notFound_iff, hcontains] at hanswer
      cases hanswer

/-- What a source has is what its first leaf that has the name says. -/
theorem lookup_eq_iff_decides {s : Source} {answer : Lookup} (h : answer ≠ .notFound) :
    (s.classpath stores).lookup name = answer ↔ Decides stores s name answer := by
  rw [decides_iff, lookup_classpath]
  cases s.leaves.find? (·.contains stores name) with
  | none => simpa using h.symm
  | some leaf => simp

variable (stores)

/-- Sources of classes are coherent, whatever any of them was asked before, in whatever order. A name
is there if, and only if, something is found, and these are the names that are listed, in ascending
order. What is found has the name that it is found under. The classpath that the source makes up
gives the same answer, and so does the flat union of its leaves, which goes on from the same memory to
the same one: the first leaf that has a name decides, also with a class file that is not sound. -/
theorem sources_coherent (earlier : List (Source × String)) (s : Source) (name : String) :
    let memory := memoryAfter stores earlier
    let answer := ((s.lookup stores name).run memory).1
    (s.contains stores name = true ↔ answer ≠ .notFound)
      ∧ (answer ≠ .notFound ↔ name ∈ s.classNames stores)
      ∧ (s.classNames stores).Pairwise (· < ·)
      ∧ (∀ c, answer = .found c → c.name = name)
      ∧ (∀ a, a ≠ .notFound → (answer = a ↔ Decides stores s name a))
      ∧ answer = (s.classpath stores).lookup name
      ∧ ((union s.leaves).lookup stores name).run memory = (s.lookup stores name).run memory
      ∧ (union s.leaves).contains stores name = s.contains stores name
      ∧ (union s.leaves).classNames stores = s.classNames stores := by
  intro memory answer
  have hanswer : answer = (s.classpath stores).lookup name :=
    ((faithful_memoryAfter earlier).lookup name s).1
  have hpresent : s.contains stores name = true ↔ answer ≠ .notFound := by
    rw [hanswer, ne_eq, lookup_eq_notFound_iff, Bool.not_eq_false]
  refine ⟨hpresent, ?_, pairwise_sortDistinct _, ?_, ?_, hanswer, ?_, ?_, ?_⟩
  · rw [← hpresent, contains, Classpath.contains_iff]
    exact mem_sortDistinct.symm
  · intro c hc
    rw [hanswer] at hc
    exact Classpath.name_of_lookup hc
  · intro a ha
    rw [hanswer]
    exact lookup_eq_iff_decides ha
  · rw [lookup_leaves]
  · rw [contains_union, contains_leaves]
  · unfold classNames Classpath.classNames
    rw [classpath_union, Classpath.listedNames_union, List.flatMap_map, listedNames_leaves]

/-- A class file that is not sound, deep in a union, in front of a class of the same name. -/
theorem sources_coherent_unsound :
    let stores : Nat → ClassStore := fun _ => ⟨"unsound", [("a/A", [])]⟩
    let s := union [union [store 0], models "sound" [{ name := "a/A", superName := none }]]
    let answer := ((s.lookup stores "a/A").run (memoryAfter stores [(store 0, "a/A")])).1
    s.contains stores "a/A" = true ∧ answer ≠ .notFound ∧ answer.class? = none
      ∧ Decides stores s "a/A" answer := by
  intro stores s answer
  obtain ⟨hpresent, -, -, -, hdecides, -⟩ := sources_coherent stores [(store 0, "a/A")] s "a/A"
  have hcontains : s.contains stores "a/A" = true := by decide +kernel
  have hunsound : answer.class? = none := by decide +kernel
  have hanswer : answer ≠ .notFound := hpresent.mp hcontains
  exact ⟨hcontains, hanswer, hunsound, (hdecides answer hanswer).mp rfl⟩

end Source
end Linkage

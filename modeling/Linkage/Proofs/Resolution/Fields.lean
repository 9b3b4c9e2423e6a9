import Linkage.Proofs.Resolution.Supertypes

/-! A field is found exactly when a class that is looked into declares it, cycles or not. -/
namespace Linkage.Classpath

open Relation (ReflTransGen)

/-- A search for a field, with the names of the classes that were looked into. -/
abbrev FieldSearch := OptionT (StateM (List String)) (ClassFile × Field)

variable {cp : Classpath} {name descriptor : String} {withInterfaces : Bool} {left : Nat}

/-- From `c` a search goes on to `d`. -/
def LooksInto (cp : Classpath) (withInterfaces : Bool) (c d : ClassFile) : Prop :=
  (withInterfaces = true ∧ ∃ i ∈ c.interfaces, cp.class? i = some d)
    ∨ c.superName.bind cp.class? = some d

theorem LooksInto.found {c d : ClassFile} (h : cp.LooksInto withInterfaces c d) :
    cp.class? d.name = some d := by
  rcases h with ⟨-, i, -, hi⟩ | hsuper
  · exact class?_name hi
  · obtain ⟨s, -, hs⟩ := Option.bind_eq_some_iff.mp hsuper
    exact class?_name hs

/-- The classes that a search goes on to, in their order: the superclass comes last. -/
def nextOf (cp : Classpath) (withInterfaces : Bool) (c : ClassFile) : List ClassFile :=
  (if withInterfaces then c.interfaces.filterMap cp.class? else [])
    ++ (c.superName.bind cp.class?).toList

theorem mem_nextOf {c d : ClassFile} :
    d ∈ cp.nextOf withInterfaces c ↔ cp.LooksInto withInterfaces c d := by
  unfold nextOf LooksInto
  cases withInterfaces <;> simp

/-- The recursive search, however deep it goes: the classes `todo` are searched one after the other
with what is behind them, past those that were `seen`. -/
inductive Searches (cp : Classpath) (name descriptor : String) (withInterfaces : Bool) :
    (todo : List ClassFile) → (seen : List String) → Option (ClassFile × Field) →
      (seen' : List String) → Prop
  | done {seen : List String} : Searches cp name descriptor withInterfaces [] seen none seen
  | again {c : ClassFile} {todo : List ClassFile} {seen seen' : List String}
      {answer : Option (ClassFile × Field)} (hseen : c.name ∈ seen)
      (rest : Searches cp name descriptor withInterfaces todo seen answer seen') :
      Searches cp name descriptor withInterfaces (c :: todo) seen answer seen'
  | declared {c : ClassFile} {todo : List ClassFile} {seen : List String} {f : Field}
      (hnew : c.name ∉ seen) (hfield : c.field? name descriptor = some f) :
      Searches cp name descriptor withInterfaces (c :: todo) seen (some (c, f)) (c.name :: seen)
  | behind {c : ClassFile} {todo : List ClassFile} {seen seen' : List String}
      {found : ClassFile × Field} (hnew : c.name ∉ seen)
      (hfield : c.field? name descriptor = none)
      (inner : Searches cp name descriptor withInterfaces (cp.nextOf withInterfaces c)
        (c.name :: seen) (some found) seen') :
      Searches cp name descriptor withInterfaces (c :: todo) seen (some found) seen'
  | past {c : ClassFile} {todo : List ClassFile} {seen between seen' : List String}
      {answer : Option (ClassFile × Field)} (hnew : c.name ∉ seen)
      (hfield : c.field? name descriptor = none)
      (inner : Searches cp name descriptor withInterfaces (cp.nextOf withInterfaces c)
        (c.name :: seen) none between)
      (rest : Searches cp name descriptor withInterfaces todo between answer seen') :
      Searches cp name descriptor withInterfaces (c :: todo) seen answer seen'

namespace Searches

variable {front back todo : List ClassFile} {seen between seen' : List String}
  {answer : Option (ClassFile × Field)} {found : ClassFile × Field}

theorem append_some
    (h : cp.Searches name descriptor withInterfaces front seen answer seen')
    (hanswer : answer = some found) (back : List ClassFile) :
    cp.Searches name descriptor withInterfaces (front ++ back) seen answer seen' := by
  induction h with
  | done => cases hanswer
  | again hseen _ ih => exact .again hseen (ih hanswer)
  | declared hnew hfield => exact .declared hnew hfield
  | behind hnew hfield inner _ => exact .behind hnew hfield inner
  | past hnew hfield inner _ _ ih => exact .past hnew hfield inner (ih hanswer)

theorem append_none {nothing : Option (ClassFile × Field)}
    (h : cp.Searches name descriptor withInterfaces front seen nothing between)
    (hnothing : nothing = none)
    (second : cp.Searches name descriptor withInterfaces back between answer seen') :
    cp.Searches name descriptor withInterfaces (front ++ back) seen answer seen' := by
  induction h with
  | done => exact second
  | again hseen _ ih => exact .again hseen (ih hnothing second)
  | declared => cases hnothing
  | behind => cases hnothing
  | past hnew hfield inner _ _ ih => exact .past hnew hfield inner (ih hnothing second)

theorem subset (h : cp.Searches name descriptor withInterfaces todo seen answer seen') :
    seen ⊆ seen' := by
  induction h with
  | done => exact List.Subset.refl _
  | again _ _ ih => exact ih
  | declared => exact List.subset_cons_self _ _
  | behind _ _ _ ih => exact (List.cons_subset.mp ih).2
  | past _ _ _ _ ihInner ih => exact List.Subset.trans (List.cons_subset.mp ihInner).2 ih

end Searches

/-- The names are of different classes that can be listed. -/
structure Seen (cp : Classpath) (seen : List String) : Prop where
  nodup : seen.Nodup
  listed : seen ⊆ cp.listedNames

theorem Seen.length_le {seen : List String} (h : cp.Seen seen) : seen.length ≤ cp.size :=
  (h.nodup.subperm h.listed).length_le

theorem Seen.cons {seen : List String} (h : cp.Seen seen) {c : ClassFile} (hnew : c.name ∉ seen)
    (hfound : cp.class? c.name = some c) : cp.Seen (c.name :: seen) where
  nodup := h.nodup.cons hnew
  listed := List.cons_subset.mpr ⟨mem_listedNames_of_class? hfound, h.listed⟩

/-- The classes can be found under their names. -/
def AllFound (cp : Classpath) (todo : List ClassFile) : Prop :=
  ∀ c ∈ todo, cp.class? c.name = some c

theorem allFound_nextOf (c : ClassFile) : cp.AllFound (cp.nextOf withInterfaces c) :=
  fun _ hd => (mem_nextOf.mp hd).found

theorem Searches.seen {todo : List ClassFile} {seen seen' : List String}
    {answer : Option (ClassFile × Field)}
    (h : cp.Searches name descriptor withInterfaces todo seen answer seen')
    (htodo : cp.AllFound todo) (hseen : cp.Seen seen) : cp.Seen seen' := by
  induction h with
  | done => exact hseen
  | again _ _ ih => exact ih (List.forall_mem_cons.mp htodo).2 hseen
  | declared hnew _ => exact hseen.cons hnew (htodo _ List.mem_cons_self)
  | @behind c _ _ _ _ hnew _ _ ih =>
    exact ih (allFound_nextOf c) (hseen.cons hnew (htodo _ List.mem_cons_self))
  | @past c _ _ _ _ _ hnew _ _ _ ihInner ih =>
    obtain ⟨hc, htodo⟩ := List.forall_mem_cons.mp htodo
    exact ih htodo (ihInner (allFound_nextOf c) (hseen.cons hnew hc))

theorem run_orElse (search search' : FieldSearch) (seen : List String) :
    (search <|> search').run.run seen =
      match search.run.run seen with
      | (some found, seen') => (some found, seen')
      | (none, seen') => search'.run.run seen' := by
  rw [OptionT.run_orElse, Option.elimM, StateT.run_bind]
  generalize search.run.run seen = r
  obtain ⟨_ | found, seen'⟩ := r
  · rfl
  · rfl

/-- The computation searches `todo`. Classes that are not looked into yet bound how deep it goes. -/
def Realises (cp : Classpath) (name descriptor : String) (withInterfaces : Bool) (left : Nat)
    (todo : List ClassFile) (search : FieldSearch) : Prop :=
  ∀ seen, cp.Seen seen → cp.size < left + seen.length → ∃ answer seen',
    search.run.run seen = (answer, seen')
      ∧ cp.Searches name descriptor withInterfaces todo seen answer seen'

namespace Realises

variable {todo todo' : List ClassFile} {search search' : FieldSearch}

protected theorem failure : cp.Realises name descriptor withInterfaces left [] failure :=
  fun seen _ _ => ⟨none, seen, rfl, .done⟩

protected theorem orElse (h : cp.Realises name descriptor withInterfaces left todo search)
    (htodo : cp.AllFound todo)
    (h' : cp.Realises name descriptor withInterfaces left todo' search') :
    cp.Realises name descriptor withInterfaces left (todo ++ todo') (search <|> search') := by
  intro seen hseen hleft
  obtain ⟨_ | found, between, hrun, hfirst⟩ := h seen hseen hleft
  · have hbetween := hfirst.seen htodo hseen
    have hmore := (hseen.nodup.subperm hfirst.subset).length_le
    obtain ⟨answer, seen', hrun', hsecond⟩ := h' between hbetween (by omega)
    exact ⟨answer, seen', by rw [run_orElse, hrun]; exact hrun', hfirst.append_none rfl hsecond⟩
  · exact ⟨some found, between, by rw [run_orElse, hrun], hfirst.append_some rfl todo'⟩

/-- A class that may be missing is searched if it is there. -/
protected theorem option {search : ClassFile → FieldSearch} (c? : Option ClassFile) :
    (∀ c, c? = some c → cp.Realises name descriptor withInterfaces left [c] (search c)) →
    cp.Realises name descriptor withInterfaces left c?.toList
      (match c? with
        | some c => search c
        | _ => failure) := by
  intro h
  cases c? with
  | none => exact Realises.failure
  | some c => exact h c rfl

protected theorem firstM {search : ClassFile → FieldSearch}
    (h : ∀ c, cp.class? c.name = some c →
      cp.Realises name descriptor withInterfaces left [c] (search c)) (names : List String) :
    cp.Realises name descriptor withInterfaces left (names.filterMap cp.class?)
      (names.firstM fun i => do
        let some c := cp.class? i | failure
        search c) := by
  induction names with
  | nil => exact Realises.failure
  | cons n names ih =>
    have hn := Realises.option (cp.class? n) fun c hc => h c (class?_name hc)
    have hfound : cp.AllFound (cp.class? n).toList := fun c hc =>
      class?_name (Option.mem_toList.mp hc)
    rw [List.filterMap_eq_flatMap_toList, List.flatMap_cons, ← List.filterMap_eq_flatMap_toList]
    exact hn.orElse hfound ih

end Realises

/-- What is searched when the class itself does not declare the field. -/
def fieldAbove (cp : Classpath) (name descriptor : String) (withInterfaces : Bool) (depth : Nat)
    (c : ClassFile) : FieldSearch :=
  (do
    guard withInterfaces
    c.interfaces.firstM fun i => do
      let some c := cp.class? i | failure
      cp.fieldIn name descriptor withInterfaces depth c)
  <|> (do
    let some c := c.superName.bind cp.class? | failure
    cp.fieldIn name descriptor withInterfaces depth c)

theorem run_fieldIn (depth : Nat) (c : ClassFile) (seen : List String) :
    (cp.fieldIn name descriptor withInterfaces (depth + 1) c).run.run seen =
      if c.name ∈ seen then (none, seen)
      else match c.field? name descriptor with
        | some f => (some (c, f), c.name :: seen)
        | none =>
          (cp.fieldAbove name descriptor withInterfaces depth c).run.run (c.name :: seen) := by
  have hget : (cp.fieldIn name descriptor withInterfaces (depth + 1) c).run.run seen =
      (if c.name ∈ seen then (failure : FieldSearch) else do
        modify (c.name :: ·)
        match c.field? name descriptor with
        | some f => return (c, f)
        | none => cp.fieldAbove name descriptor withInterfaces depth c).run.run seen := rfl
  rw [hget]
  split
  · rfl
  · cases c.field? name descriptor <;> rfl

theorem realises_fieldAbove {depth : Nat} (h : ∀ c, cp.class? c.name = some c →
      cp.Realises name descriptor withInterfaces depth [c]
        (cp.fieldIn name descriptor withInterfaces depth c)) (c : ClassFile) :
    cp.Realises name descriptor withInterfaces depth (cp.nextOf withInterfaces c)
      (cp.fieldAbove name descriptor withInterfaces depth c) := by
  have hsuper := Realises.option (c.superName.bind cp.class?) fun d hd => by
    obtain ⟨s, -, hs⟩ := Option.bind_eq_some_iff.mp hd
    exact h d (class?_name hs)
  unfold fieldAbove nextOf
  cases withInterfaces with
  | true =>
    have hfound : cp.AllFound (c.interfaces.filterMap cp.class?) := fun d hd => by
      obtain ⟨i, -, hi⟩ := List.mem_filterMap.mp hd
      exact class?_name hi
    exact (Realises.firstM h c.interfaces).orElse hfound hsuper
  | false => exact Realises.failure.orElse (List.forall_mem_nil _) hsuper

theorem realises_fieldIn (depth : Nat) {c : ClassFile} (hfound : cp.class? c.name = some c) :
    cp.Realises name descriptor withInterfaces depth [c]
      (cp.fieldIn name descriptor withInterfaces depth c) := by
  induction depth generalizing c with
  | zero =>
    -- more classes would have been looked into than there are
    intro seen hseen hleft
    have hlength := hseen.length_le
    omega
  | succ depth ih =>
    intro seen hseen hleft
    rw [run_fieldIn]
    by_cases hmem : c.name ∈ seen
    · rw [if_pos hmem]
      exact ⟨none, seen, rfl, .again hmem .done⟩
    · rw [if_neg hmem]
      cases hfield : c.field? name descriptor with
      | some f => exact ⟨some (c, f), _, rfl, .declared hmem hfield⟩
      | none =>
        obtain ⟨_ | found, seen', hrun, hinner⟩ := realises_fieldAbove (fun d hd => ih hd) c
          _ (hseen.cons hmem hfound) (by rw [List.length_cons]; omega)
        · exact ⟨none, seen', hrun, .past hmem hfield hinner .done⟩
        · exact ⟨some found, seen', hrun, .behind hmem hfield hinner⟩

/-- The bound on the depth never ends a search. -/
theorem searches_field? {owner : ClassFile} (hfound : cp.class? owner.name = some owner)
    (name descriptor : String) (withInterfaces : Bool) : ∃ seen,
      cp.Searches name descriptor withInterfaces [owner] []
        (cp.field? owner name descriptor withInterfaces) seen := by
  have hrealises : cp.Realises name descriptor withInterfaces (cp.size + 2) [owner]
      (cp.fieldIn name descriptor withInterfaces (cp.size + 2) owner) := realises_fieldIn _ hfound
  obtain ⟨answer, seen, hrun, hsearch⟩ :=
    hrealises [] ⟨List.nodup_nil, List.nil_subset _⟩ (by simp)
  unfold field?
  rw [hrun]
  exact ⟨seen, hsearch⟩

/-- A field that is found is declared by a class behind one of those searched. -/
theorem Searches.sound {todo : List ClassFile} {seen seen' : List String}
    {answer : Option (ClassFile × Field)}
    (h : cp.Searches name descriptor withInterfaces todo seen answer seen') {d : ClassFile}
    {f : Field} (hanswer : answer = some (d, f)) :
    d.field? name descriptor = some f
      ∧ ∃ c ∈ todo, ReflTransGen (cp.LooksInto withInterfaces) c d := by
  induction h with
  | done => cases hanswer
  | again _ _ ih =>
    obtain ⟨hf, c, hc, hpath⟩ := ih hanswer
    exact ⟨hf, c, List.mem_cons_of_mem _ hc, hpath⟩
  | declared _ hfield =>
    cases hanswer
    exact ⟨hfield, d, List.mem_cons_self, .refl⟩
  | behind _ _ _ ih =>
    obtain ⟨hf, c, hc, hpath⟩ := ih hanswer
    exact ⟨hf, _, List.mem_cons_self, hpath.head (mem_nextOf.mp hc)⟩
  | past _ _ _ _ _ ih =>
    obtain ⟨hf, c, hc, hpath⟩ := ih hanswer
    exact ⟨hf, c, List.mem_cons_of_mem _ hc, hpath⟩

/-- The classes that were looked into since do not declare the field, and the search went on from
each of them. -/
def Explored (cp : Classpath) (name descriptor : String) (withInterfaces : Bool)
    (seen seen' : List String) : Prop :=
  ∀ n ∈ seen', n ∉ seen → ∃ c, cp.class? n = some c ∧ c.field? name descriptor = none
    ∧ ∀ d, cp.LooksInto withInterfaces c d → d.name ∈ seen'

theorem Explored.trans {seen seen' seen'' : List String}
    (h : cp.Explored name descriptor withInterfaces seen seen')
    (h' : cp.Explored name descriptor withInterfaces seen' seen'') (hsub : seen' ⊆ seen'') :
    cp.Explored name descriptor withInterfaces seen seen'' := by
  intro n hn hnew
  by_cases hmem : n ∈ seen'
  · obtain ⟨c, hc, hfield, hnext⟩ := h n hmem hnew
    exact ⟨c, hc, hfield, fun d hd => hsub (hnext d hd)⟩
  · exact h' n hn hmem

/-- Without an answer everything behind the classes was explored. -/
theorem Searches.explored {todo : List ClassFile} {seen seen' : List String}
    {answer : Option (ClassFile × Field)}
    (h : cp.Searches name descriptor withInterfaces todo seen answer seen')
    (htodo : cp.AllFound todo) (hanswer : answer = none) :
    cp.Explored name descriptor withInterfaces seen seen' ∧ ∀ c ∈ todo, c.name ∈ seen' := by
  induction h with
  | done => exact ⟨fun n hn hnew => absurd hn hnew, by simp⟩
  | again hseen rest ih =>
    obtain ⟨hexplored, htodo'⟩ := ih (List.forall_mem_cons.mp htodo).2 hanswer
    exact ⟨hexplored, List.forall_mem_cons.mpr ⟨rest.subset hseen, htodo'⟩⟩
  | declared => cases hanswer
  | behind => cases hanswer
  | @past c todo seen between seen' answer hnew hfield inner rest ihInner ih =>
    obtain ⟨hc, htodo⟩ := List.forall_mem_cons.mp htodo
    obtain ⟨hinner, hnext⟩ := ihInner (allFound_nextOf c) rfl
    obtain ⟨hrest, htodo'⟩ := ih htodo hanswer
    have hcMem : c.name ∈ between := inner.subset List.mem_cons_self
    have hself : cp.Explored name descriptor withInterfaces seen between := by
      intro n hn hnewN
      by_cases hnc : n = c.name
      · exact ⟨c, by rw [hnc, hc], hfield, fun d hd => hnext d (mem_nextOf.mpr hd)⟩
      · exact hinner n hn (by simp [hnc, hnewN])
    exact ⟨hself.trans hrest rest.subset,
      List.forall_mem_cons.mpr ⟨rest.subset hcMem, htodo'⟩⟩

/-- Nothing is left out: a class that is looked into does not declare what is not found. -/
theorem Explored.field?_eq_none {seen : List String} {owner d : ClassFile}
    (h : cp.Explored name descriptor withInterfaces [] seen)
    (hfound : cp.class? owner.name = some owner) (howner : owner.name ∈ seen)
    (hpath : ReflTransGen (cp.LooksInto withInterfaces) owner d) :
    d.field? name descriptor = none := by
  have hall : cp.class? d.name = some d ∧ d.name ∈ seen := by
    induction hpath with
    | refl => exact ⟨hfound, howner⟩
    | tail _ hstep ih =>
      obtain ⟨c, hc, -, hnext⟩ := h _ ih.2 List.not_mem_nil
      rw [ih.1] at hc
      cases hc
      exact ⟨hstep.found, hnext _ hstep⟩
  obtain ⟨c, hc, hnone, -⟩ := h d.name hall.2 List.not_mem_nil
  rw [hall.1] at hc
  cases hc
  exact hnone

/-- A field of a class that can be found is found exactly when a class that is looked into declares
it. -/
theorem isSome_field?_iff {owner : ClassFile} (hfound : cp.class? owner.name = some owner) :
    (cp.field? owner name descriptor withInterfaces).isSome = true
      ↔ ∃ d, ReflTransGen (cp.LooksInto withInterfaces) owner d
        ∧ (d.field? name descriptor).isSome = true := by
  obtain ⟨seen, hsearch⟩ := searches_field? hfound name descriptor withInterfaces
  cases hanswer : cp.field? owner name descriptor withInterfaces with
  | some found =>
    obtain ⟨hf, c, hc, hpath⟩ := hsearch.sound hanswer
    rw [List.mem_singleton.mp hc] at hpath
    exact iff_of_true rfl ⟨found.1, hpath, by rw [hf]; rfl⟩
  | none =>
    have howners : cp.AllFound [owner] := List.forall_mem_singleton.mpr hfound
    obtain ⟨hexplored, howner⟩ := hsearch.explored howners hanswer
    refine iff_of_false Bool.false_ne_true ?_
    rintro ⟨d, hpath, hd⟩
    rw [hexplored.field?_eq_none hfound (howner owner List.mem_cons_self) hpath] at hd
    cases hd

end Linkage.Classpath

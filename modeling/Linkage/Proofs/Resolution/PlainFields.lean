import Linkage.Proofs.Hierarchy.Acyclic
import Linkage.Proofs.Resolution.Fields
import Mathlib.Data.Fintype.Basic
import Mathlib.Order.WellFounded

/-! Where no class stands above itself, fields are found as by the plain recursion that does not
remember where it was. -/
namespace Linkage.Classpath

open Relation (ReflTransGen TransGen)

variable {cp : Classpath} {name descriptor : String} {withInterfaces : Bool}

theorem LooksInto.extends {c d : ClassFile} (h : cp.LooksInto withInterfaces c d)
    (hfound : cp.class? c.name = some c) : cp.Extends c.name d.name := by
  rw [Hierarchy.extends_of_class hfound]
  rcases h with ⟨-, i, hi, hd⟩ | hd
  · rw [name_of_class? hd]
    exact List.mem_append_right _ hi
  · obtain ⟨s, hs, hd⟩ := Option.bind_eq_some_iff.mp hd
    rw [name_of_class? hd, ClassFile.supertypes, hs]
    exact List.mem_cons_self

/-- A class that can be found is not looked into on the way from itself. -/
theorem Acyclic.not_looksInto (hacyclic : cp.Acyclic) {c : ClassFile}
    (hfound : cp.class? c.name = some c) : ¬ TransGen (cp.LooksInto withInterfaces) c c := by
  intro hcycle
  have hpath {d : ClassFile} (hd : TransGen (cp.LooksInto withInterfaces) c d) :
      cp.class? d.name = some d ∧ TransGen cp.Extends c.name d.name := by
    induction hd with
    | single hstep => exact ⟨hstep.found, .single (hstep.extends hfound)⟩
    | tail _ hstep ih => exact ⟨hstep.found, ih.2.tail (hstep.extends ih.1)⟩
  exact hacyclic c.name (hpath hcycle).2

/-- There are only finitely many classes, so going from class to class ends. -/
theorem Acyclic.wellFounded (hacyclic : cp.Acyclic) (withInterfaces : Bool) :
    WellFounded fun d c => cp.LooksInto withInterfaces c d := by
  let Listed := {n // n ∈ cp.listedNames}
  have hnames : WellFounded fun m n : Listed => TransGen cp.Extends n m := by
    have : IsTrans Listed fun m n => TransGen cp.Extends n m := ⟨fun _ _ _ h h' => h'.trans h⟩
    have : Std.Irrefl fun m n : Listed => TransGen cp.Extends n m := ⟨fun n => hacyclic n⟩
    exact Finite.wellFounded_of_trans_of_irrefl _
  have hfound (n : Listed) (c : ClassFile) (hc : cp.class? c.name = some c) (hn : c.name = n) :
      Acc (fun d c => cp.LooksInto withInterfaces c d) c := by
    induction n using hnames.induction generalizing c with
    | _ n ih =>
      refine Acc.intro c fun d hd => ?_
      have hlisted := mem_listedNames_of_class? hd.found
      exact ih ⟨d.name, hlisted⟩ (hn ▸ .single (hd.extends hc)) d hd.found rfl
  refine ⟨fun c => Acc.intro c fun d hd => ?_⟩
  exact hfound ⟨d.name, mem_listedNames_of_class? hd.found⟩ d hd.found rfl

/-- The field of a class: its own, else the first that an interface has if they are asked for, else
that of the superclass. -/
def plainField? (hacyclic : cp.Acyclic) (name descriptor : String) (withInterfaces : Bool)
    (c : ClassFile) : Option (ClassFile × Field) :=
  match c.field? name descriptor with
  | some f => some (c, f)
  | none =>
    (if _ : withInterfaces = true then
      c.interfaces.attach.findSome? fun ⟨i, _⟩ =>
        (cp.class? i).pbind fun d _ => plainField? hacyclic name descriptor withInterfaces d
    else none)
    <|> (c.superName.bind cp.class?).pbind fun d _ =>
      plainField? hacyclic name descriptor withInterfaces d
termination_by (hacyclic.wellFounded withInterfaces).wrap c
decreasing_by
  · exact Or.inl ⟨‹_›, _, ‹_›, ‹_›⟩
  · exact Or.inr ‹_›

theorem findSome?_filterMap {α β γ : Type} (f : α → Option β) (g : β → Option γ) (as : List α) :
    (as.filterMap f).findSome? g = as.findSome? fun a => (f a).bind g := by
  induction as with
  | nil => rfl
  | cons a as ih =>
    cases ha : f a with
    | none => rw [List.filterMap_cons_none ha, List.findSome?_cons, ha, ih, Option.bind_none]
    | some b =>
      rw [List.filterMap_cons_some ha, List.findSome?_cons, List.findSome?_cons, ha, ih,
        Option.bind_some]

theorem findSome?_toList {α β : Type} (f : α → Option β) (a? : Option α) :
    a?.toList.findSome? f = a?.bind f := by
  cases a? with
  | none => rfl
  | some a => rw [Option.toList_some, List.findSome?_singleton, Option.bind_some]

theorem plainField?_of_declared (hacyclic : cp.Acyclic) {c : ClassFile} {f : Field}
    (hfield : c.field? name descriptor = some f) :
    plainField? hacyclic name descriptor withInterfaces c = some (c, f) := by
  rw [plainField?, hfield]

/-- Behind a class the first answer counts. -/
theorem plainField?_of_none (hacyclic : cp.Acyclic) {c : ClassFile}
    (hfield : c.field? name descriptor = none) :
    plainField? hacyclic name descriptor withInterfaces c = (cp.nextOf withInterfaces c).findSome?
      (plainField? hacyclic name descriptor withInterfaces) := by
  rw [plainField?, hfield, nextOf, List.findSome?_append, findSome?_toList]
  simp only [Option.orElse_eq_orElse, Option.orElse_eq_or, Option.pbind_eq_bind,
    List.findSome?_subtype, List.unattach_attach]
  cases withInterfaces with
  | true => simp only [dif_pos, if_pos, findSome?_filterMap]
  | false => rfl

/-- A class that was looked into is done, and has no field, or still leads to all that is left. -/
def Passed (hacyclic : cp.Acyclic) (name descriptor : String) (withInterfaces : Bool)
    (todo : List ClassFile) (seen : List String) : Prop :=
  ∀ n ∈ seen, ∀ c, cp.class? n = some c →
    plainField? hacyclic name descriptor withInterfaces c = none
      ∨ ∀ d ∈ todo, TransGen (cp.LooksInto withInterfaces) c d

namespace Passed

variable {hacyclic : cp.Acyclic} {c : ClassFile} {todo : List ClassFile} {seen : List String}

theorem tail (h : Passed hacyclic name descriptor withInterfaces (c :: todo) seen) :
    Passed hacyclic name descriptor withInterfaces todo seen := by
  intro n hn d hd
  exact (h n hn d hd).imp_right fun hleads e he => hleads e (List.mem_cons_of_mem c he)

/-- On the way behind a class, that class leads to all that is left there. -/
theorem behind (h : Passed hacyclic name descriptor withInterfaces (c :: todo) seen)
    (hfound : cp.class? c.name = some c) :
    Passed hacyclic name descriptor withInterfaces (cp.nextOf withInterfaces c)
      (c.name :: seen) := by
  intro n hn d hd
  rcases List.mem_cons.mp hn with rfl | hn
  · obtain rfl := Option.some.inj (hd.symm.trans hfound)
    exact Or.inr fun e he => .single (mem_nextOf.mp he)
  · exact (h n hn d hd).imp_right fun hleads e he =>
      (hleads c List.mem_cons_self).tail (mem_nextOf.mp he)

/-- What was passed since has no field. -/
theorem mono {seen' : List String}
    (h : Passed hacyclic name descriptor withInterfaces todo seen)
    (hnew : ∀ n ∈ seen', n ∉ seen → ∀ c, cp.class? n = some c →
      plainField? hacyclic name descriptor withInterfaces c = none) :
    Passed hacyclic name descriptor withInterfaces todo seen' := by
  intro n hn d hd
  by_cases hmem : n ∈ seen
  · exact h n hmem d hd
  · exact Or.inl (hnew n hn hmem d hd)

end Passed

/-- Passing over what was looked into before does not change the answer. -/
theorem Searches.eq_plainField? (hacyclic : cp.Acyclic) {todo : List ClassFile}
    {seen seen' : List String} {answer : Option (ClassFile × Field)}
    (h : cp.Searches name descriptor withInterfaces todo seen answer seen')
    (htodo : cp.AllFound todo) (hseen : Passed hacyclic name descriptor withInterfaces todo seen) :
    answer = todo.findSome? (plainField? hacyclic name descriptor withInterfaces)
      ∧ (answer = none → ∀ n ∈ seen', n ∉ seen → ∀ c, cp.class? n = some c →
        plainField? hacyclic name descriptor withInterfaces c = none) := by
  induction h with
  | done => exact ⟨rfl, fun _ n hn hnew => absurd hn hnew⟩
  | @again c todo seen seen' answer hmem rest ih =>
    obtain ⟨hc, htodo⟩ := List.forall_mem_cons.mp htodo
    have hnone : plainField? hacyclic name descriptor withInterfaces c = none := by
      rcases hseen c.name hmem c hc with hnone | hleads
      · exact hnone
      · exact absurd (hleads c List.mem_cons_self) (hacyclic.not_looksInto hc)
    rw [List.findSome?_cons, hnone]
    refine ih htodo fun n hn d hd => (hseen n hn d hd).imp_right fun hleads e he => ?_
    exact hleads e (List.mem_cons_of_mem c he)
  | declared hnew hfield =>
    rw [List.findSome?_cons, plainField?_of_declared hacyclic hfield]
    exact ⟨rfl, fun hnone => nomatch hnone⟩
  | @behind c todo seen seen' found hnew hfield inner ih =>
    obtain ⟨hc, -⟩ := List.forall_mem_cons.mp htodo
    obtain ⟨hfound, -⟩ := ih (allFound_nextOf c) (hseen.behind hc)
    rw [List.findSome?_cons, plainField?_of_none hacyclic hfield, ← hfound]
    exact ⟨rfl, fun hnone => nomatch hnone⟩
  | @past c todo seen between seen' answer hnew hfield inner rest ihInner ih =>
    obtain ⟨hc, htodo⟩ := List.forall_mem_cons.mp htodo
    obtain ⟨hnone, hinner⟩ := ihInner (allFound_nextOf c) (hseen.behind hc)
    rw [← plainField?_of_none hacyclic hfield] at hnone
    have hbetween : ∀ n ∈ between, n ∉ seen → ∀ d, cp.class? n = some d →
        plainField? hacyclic name descriptor withInterfaces d = none := by
      intro n hn hnewN d hd
      by_cases hnc : n = c.name
      · rw [hnc, hc] at hd
        rw [← Option.some.inj hd, ← hnone]
      · exact hinner rfl n hn (by simp [hnc, hnewN]) d hd
    obtain ⟨hanswer, hrest⟩ := ih htodo (hseen.tail.mono hbetween)
    rw [List.findSome?_cons, ← hnone]
    refine ⟨hanswer, fun heq n hn hnewN d hd => ?_⟩
    by_cases hmem : n ∈ between
    · exact hbetween n hmem hnewN d hd
    · exact hrest heq n hn hmem d hd

/-- A field of a class that can be found is looked for to the end and found exactly when a class
that is looked into declares it; without cycles the answer is that of the plain recursion. -/
theorem field?_agrees {owner : ClassFile} (hfound : cp.class? owner.name = some owner)
    (name descriptor : String) (withInterfaces : Bool) :
    (∃ seen, cp.Searches name descriptor withInterfaces [owner] []
      (cp.field? owner name descriptor withInterfaces) seen)
    ∧ ((cp.field? owner name descriptor withInterfaces).isSome = true
      ↔ ∃ d, ReflTransGen (cp.LooksInto withInterfaces) owner d
        ∧ (d.field? name descriptor).isSome = true)
    ∧ ∀ hacyclic : cp.Acyclic, cp.field? owner name descriptor withInterfaces
      = plainField? hacyclic name descriptor withInterfaces owner := by
  have hsearches := searches_field? hfound name descriptor withInterfaces
  refine ⟨hsearches, isSome_field?_iff hfound, fun hacyclic => ?_⟩
  obtain ⟨seen, hsearch⟩ := hsearches
  have howner : cp.AllFound [owner] := List.forall_mem_singleton.mpr hfound
  rw [(hsearch.eq_plainField? hacyclic howner (List.forall_mem_nil _)).1, List.findSome?_singleton]

/-- An interface that is reached on two ways has no fields; the interface below it on the second one
has one. -/
def twoWays : Classpath := .models "two ways" [
  { name := "f/Impl", superName := some "f/Base", interfaces := ["f/Left"] },
  { name := "f/Base", superName := none, interfaces := ["f/Right"] },
  { name := "f/Left", superName := none, interfaces := ["f/Top"], access := ⟨0x0601⟩ },
  { name := "f/Right", superName := none, interfaces := ["f/Top"], access := ⟨0x0601⟩,
    fields := [⟨"LIMIT", "I", ⟨0x0019⟩⟩] },
  { name := "f/Top", superName := none, access := ⟨0x0601⟩ }]

def twoWaysOwner : ClassFile :=
  { name := "f/Impl", superName := some "f/Base", interfaces := ["f/Left"] }

theorem acyclic_twoWays : twoWays.Acyclic :=
  acyclic_of_rank
    (fun name => if name = "f/Impl" then 3 else if name = "f/Base" then 2
      else if name = "f/Left" ∨ name = "f/Right" then 1 else 0)
    (by decide)

theorem field?_agrees_twoWays :
    (twoWays.field? twoWaysOwner "LIMIT" "I" true).map (·.1.name) = some "f/Right"
    ∧ twoWays.field? twoWaysOwner "LIMIT" "I" true
      = plainField? acyclic_twoWays "LIMIT" "I" true twoWaysOwner :=
  have hfound : twoWays.class? twoWaysOwner.name = some twoWaysOwner := by decide
  ⟨by decide, (field?_agrees hfound "LIMIT" "I" true).2.2 acyclic_twoWays⟩

end Linkage.Classpath

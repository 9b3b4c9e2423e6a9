import Linkage.Proofs.Check.Candidates
import Linkage.Proofs.Check.Findings

/-! Two checks side by side, each against classes of its own. -/
namespace Linkage.Check

variable {α β γ δ ε : Type} {cp cp' : Classpath}

/-- The two finders settle, and their answers stand in the relation. -/
def Agree (cp cp' : Classpath) (R : α → β → Prop) (f : Finder α) (g : Finder β) : Prop :=
  ∃ a b, R a b ∧ Settles cp (· = a) f ∧ Settles cp' (· = b) g

namespace Agree

variable {R : α → β → Prop} {S : γ → δ → Prop} {f : Finder α} {g : Finder β}

protected theorem pure {a : α} {b : β} (h : R a b) : Agree cp cp' R (Pure.pure a) (Pure.pure b) :=
  ⟨a, b, h, Settles.pure rfl, Settles.pure rfl⟩

protected theorem bind {next : α → Finder γ} {next' : β → Finder δ} (h : Agree cp cp' R f g)
    (hnext : ∀ a b, R a b → Agree cp cp' S (next a) (next' b)) :
    Agree cp cp' S (f >>= next) (g >>= next') := by
  obtain ⟨a, b, hab, hf, hg⟩ := h
  obtain ⟨c, d, hcd, hc, hd⟩ := hnext a b hab
  refine ⟨c, d, hcd, hf.bind ?_, hg.bind ?_⟩
  · rintro _ rfl
    exact hc
  · rintro _ rfl
    exact hd

protected theorem mapM {f : ε → Finder α} {g : ε → Finder β} (h : ∀ x, Agree cp cp' R (f x) (g x))
    (xs : List ε) : Agree cp cp' (List.Forall₂ R) (xs.mapM f) (xs.mapM g) := by
  induction xs with
  | nil => exact Agree.pure .nil
  | cons x xs ih =>
    rw [List.mapM_cons, List.mapM_cons]
    exact (h x).bind fun _ _ hfirst => ih.bind fun _ _ hrest => Agree.pure (.cons hfirst hrest)

theorem of_settles {P : α → Prop} {Q : β → Prop} (hf : Settles cp P f) (hg : Settles cp' Q g)
    (h : ∀ a b, P a → Q b → R a b) : Agree cp cp' R f g := by
  obtain ⟨a, ha, hfirst⟩ := hf
  obtain ⟨b, hb, hsecond⟩ := hg
  exact ⟨a, b, h a b ha hb, ⟨a, rfl, hfirst⟩, ⟨b, rfl, hsecond⟩⟩

theorem of_settles_self {P : α → Prop} {R : α → α → Prop} {f : Finder α} (hf : Settles cp P f)
    (h : ∀ a, P a → R a a) : Agree cp cp R f f := by
  obtain ⟨a, ha, hfirst⟩ := hf
  exact ⟨a, a, h a ha, ⟨a, rfl, hfirst⟩, ⟨a, rfl, hfirst⟩⟩

theorem run_nil (h : Agree cp cp' R f g) : R (f.run []).1 (g.run []).1 := by
  obtain ⟨a, b, hab, ⟨_, rfl, hf⟩, ⟨_, rfl, hg⟩⟩ := h
  rw [(hf [] (Hierarchy.sound_nil cp)).1, (hg [] (Hierarchy.sound_nil cp')).1]
  exact hab

end Agree

/-- Lists of problems in the relation can be put together. -/
structure Additive (R : List Problem → List Problem → Prop) : Prop where
  nil : R [] []
  append : ∀ {ps ps' qs qs'}, R ps ps' → R qs qs' → R (ps ++ qs) (ps' ++ qs')

namespace Additive

variable {R : List Problem → List Problem → Prop}

theorem flatten (h : Additive R) {pss qss : List (List Problem)} (hall : List.Forall₂ R pss qss) :
    R pss.flatten qss.flatten := by
  induction hall with
  | nil => exact h.nil
  | cons hfirst _ ih => exact h.append hfirst ih

theorem flatMap (h : Additive R) {f g : ε → List Problem} (hall : ∀ x, R (f x) (g x))
    (xs : List ε) : R (xs.flatMap f) (xs.flatMap g) := by
  induction xs with
  | nil => exact h.nil
  | cons x xs ih => exact h.append (hall x) ih

/-- Problems that are found one by one are in the relation when they are put together. -/
theorem agree_flatten (h : Additive R) {f g : ε → Finder (List Problem)}
    (hall : ∀ x, Agree cp cp' R (f x) (g x)) (xs : List ε) :
    Agree cp cp' R (return (← xs.mapM f).flatten) (return (← xs.mapM g).flatten) :=
  (Agree.mapM hall xs).bind fun _ _ hfound => Agree.pure (h.flatten hfound)

end Additive

/-- The problems of the parts of a class, met in two surroundings, are in the relation. -/
structure Parallel (env env' : Surroundings) (R : List Problem → List Problem → Prop) : Prop where
  additive : Additive R
  classRef : ∀ accessor location name instruction,
    R (ofClassRef env accessor location name instruction).1
      (ofClassRef env' accessor location name instruction).1
  instruction : ∀ accessor location i, Agree env.classpath env'.classpath R
    (ofInstruction env accessor location i) (ofInstruction env' accessor location i)
  abstractMethods : ∀ c, Agree env.classpath env'.classpath R
    (ofAbstractMethods env c) (ofAbstractMethods env' c)
  overriding : ∀ c m, R (ofOverriding env.classpath c m) (ofOverriding env'.classpath c m)

namespace Parallel

variable {env env' : Surroundings} {R : List Problem → List Problem → Prop}

theorem ofClass (h : Parallel env env' R) (c : ClassFile) :
    Agree env.classpath env'.classpath R (ofClass env c) (ofClass env' c) := by
  have hbody (m : Method) : Agree env.classpath env'.classpath R
      (ofMethodBody env c m) (ofMethodBody env' c m) :=
    h.additive.agree_flatten (h.instruction c _) m.instructions
  have hsupertypes := h.additive.flatMap (fun s => h.classRef c (.type c.name) s none) c.supertypes
  have hoverriding := h.additive.flatMap (h.overriding c) c.methods
  exact (Agree.mapM hbody c.methods).bind fun _ _ hbodies =>
    (h.abstractMethods c).bind fun _ _ hopen => Agree.pure <|
      h.additive.append
        (h.additive.append (h.additive.append hsupertypes (h.additive.flatten hbodies)) hopen)
        hoverriding

/-- So are the problems of a whole plugin. -/
theorem candidates (h : Parallel env env' R) (plugin : Classpath) :
    R (candidates env plugin) (candidates env' plugin) := by
  have hnamed (name : String) : Agree env.classpath env'.classpath R
      (ofNamed env plugin name) (ofNamed env' plugin name) := by
    unfold ofNamed
    cases plugin.lookup name with
    | found c => exact h.ofClass c
    | notFound => exact Agree.pure h.additive.nil
    | invalid _ => exact Agree.pure h.additive.nil
  exact (h.additive.agree_flatten hnamed plugin.classNames).run_nil

end Parallel

end Linkage.Check

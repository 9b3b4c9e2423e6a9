import Linkage.Proofs.Data.Trading
import Linkage.Proofs.Dependency.Steps

/-! Whoever builds a graph has the leases in hand that the graph keeps, and no others. -/
namespace Linkage

variable {σ H lease : Type} [AddCommMonoid H]

/-- What is in hand with some leases. -/
def inHand (value : lease → H) (leases : List lease) : H := (leases.map value).sum

/-- What is in hand with a find. -/
def Found.inHand (value : lease → H) (found : Found lease) : H := found.lease?.elim 0 value

theorem inHand_append (value : lease → H) (front back : List lease) :
    inHand value (front ++ back) = inHand value front + inHand value back := by
  simp [inHand]

theorem Found.inHand_eq (value : lease → H) (found : Found lease) :
    found.inHand value = Linkage.inHand value found.lease?.toList := by
  cases found <;> simp [Found.inHand, Linkage.inHand, Found.lease?]

/-- Whoever gets a find from here has its lease in hand, and nothing else. -/
def Finder.Honest (T : σ × H → σ × H → Prop) (value : lease → H) (find : Finder σ lease) : Prop :=
  ∀ own on, Trades T own (find on) fun found => own + found.inHand value

/-- A supply whose leases are in hand until they are given back. -/
structure Graph.Supply.Honest (T : σ × H → σ × H → Prop) (value : lease → H)
    (supply : Supply σ lease) : Prop where
  find : supply.find.Honest T value
  giveBack : ∀ own held, Trades T (own + value held) (supply.giveBack held) fun _ => own
  isCancelled : ∀ own, Trades T own supply.isCancelled fun _ => own

variable {T : σ × H → σ × H → Prop} [IsPreorder (σ × H) T] {value : lease → H}

namespace Finder

theorem honest_bundled (plugins : List Plugin) : (bundled plugins).Honest T value := by
  intro own on
  refine .pure ?_
  split <;> exact (add_zero own).symm

theorem honest_firstOf {finders : List (Finder σ lease)} (h : ∀ f ∈ finders, f.Honest T value) :
    (firstOf finders).Honest T value := by
  induction finders with
  | nil => exact fun own _ => .pure (add_zero own).symm
  | cons f finders ih =>
    obtain ⟨hf, hrest⟩ := List.forall_mem_cons.mp h
    intro own on
    refine (hf own on).bind fun found => ?_
    cases found with
    | missing reason =>
      have hnone : own + (Found.missing reason).inHand value = own := add_zero own
      rw [hnone]
      exact ih hrest own on
    | leased held p => exact .pure rfl
    | present p => exact .pure rfl

end Finder

/-- A look for a plugin asks the cache for the newest one, if there is any. -/
theorem Library.find_cases (l : Library) (on : Dependency) :
    (∃ reason, (find on).run l = (.missing reason, l))
      ∨ ∃ c found, found.lease? = (l.cache.acquire c l.load).1.answer.toOption.map (fun _ => c)
        ∧ (find on).run l = (found, { l with cache := (l.cache.acquire c l.load).2 }) := by
  have hrun : (find on).run l = _ := Graph.run_bind _ _ l
  simp only [StateT.run_get, pure] at hrun
  cases hnewest : l.newest? on with
  | none =>
    rw [hnewest] at hrun
    exact Or.inl ⟨_, hrun⟩
  | some c =>
    rw [hnewest] at hrun
    refine Or.inr ⟨c, _, ?_, hrun⟩
    rcases (l.cache.acquire c l.load).1.answer with (_ | _ | _) | plugin <;> rfl

namespace Graph

variable {supply : Supply σ lease} {hostModules : List String}

theorem Supply.Honest.giveBackAll (h : supply.Honest T value) (own : H) (leases : List lease) :
    Trades T (own + inHand value leases) (leases.forM supply.giveBack) fun _ => own := by
  induction leases with
  | nil =>
    intro s
    rw [show own + inHand value [] = own by simp [inHand]]
    exact Std.Refl.refl (r := T) (s, own)
  | cons held leases ih =>
    have hcons : own + inHand value (held :: leases) = own + inHand value leases + value held := by
      simp [inHand, add_comm, add_left_comm]
    rw [hcons]
    exact (h.giveBack _ held).bind fun _ => ih

namespace Draft

@[simp] theorem leases_answer (d : Draft lease) (on : Dependency) (target : Target) :
    (d.answer on target).leases = d.leases := rfl

@[simp] theorem leases_add (d : Draft lease) (p : Plugin) (held : Option lease) :
    (d.add p held).leases = d.leases ++ held.toList := rfl

@[simp] theorem leases_settle (d : Draft lease) (number : Nat) (on : Dependency) (target : Target) :
    (d.settle number on target).leases = d.leases := by
  unfold settle
  split
  · cases number <;> rfl
  · split
    · rfl
    · split
      · unfold addEdge
        split <;> rfl
      · rfl

/-- What is in hand when the graph is complete, or when it was broken off. -/
def heldAfter (value : lease → H) : Except BuildStop (Draft lease) × List lease → H
  | (.ok d, _) => inHand value d.leases
  | (.error _, leases) => inHand value leases

variable {d : Draft lease} {own : H}

/-- A lease on a plugin that the graph has already is given back at once. -/
theorem Resolves.trades (h : supply.Honest T value) {on : Dependency} {s s' : σ} {target : Target}
    {d' : Draft lease} (hresolves : Resolves supply d on s target d' s') (own : H) :
    T (s, own + inHand value d.leases) (s', own + inHand value d'.leases) := by
  have hfound {found : Found lease} {s' : σ} (hfind : (supply.find on).run s = (found, s')) :
      T (s, own + inHand value d.leases)
        (s', own + inHand value d.leases + found.inHand value) := by
    have := h.find (own + inHand value d.leases) on s
    rwa [hfind] at this
  cases hresolves with
  | known => exact Std.Refl.refl (r := T) _
  | missing _ hfind => simpa [Found.inHand, Found.lease?] using hfound hfind
  | @again found p n s'' _ hfind hplugin _ =>
    refine IsTrans.trans _ _ _ (hfound hfind) ?_
    unfold returned Found.inHand
    cases found.lease? with
    | none => simpa using Std.Refl.refl (r := T) (s'', own + inHand value d.leases)
    | some held => exact h.giveBack _ held s''
  | first _ hfind _ _ =>
    rw [leases_answer, leases_add, inHand_append, ← Found.inHand_eq, ← add_assoc]
    exact hfound hfind

theorem trades_follow (h : supply.Honest T value) (own : H) (number : Nat) (d : Draft lease)
    (on : Dependency) : Trades T (own + inHand value d.leases)
      (d.follow supply hostModules number on) fun d' => own + inHand value d'.leases := by
  intro s
  cases hbuiltIn : on.isBuiltIn hostModules with
  | true =>
    rw [follow_of_isBuiltIn hbuiltIn]
    exact Std.Refl.refl (r := T) _
  | false =>
    rw [follow_eq hbuiltIn]
    dsimp only
    rw [leases_settle]
    exact (resolves supply d on s).trades h own

theorem trades_expand (h : supply.Honest T value) (own : H) (number : Nat)
    (deps : List Dependency) (d : Draft lease) : Trades T (own + inHand value d.leases)
      (d.expand supply hostModules number deps) fun d' => own + inHand value d'.leases := by
  induction deps generalizing d with
  | nil => exact .pure rfl
  | cons on rest ih => exact (trades_follow h own number d on).bind fun d' => ih d'

theorem trades_complete (h : supply.Honest T value) (own : H) (limit number : Nat)
    (d : Draft lease) : Trades T (own + inHand value d.leases)
      (d.complete supply hostModules limit number) fun r => own + heldAfter value r := by
  induction limit generalizing number d with
  | zero =>
    unfold complete
    cases d.reached[number]? <;> exact .pure rfl
  | succ limit ih =>
    unfold complete
    cases d.reached[number]? with
    | none => exact .pure rfl
    | some r =>
      refine (h.isCancelled _).bind fun asked => ?_
      cases asked with
      -- whoever breaks off hands the leases of the draft on, to be given back
      | true => exact .pure rfl
      | false => exact (trades_expand h own number _ d).bind fun d' => ih (number + 1) d'

end Draft

/-- What is in hand with a graph, if there is one. -/
def heldBy (value : lease → H) : Except BuildStop (Built lease) → H
  | .ok built => inHand value built.leases
  | .error _ => 0

theorem trades_build (h : supply.Honest T value) (own : H) (limit : Nat) (plugin : Plugin) :
    Trades T own (build supply hostModules limit plugin) fun r => own + heldBy value r := by
  have hstart : own = own + inHand value ({ start := ⟨plugin, []⟩ } : Draft lease).leases := by
    simp [inHand]
  unfold build
  rw [hstart]
  refine (Draft.trades_complete h own limit 0 _).bind fun r => ?_
  rw [← hstart]
  match r with
  | (.ok d, _) => exact .pure rfl
  | (.error stop, leases) => exact (h.giveBackAll own leases).bind fun _ => .pure (add_zero own).symm

end Graph
end Linkage

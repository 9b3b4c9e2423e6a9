import Linkage.Dependency.Builder
import Mathlib.Tactic

/-! What one step of building a graph does to the draft, and what a whole run keeps. -/
namespace Linkage

/-- A dependency as it is looked for. -/
def Dependency.key (on : Dependency) : String × Bool := (on.id, on.onModule)

/-- The host has the module that a dependency asks for. -/
def Dependency.isBuiltIn (hostModules : List String) (on : Dependency) : Bool :=
  on.onModule && hostModules.contains on.id

/-- The plugin that was found. -/
def Found.plugin? {lease : Type} : Found lease → Option Plugin
  | .leased _ plugin | .present plugin => some plugin
  | .missing _ => none

/-- The lease that came with a find. -/
def Found.lease? {lease : Type} : Found lease → Option lease
  | .leased held _ => some held
  | .present _ | .missing _ => none

namespace Graph

variable {σ lease : Type}

theorem run_bind {α β : Type} (x : StateM σ α) (f : α → StateM σ β) (s : σ) :
    (x >>= f).run s = (f (x.run s).1).run (x.run s).2 := rfl

namespace Draft

variable {supply : Supply σ lease} {hostModules : List String}

/-- The plugins in the order in which they were reached. -/
def plugins (d : Draft lease) : List Plugin := d.reached.map (·.plugin)

/-- Notes at the plugin with a number where one of its dependencies leads. -/
def settle (d : Draft lease) (number : Nat) (on : Dependency) : Target → Draft lease
  | .missing reason => d.addMissing number ⟨on, reason⟩
  | .plugin n =>
    if n = number then d
    else
      match d.reached[number]?, d.reached[n]? with
      | some source, some target =>
        d.addEdge ⟨source.plugin.coordinate, target.plugin.coordinate, on⟩
      | _, _ => d

section Fields

variable (d : Draft lease) (on : Dependency) (target : Target) (p : Plugin) (held : Option lease)
  (number : Nat) (m : MissingDependency) (e : Edge)

@[simp] theorem edges_answer : (d.answer on target).edges = d.edges := rfl
@[simp] theorem plugins_answer : (d.answer on target).plugins = d.plugins := rfl
@[simp] theorem answers_answer :
    (d.answer on target).answers = (on.key, target) :: d.answers := rfl

@[simp] theorem reached_add : (d.add p held).reached = d.reached ++ [⟨p, []⟩] := rfl
@[simp] theorem edges_add : (d.add p held).edges = d.edges := rfl

@[simp] theorem plugins_add : (d.add p held).plugins = d.plugins ++ [p] := by
  simp [plugins]

@[simp] theorem reached_addEdge : (d.addEdge e).reached = d.reached := by
  unfold addEdge
  split <;> rfl

@[simp] theorem answers_addEdge : (d.addEdge e).answers = d.answers := by
  unfold addEdge
  split <;> rfl

@[simp] theorem plugins_addEdge : (d.addEdge e).plugins = d.plugins := by
  simp [plugins]

@[simp] theorem mem_edges_addEdge {e' : Edge} :
    e' ∈ (d.addEdge e).edges ↔ e' ∈ d.edges ∨ e' = e := by
  unfold addEdge
  split
  · next h =>
    refine (or_iff_left_of_imp ?_).symm
    rintro rfl
    exact h
  · simp

@[simp] theorem reached_addMissing : (d.addMissing number m).reached
    = d.reached.modify number fun r => { r with missing := m.addTo r.missing } := by
  cases number <;> simp [addMissing, update, reached]

@[simp] theorem edges_addMissing : (d.addMissing number m).edges = d.edges := by
  cases number <;> rfl

@[simp] theorem answers_addMissing : (d.addMissing number m).answers = d.answers := by
  cases number <;> rfl

@[simp] theorem plugins_addMissing : (d.addMissing number m).plugins = d.plugins := by
  unfold plugins
  rw [reached_addMissing]
  refine List.ext_getElem? fun k => ?_
  rw [List.getElem?_map, List.getElem?_map, List.getElem?_modify]
  split <;> cases d.reached[k]? <;> rfl

end Fields

theorem length_plugins (d : Draft lease) : d.plugins.length = d.reached.length :=
  List.length_map _

theorem getElem?_plugins (d : Draft lease) (n : Nat) :
    d.plugins[n]? = d.reached[n]?.map (·.plugin) :=
  List.getElem?_map

theorem settle_self (d : Draft lease) (number : Nat) (on : Dependency) :
    d.settle number on (.plugin number) = d :=
  if_pos rfl

theorem settle_of_ne {d : Draft lease} {number n : Nat} {p q : Plugin} (hn : n ≠ number)
    (hp : d.plugins[number]? = some p) (hq : d.plugins[n]? = some q) (on : Dependency) :
    d.settle number on (.plugin n) = d.addEdge ⟨p.coordinate, q.coordinate, on⟩ := by
  obtain ⟨source, hsource, rfl⟩ := Option.map_eq_some_iff.mp ((d.getElem?_plugins _).symm.trans hp)
  obtain ⟨target, htarget, rfl⟩ := Option.map_eq_some_iff.mp ((d.getElem?_plugins _).symm.trans hq)
  unfold settle
  simp only [if_neg hn, hsource, htarget]

@[simp] theorem plugins_settle (d : Draft lease) (number : Nat) (on : Dependency)
    (target : Target) : (d.settle number on target).plugins = d.plugins := by
  unfold settle
  split
  · simp
  · split
    · rfl
    · split <;> simp

theorem mem_edges_settle {d : Draft lease} {e : Edge} (he : e ∈ d.edges) (number : Nat)
    (on : Dependency) (target : Target) : e ∈ (d.settle number on target).edges := by
  unfold settle
  split
  · simpa using he
  · split
    · exact he
    · split
      · simp [he]
      · exact he

theorem number?_eq_some_iff {d : Draft lease} (hids : (d.plugins.map (·.id)).Nodup) {id : String}
    {n : Nat} : d.number? id = some n ↔ ∃ p, d.plugins[n]? = some p ∧ p.id = id := by
  unfold number?
  rw [List.findIdx?_eq_some_iff_getElem]
  constructor
  · rintro ⟨hn, hid, -⟩
    exact ⟨d.reached[n].plugin, by simp [plugins, hn], of_decide_eq_true hid⟩
  · rintro ⟨p, hp, rfl⟩
    obtain ⟨r, hr, rfl⟩ : ∃ r, d.reached[n]? = some r ∧ r.plugin = p := by
      simpa [plugins] using hp
    obtain ⟨hn, rfl⟩ := List.getElem?_eq_some_iff.mp hr
    refine ⟨hn, by simp, fun j hj hid => ?_⟩
    have hsame : (d.plugins.map (·.id))[j]? = (d.plugins.map (·.id))[n]? := by
      simpa [plugins, hn, hj.trans hn] using hid
    have heq := (List.getElem?_inj (by simpa [plugins] using hj.trans hn) hids).mp hsame
    omega

theorem number?_eq_none_iff {d : Draft lease} {id : String} :
    d.number? id = none ↔ ∀ p ∈ d.plugins, p.id ≠ id := by
  simp [number?, plugins]

/-- Plugins with one id have one number. -/
theorem number_eq_of_id_eq {d : Draft lease} (hids : (d.plugins.map (·.id)).Nodup) {k n : Nat}
    {p q : Plugin} (hp : d.plugins[k]? = some p) (hq : d.plugins[n]? = some q) (hid : p.id = q.id) :
    k = n := by
  have hk := (number?_eq_some_iff hids).mpr ⟨p, hp, hid⟩
  have hn := (number?_eq_some_iff hids).mpr ⟨q, hq, rfl⟩
  exact Option.some.inj (hk.symm.trans hn)

theorem nodup_ids_add {d : Draft lease} (hids : (d.plugins.map (·.id)).Nodup) {p : Plugin}
    (hnew : d.number? p.id = none) (held : Option lease) :
    ((d.add p held).plugins.map (·.id)).Nodup := by
  have hother := number?_eq_none_iff.mp hnew
  rw [plugins_add, List.map_append]
  refine List.nodup_append.mpr ⟨hids, List.nodup_singleton _, fun id hid id' hid' => ?_⟩
  obtain ⟨q, hq, rfl⟩ := List.mem_map.mp hid
  rw [List.mem_singleton.mp hid']
  exact hother q hq

/-- Gives the lease of a find back, if it has one. -/
def returned (supply : Supply σ lease) (found : Found lease) (s : σ) : σ :=
  match found.lease? with
  | some held => ((supply.giveBack held).run s).2
  | none => s

/-- Where a dependency leads, and the draft and the state of the finder then. -/
inductive Resolves (supply : Supply σ lease) (d : Draft lease) (on : Dependency) (s : σ) :
    Target → Draft lease → σ → Prop
  | known {target : Target} (hknown : d.answers.lookup on.key = some target) :
    Resolves supply d on s target d s
  | missing {reason : String} {s' : σ} (hnew : d.answers.lookup on.key = none)
      (hfind : (supply.find on).run s = (.missing reason, s')) :
    Resolves supply d on s (.missing reason) (d.answer on (.missing reason)) s'
  | again {found : Found lease} {p : Plugin} {n : Nat} {s' : σ}
      (hnew : d.answers.lookup on.key = none) (hfind : (supply.find on).run s = (found, s'))
      (hfound : found.plugin? = some p) (hn : d.number? p.id = some n) :
    Resolves supply d on s (.plugin n) (d.answer on (.plugin n)) (returned supply found s')
  | first {found : Found lease} {p : Plugin} {s' : σ} (hnew : d.answers.lookup on.key = none)
      (hfind : (supply.find on).run s = (found, s')) (hfound : found.plugin? = some p)
      (hn : d.number? p.id = none) :
    Resolves supply d on s (.plugin d.reached.length)
      ((d.add p found.lease?).answer on (.plugin d.reached.length)) s'

theorem resolves (supply : Supply σ lease) (d : Draft lease) (on : Dependency) (s : σ) :
    Resolves supply d on s ((d.resolve supply on).run s).1.1 ((d.resolve supply on).run s).1.2
      ((d.resolve supply on).run s).2 := by
  unfold resolve
  cases hknown : d.answers.lookup (on.id, on.onModule) with
  | some target => exact .known hknown
  | none =>
    obtain ⟨⟨found, s'⟩, hfind⟩ : ∃ r, (supply.find on).run s = r := ⟨_, rfl⟩
    simp only [run_bind, hfind]
    cases found with
    | missing reason => exact .missing hknown hfind
    | present p =>
      cases hn : d.number? p.id with
      | some n =>
        simp only [hn]
        exact .again hknown hfind rfl hn
      | none =>
        simp only [hn]
        exact .first hknown hfind rfl hn
    | leased held p =>
      cases hn : d.number? p.id with
      | some n =>
        simp only [hn]
        exact .again hknown hfind rfl hn
      | none =>
        simp only [hn]
        exact .first hknown hfind rfl hn

theorem follow_of_isBuiltIn {on : Dependency} (h : on.isBuiltIn hostModules = true) (number : Nat)
    (d : Draft lease) (s : σ) : (d.follow supply hostModules number on).run s = (d, s) := by
  unfold follow
  rw [if_pos (show (on.onModule && hostModules.contains on.id) = true from h)]
  rfl

theorem follow_eq {on : Dependency} (h : on.isBuiltIn hostModules = false) (number : Nat)
    (d : Draft lease) (s : σ) : (d.follow supply hostModules number on).run s
      = (((d.resolve supply on).run s).1.2.settle number on ((d.resolve supply on).run s).1.1,
        ((d.resolve supply on).run s).2) := by
  have hnot : ¬ (on.onModule && hostModules.contains on.id) = true := by
    rw [← Dependency.isBuiltIn, h]
    exact Bool.false_ne_true
  unfold follow
  rw [if_neg hnot, run_bind]
  obtain ⟨⟨⟨target, d'⟩, s'⟩, hresolve⟩ : ∃ r, (d.resolve supply on).run s = r := ⟨_, rfl⟩
  rw [hresolve]
  cases target with
  | missing reason => rfl
  | plugin n =>
    unfold settle
    by_cases hn : n = number
    · simp only [hn, if_true]
      rfl
    · simp only [hn, if_false]
      cases d'.reached[number]? <;> cases d'.reached[n]? <;> rfl

/-- What each dependency adds to holds when all dependencies of a plugin were followed. -/
theorem expand_keeps {P : List Dependency → Draft lease → σ → Prop} {number : Nat}
    (hstep : ∀ on rest d s, P (on :: rest) d s →
      P rest ((d.follow supply hostModules number on).run s).1
        ((d.follow supply hostModules number on).run s).2)
    {deps : List Dependency} {d : Draft lease} {s : σ} (h : P deps d s) :
    P [] ((d.expand supply hostModules number deps).run s).1
      ((d.expand supply hostModules number deps).run s).2 := by
  induction deps generalizing d s with
  | nil => exact h
  | cons on rest ih => exact ih (hstep on rest d s h)

theorem complete_of_none {number : Nat} {d : Draft lease} (h : d.reached[number]? = none)
    (limit : Nat) (s : σ) :
    (d.complete supply hostModules limit number).run s = ((.ok d, []), s) := by
  unfold complete
  rw [h]
  rfl

theorem complete_succ {number : Nat} {d : Draft lease} {r : Reached}
    (h : d.reached[number]? = some r) {s : σ} (hquiet : (supply.isCancelled.run s).1 = false)
    (limit : Nat) :
    (d.complete supply hostModules (limit + 1) number).run s =
      let after := (d.expand supply hostModules number r.plugin.descriptor.dependencies).run
        (supply.isCancelled.run s).2
      (after.1.complete supply hostModules limit (number + 1)).run after.2 := by
  conv_lhs => unfold complete
  rw [h]
  simp only [run_bind, hquiet]
  rfl

/-- What each plugin adds to holds in the end, and the end comes: as long as no more than `bound`
plugins are reached, every greater limit gives the same draft. -/
theorem complete_keeps {P : Nat → Draft lease → σ → Prop} {bound : Nat}
    (hquiet : ∀ s, (supply.isCancelled.run s).1 = false)
    (hpoll : ∀ number d s, P number d s → P number d (supply.isCancelled.run s).2)
    (hstep : ∀ number d s r, P number d s → d.reached[number]? = some r →
      P (number + 1)
        ((d.expand supply hostModules number r.plugin.descriptor.dependencies).run s).1
        ((d.expand supply hostModules number r.plugin.descriptor.dependencies).run s).2)
    (hbound : ∀ number d s, P number d s →
      number ≤ d.reached.length ∧ d.reached.length ≤ bound)
    {number : Nat} {d : Draft lease} {s : σ} (h : P number d s) :
    ∃ d' s', P d'.reached.length d' s' ∧ ∀ limit, bound ≤ limit + number →
      (d.complete supply hostModules limit number).run s = ((.ok d', []), s') := by
  -- the induction is on the plugins that may still come: a limit this great is never used up
  obtain ⟨left, hleft⟩ : ∃ left, left + number = bound := by
    have := hbound number d s h
    exact ⟨bound - number, by omega⟩
  induction left generalizing number d s with
  | zero =>
    have hlength := hbound number d s h
    have hlast : number = d.reached.length := by omega
    have hnone : d.reached[number]? = none := List.getElem?_eq_none (by omega)
    exact ⟨d, s, hlast ▸ h, fun limit _ => complete_of_none hnone limit s⟩
  | succ left ih =>
    cases hreached : d.reached[number]? with
    | none =>
      have hlength := List.getElem?_eq_none_iff.mp hreached
      have hlast : number = d.reached.length := by
        have := hbound number d s h
        omega
      exact ⟨d, s, hlast ▸ h, fun limit _ => complete_of_none hreached limit s⟩
    | some r =>
      obtain ⟨d', s', hend, hrun⟩ := ih (hstep _ _ _ r (hpoll _ _ _ h) hreached) (by omega)
      refine ⟨d', s', hend, fun limit hlimit => ?_⟩
      obtain ⟨limit, rfl⟩ := Nat.exists_eq_succ_of_ne_zero (show limit ≠ 0 by omega)
      exact (complete_succ hreached (hquiet s) limit).trans (hrun limit (by omega))

end Draft

theorem build_of_complete {supply : Supply σ lease} {hostModules : List String} {limit : Nat}
    {plugin : Plugin} {d : Draft lease} {s s' : σ}
    (h : (Draft.complete supply hostModules limit 0 { start := ⟨plugin, []⟩ }).run s
      = ((.ok d, []), s')) :
    (build supply hostModules limit plugin).run s = (.ok d.built, s') := by
  unfold build
  rw [run_bind, h]
  rfl

end Graph
end Linkage

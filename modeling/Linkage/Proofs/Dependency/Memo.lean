import Linkage.Proofs.Dependency.Steps

/-! A graph is the same whether answers are remembered or asked for anew, and a finder is asked for
nothing twice. -/
namespace Linkage.Graph

variable {σ lease : Type}

namespace Draft

variable {supply : Supply σ lease} {answer : String × Bool → Found lease}
  {hostModules : List String} {d d' : Draft lease}

/-- Where a find leads. A plugin whose id is new is taken in. -/
def meet (d : Draft lease) (found : Found lease) : Target × Draft lease :=
  match found with
  | .missing reason => (.missing reason, d)
  | .leased _ p | .present p =>
    match d.number? p.id with
    | some n => (.plugin n, d)
    | none => (.plugin d.reached.length, d.add p found.lease?)

/-- Follows one dependency of the plugin with a number by what is answered now, whatever was answered
before. -/
def followAnew (answer : String × Bool → Found lease) (hostModules : List String) (number : Nat)
    (d : Draft lease) (on : Dependency) : Draft lease :=
  if on.isBuiltIn hostModules then d
  else
    let met := d.meet (answer on.key)
    met.2.settle number on met.1

/-- Expands the plugins from a number on without a memory of answers. -/
def completeAnew (answer : String × Bool → Found lease) (hostModules : List String) :
    (limit number : Nat) → Draft lease → Option (Draft lease)
  | limit, number, d =>
    match d.reached[number]? with
    | none => some d
    | some r =>
      match limit with
      | 0 => none
      | limit + 1 =>
        completeAnew answer hostModules limit (number + 1)
          (r.plugin.descriptor.dependencies.foldl (followAnew answer hostModules number) d)

theorem completeAnew_of_none {number : Nat} (h : d.reached[number]? = none) (limit : Nat) :
    d.completeAnew answer hostModules limit number = some d := by
  unfold completeAnew
  rw [h]

theorem completeAnew_zero {number : Nat} {r : Reached} (h : d.reached[number]? = some r) :
    d.completeAnew answer hostModules 0 number = none := by
  unfold completeAnew
  rw [h]

theorem completeAnew_succ {number : Nat} {r : Reached} (h : d.reached[number]? = some r)
    (limit : Nat) : d.completeAnew answer hostModules (limit + 1) number
      = (r.plugin.descriptor.dependencies.foldl (followAnew answer hostModules number) d).completeAnew
        answer hostModules limit (number + 1) := by
  conv_lhs => unfold completeAnew
  rw [h]

/-- The draft without the answers that were given. -/
def forget (d : Draft lease) : Draft lease := { d with answers := [] }

@[simp] theorem reached_forget (d : Draft lease) : d.forget.reached = d.reached := rfl

theorem forget_addEdge (d : Draft lease) (e : Edge) : (d.addEdge e).forget = d.forget.addEdge e := by
  unfold addEdge
  by_cases he : e ∈ d.edges
  · rw [if_pos he, if_pos (show e ∈ d.forget.edges from he)]
  · rw [if_neg he, if_neg (show e ∉ d.forget.edges from he)]
    rfl

theorem forget_settle (d : Draft lease) (number : Nat) (on : Dependency) (target : Target) :
    (d.settle number on target).forget = d.forget.settle number on target := by
  cases target with
  | missing reason => cases number <;> rfl
  | plugin n =>
    unfold settle
    by_cases hn : n = number
    · simp only [hn, if_true]
    · simp only [hn, if_false, reached_forget]
      cases d.reached[number]? <;> cases d.reached[n]? <;> simp only [forget_addEdge]

/-- A find leads somewhere without a change. -/
inductive Leads (d : Draft lease) : Found lease → Target → Prop
  | missing (reason : String) : Leads d (.missing reason) (.missing reason)
  | plugin {found : Found lease} {p : Plugin} {n : Nat} (hfound : found.plugin? = some p)
      (hn : d.number? p.id = some n) : Leads d found (.plugin n)

theorem meet_of_new {found : Found lease} {p : Plugin} (hfound : found.plugin? = some p)
    (hn : d.number? p.id = none) :
    d.meet found = (.plugin d.reached.length, d.add p found.lease?) := by
  unfold meet
  cases found <;> cases hfound <;> simp only [hn]

theorem Leads.meet {found : Found lease} {target : Target} (h : d.Leads found target) :
    d.meet found = (target, d) := by
  cases h with
  | missing reason => rfl
  | @plugin _ p n hfound hn =>
    unfold Draft.meet
    cases found <;> cases hfound <;> simp only [hn]

theorem number?_mono (hplugins : d.plugins <+: d'.plugins) {id : String} {n : Nat}
    (hn : d.number? id = some n) : d'.number? id = some n := by
  have hmap (d : Draft lease) : d.number? id = d.plugins.findIdx? (fun p => p.id = id) := by
    simp [number?, plugins, List.findIdx?_map, Function.comp_def]
  obtain ⟨rest, hrest⟩ := hplugins
  rw [hmap] at hn
  rw [hmap, ← hrest, List.findIdx?_append, hn]
  rfl

/-- Where a find leads stays so. -/
theorem Leads.mono {found : Found lease} {target : Target} (h : d.Leads found target)
    (hplugins : d.plugins <+: d'.plugins) : d'.Leads found target := by
  cases h with
  | missing reason => exact .missing reason
  | plugin hfound hn => exact .plugin hfound (number?_mono hplugins hn)

/-- What is remembered is where the answers lead. -/
def Recalls (answer : String × Bool → Found lease) (d : Draft lease) : Prop :=
  ∀ key target, d.answers.lookup key = some target → d.Leads (answer key) target

theorem Recalls.note (h : d.Recalls answer) {on : Dependency} {target : Target}
    (hplugins : d.plugins <+: d'.plugins) (hanswers : d'.answers = d.answers)
    (hleads : d'.Leads (answer on.key) target) : (d'.answer on target).Recalls answer := by
  intro key target' hlookup
  have hsame : (d'.answer on target).plugins = d'.plugins := plugins_answer _ _ _
  rw [answers_answer, List.lookup_cons] at hlookup
  by_cases hkey : key = on.key
  · subst hkey
    simp only [beq_self_eq_true] at hlookup
    obtain rfl := Option.some.inj hlookup
    exact hleads.mono (hsame ▸ List.prefix_rfl)
  · rw [beq_eq_false_iff_ne.mpr hkey, hanswers] at hlookup
    exact (h key target' hlookup).mono (hsame ▸ hplugins)

/-- A draft that remembers answers and one that does not go the same way. -/
theorem Recalls.resolves (h : d.Recalls answer)
    (hfind : ∀ on s, ((supply.find on).run s).1 = answer on.key) {on : Dependency} {s s' : σ}
    {target : Target} (hresolves : Resolves supply d on s target d' s') :
    d'.Recalls answer ∧ d.forget.meet (answer on.key) = (target, d'.forget) := by
  have hanswer {found : Found lease} {s' : σ} (hrun : (supply.find on).run s = (found, s')) :
      answer on.key = found := by
    rw [← hfind on s, hrun]
  cases hresolves with
  | known hknown =>
    have hleads : d.forget.Leads (answer on.key) target :=
      (h _ _ hknown).mono List.prefix_rfl
    exact ⟨h, hleads.meet⟩
  | @missing reason _ hnew hrun =>
    have hleads : d.Leads (answer on.key) (.missing reason) := hanswer hrun ▸ .missing reason
    exact ⟨h.note List.prefix_rfl rfl hleads, by rw [hanswer hrun]; rfl⟩
  | @again found p n _ hnew hrun hfound hn =>
    have hleads : d.Leads (answer on.key) (.plugin n) := by
      rw [hanswer hrun]
      exact .plugin hfound hn
    have hforgotten : d.forget.Leads (answer on.key) (.plugin n) := hleads.mono List.prefix_rfl
    exact ⟨h.note List.prefix_rfl rfl hleads, hforgotten.meet⟩
  | @first found p _ hnew hrun hfound hn =>
    have hplugins : d.plugins <+: (d.add p found.lease?).plugins := by simp
    have hnumber : (d.add p found.lease?).number? p.id = some d.reached.length := by
      have hnone : d.reached.findIdx? (fun r => r.plugin.id = p.id) = none := hn
      simp [number?, List.findIdx?_append, hnone]
    have hleads : (d.add p found.lease?).Leads (answer on.key) (.plugin d.reached.length) := by
      rw [hanswer hrun]
      exact .plugin hfound hnumber
    refine ⟨h.note hplugins rfl hleads, ?_⟩
    -- ids are looked up among the plugins alone, so the plugin is new without the memory too
    rw [hanswer hrun, meet_of_new hfound (show d.forget.number? p.id = none from hn)]
    rfl

theorem answers_settle (d : Draft lease) (number : Nat) (on : Dependency) (target : Target) :
    (d.settle number on target).answers = d.answers := by
  unfold settle
  split
  · simp
  · split
    · rfl
    · split <;> simp

theorem Recalls.settle (h : d.Recalls answer) (number : Nat) (on : Dependency) (target : Target) :
    (d.settle number on target).Recalls answer := by
  intro key target' hlookup
  rw [answers_settle] at hlookup
  exact (h key target' hlookup).mono (by rw [plugins_settle])

theorem Recalls.follow (h : d.Recalls answer)
    (hfind : ∀ on s, ((supply.find on).run s).1 = answer on.key) (hostModules : List String)
    (number : Nat) (on : Dependency) (s : σ) :
    let d' := ((d.follow supply hostModules number on).run s).1
    d'.Recalls answer ∧ d'.forget = d.forget.followAnew answer hostModules number on := by
  unfold followAnew
  cases hbuiltIn : on.isBuiltIn hostModules with
  | true =>
    rw [follow_of_isBuiltIn hbuiltIn, if_pos rfl]
    exact ⟨h, rfl⟩
  | false =>
    obtain ⟨hrecalls, hmeet⟩ := h.resolves hfind (Draft.resolves supply d on s)
    rw [follow_eq hbuiltIn, if_neg Bool.false_ne_true, hmeet]
    exact ⟨hrecalls.settle _ _ _, forget_settle _ _ _ _⟩

section Simulation

/-- A step keeps a property, and does what the step without a memory does. -/
def Simulates (supply : Supply σ lease) (answer : String × Bool → Found lease)
    (hostModules : List String) (P : Draft lease → σ → Prop) : Prop :=
  ∀ number on d s, P d s →
    P ((d.follow supply hostModules number on).run s).1
        ((d.follow supply hostModules number on).run s).2
      ∧ ((d.follow supply hostModules number on).run s).1.forget
        = d.forget.followAnew answer hostModules number on

variable {P : Draft lease → σ → Prop}

theorem Simulates.expand (hstep : Simulates supply answer hostModules P) (number : Nat)
    (deps : List Dependency) (s : σ) (h : P d s) :
    P ((d.expand supply hostModules number deps).run s).1
        ((d.expand supply hostModules number deps).run s).2
      ∧ ((d.expand supply hostModules number deps).run s).1.forget
        = deps.foldl (followAnew answer hostModules number) d.forget := by
  induction deps generalizing d s with
  | nil => exact ⟨h, rfl⟩
  | cons on rest ih =>
    obtain ⟨hkept, hforget⟩ := hstep number on d s h
    rw [List.foldl_cons, ← hforget]
    exact ih _ hkept

theorem Simulates.complete (hstep : Simulates supply answer hostModules P)
    (hquiet : ∀ s, (supply.isCancelled.run s).1 = false)
    (hpoll : ∀ d s, P d s → P d (supply.isCancelled.run s).2) (limit number : Nat) (s : σ)
    (h : P d s) :
    (∃ d' s', (d.complete supply hostModules limit number).run s = ((.ok d', []), s') ∧ P d' s'
        ∧ d.forget.completeAnew answer hostModules limit number = some d'.forget)
      ∨ ∃ leases s', (d.complete supply hostModules limit number).run s
          = ((.error .tooMany, leases), s')
        ∧ d.forget.completeAnew answer hostModules limit number = none := by
  induction limit generalizing number d s with
  | zero =>
    cases hreached : d.reached[number]? with
    | none =>
      have hforgotten : d.forget.reached[number]? = none := hreached
      exact Or.inl ⟨d, s, complete_of_none hreached 0 s, h, completeAnew_of_none hforgotten 0⟩
    | some r =>
      have hforgotten : d.forget.reached[number]? = some r := hreached
      refine Or.inr ⟨d.leases, s, ?_, completeAnew_zero hforgotten⟩
      unfold Draft.complete
      rw [hreached]
      rfl
  | succ limit ih =>
    cases hreached : d.reached[number]? with
    | none =>
      have hforgotten : d.forget.reached[number]? = none := hreached
      exact Or.inl ⟨d, s, complete_of_none hreached _ s, h, completeAnew_of_none hforgotten _⟩
    | some r =>
      have hforgotten : d.forget.reached[number]? = some r := hreached
      obtain ⟨hkept, hforget⟩ :=
        hstep.expand number r.plugin.descriptor.dependencies _ (hpoll d s h)
      rw [complete_succ hreached (hquiet s), completeAnew_succ hforgotten, ← hforget]
      exact ih (number + 1) _ hkept

end Simulation

end Draft

/-- Builds the graph of a plugin by a finder that is asked anew for each dependency. -/
def buildAnew (answer : String × Bool → Found lease) (hostModules : List String) (limit : Nat)
    (plugin : Plugin) : Except BuildStop (Built lease) :=
  match Draft.completeAnew answer hostModules limit 0 { start := ⟨plugin, []⟩ } with
  | some d => .ok d.built
  | none => .error .tooMany

/-- The same finder, which keeps a record of what it is asked for. -/
def Supply.recorded (supply : Supply σ lease) : Supply (σ × List (String × Bool)) lease where
  find on state :=
    let (found, s) := (supply.find on).run state.1
    (found, s, on.key :: state.2)
  giveBack held state := ((), ((supply.giveBack held).run state.1).2, state.2)
  isCancelled state :=
    let (cancelled, s) := supply.isCancelled.run state.1
    (cancelled, s, state.2)

section Equivalence

variable {supply : Supply σ lease} {answer : String × Bool → Found lease}

theorem recalls_start (answer : String × Bool → Found lease) (plugin : Plugin) :
    Draft.Recalls answer { start := ⟨plugin, []⟩ } := by
  intro key target hlookup
  cases hlookup

theorem buildAnew_of_some {hostModules : List String} {limit : Nat} {plugin : Plugin}
    {d : Draft lease}
    (h : Draft.completeAnew answer hostModules limit 0 { start := ⟨plugin, []⟩ } = some d) :
    buildAnew answer hostModules limit plugin = .ok d.built := by
  unfold buildAnew
  rw [h]

theorem buildAnew_of_none {hostModules : List String} {limit : Nat} {plugin : Plugin}
    (h : Draft.completeAnew answer hostModules limit 0 { start := ⟨plugin, []⟩ } = none) :
    buildAnew answer hostModules limit plugin = .error .tooMany := by
  unfold buildAnew
  rw [h]

/-- A build with a memory and one without end in one way. -/
theorem complete_simulates (hfind : ∀ on s, ((supply.find on).run s).1 = answer on.key)
    (hquiet : ∀ s, (supply.isCancelled.run s).1 = false) (hostModules : List String) (limit : Nat)
    (plugin : Plugin) (s : σ) :
    (∃ d' s', (Draft.complete supply hostModules limit 0 { start := ⟨plugin, []⟩ }).run s
          = ((.ok d', []), s')
        ∧ Draft.completeAnew answer hostModules limit 0 { start := ⟨plugin, []⟩ } = some d'.forget)
      ∨ ∃ leases s', (Draft.complete supply hostModules limit 0 { start := ⟨plugin, []⟩ }).run s
          = ((.error .tooMany, leases), s')
        ∧ Draft.completeAnew answer hostModules limit 0 { start := ⟨plugin, []⟩ } = none := by
  have hstep : Draft.Simulates supply answer hostModules fun d _ => d.Recalls answer :=
    fun number on _ s h => h.follow hfind hostModules number on s
  rcases hstep.complete hquiet (fun _ _ h => h) limit 0 s (recalls_start answer plugin) with
    ⟨d', s', hrun, -, hanew⟩ | hnone
  · exact Or.inl ⟨d', s', hrun, hanew⟩
  · exact Or.inr hnone

theorem completeAnew_of_complete (hfind : ∀ on s, ((supply.find on).run s).1 = answer on.key)
    (hquiet : ∀ s, (supply.isCancelled.run s).1 = false) {hostModules : List String} {limit : Nat}
    {plugin : Plugin} {d : Draft lease} {s s' : σ}
    (hrun : (Draft.complete supply hostModules limit 0 { start := ⟨plugin, []⟩ }).run s
      = ((.ok d, []), s')) :
    Draft.completeAnew answer hostModules limit 0 { start := ⟨plugin, []⟩ } = some d.forget := by
  rcases complete_simulates hfind hquiet hostModules limit plugin s with
    ⟨d', s'', hrun', hanew⟩ | ⟨leases, s'', hrun', -⟩
  · rw [hrun] at hrun'
    cases hrun'
    exact hanew
  · rw [hrun] at hrun'
    cases hrun'

/-- To remember answers makes no difference. -/
theorem build_eq_buildAnew (hfind : ∀ on s, ((supply.find on).run s).1 = answer on.key)
    (hquiet : ∀ s, (supply.isCancelled.run s).1 = false) (hostModules : List String) (limit : Nat)
    (plugin : Plugin) (s : σ) : ((build supply hostModules limit plugin).run s).1
      = buildAnew answer hostModules limit plugin := by
  rcases complete_simulates hfind hquiet hostModules limit plugin s with
    ⟨d', s', hrun, hanew⟩ | ⟨leases, s', hrun, hanew⟩
  · rw [build_of_complete hrun, buildAnew_of_some hanew]
    rfl
  · rw [buildAnew_of_none hanew]
    unfold build
    rw [run_bind, hrun]
    rfl

/-- The record of a finder is what the draft remembers, with nothing twice. -/
def Draft.Recorded (d : Draft lease) (asked : List (String × Bool)) : Prop :=
  asked = d.answers.map (·.1) ∧ asked.Nodup

theorem Draft.Recorded.resolves {d d' : Draft lease} {state state' : σ × List (String × Bool)}
    (h : d.Recorded state.2) {on : Dependency} {target : Target}
    (hresolves : Resolves supply.recorded d on state target d' state') : d'.Recorded state'.2 := by
  have hasked {found : Found lease} {state' : σ × List (String × Bool)}
      (hrun : (supply.recorded.find on).run state = (found, state')) :
      state'.2 = on.key :: state.2 := by
    have hstate : ((supply.recorded.find on).run state).2 = state' := by rw [hrun]
    rw [← hstate]
    rfl
  have hnote {found : Found lease} {state' : σ × List (String × Bool)} {target : Target}
      (hnew : d.answers.lookup on.key = none)
      (hrun : (supply.recorded.find on).run state = (found, state')) :
      (d.answer on target).Recorded state'.2 := by
    have hfresh : on.key ∉ d.answers.map (·.1) := by
      intro hmem
      obtain ⟨note, hnote, hkey⟩ := List.mem_map.mp hmem
      have hne := List.lookup_eq_none_iff.mp hnew note hnote
      simp [hkey] at hne
    rw [hasked hrun, h.1]
    exact ⟨rfl, List.nodup_cons.mpr ⟨hfresh, h.1 ▸ h.2⟩⟩
  cases hresolves with
  | known hknown => exact h
  | missing hnew hrun => exact hnote hnew hrun
  | @again found p n state' hnew hrun hfound hn =>
    have hback : (returned supply.recorded found state').2 = state'.2 := by
      unfold returned
      cases found.lease? <;> rfl
    rw [hback]
    exact hnote hnew hrun
  | first hnew hrun hfound hn => exact hnote hnew hrun

theorem Draft.Recorded.follow {hostModules : List String} {d : Draft lease}
    {state : σ × List (String × Bool)} (h : d.Recorded state.2) (number : Nat) (on : Dependency) :
    let after := (d.follow supply.recorded hostModules number on).run state
    after.1.Recorded after.2.2 := by
  cases hbuiltIn : on.isBuiltIn hostModules with
  | true =>
    rw [follow_of_isBuiltIn hbuiltIn]
    exact h
  | false =>
    have hresolved := h.resolves (Draft.resolves supply.recorded d on state)
    rw [follow_eq hbuiltIn]
    exact ⟨hresolved.1.trans (by rw [answers_settle]), hresolved.2⟩

/-- A finder is asked for nothing twice. -/
theorem nodup_asked (hfind : ∀ on s, ((supply.find on).run s).1 = answer on.key)
    (hquiet : ∀ s, (supply.isCancelled.run s).1 = false) {hostModules : List String} {limit : Nat}
    {plugin : Plugin} {b : Built lease} (hb : buildAnew answer hostModules limit plugin = .ok b)
    (s : σ) : ∃ s' asked,
      (build supply.recorded hostModules limit plugin).run (s, []) = (.ok b, (s', asked))
        ∧ asked.Nodup := by
  let Kept (d : Draft lease) (state : σ × List (String × Bool)) : Prop :=
    d.Recalls answer ∧ d.Recorded state.2
  have hfind' (on : Dependency) (state : σ × List (String × Bool)) :
      ((supply.recorded.find on).run state).1 = answer on.key := hfind on state.1
  have hstep : Draft.Simulates supply.recorded answer hostModules Kept := by
    intro number on d state h
    obtain ⟨hrecalls, hforget⟩ := h.1.follow hfind' hostModules number on state
    exact ⟨⟨hrecalls, h.2.follow number on⟩, hforget⟩
  have hstart : Kept { start := ⟨plugin, []⟩ } (s, []) :=
    ⟨recalls_start answer plugin, rfl, List.nodup_nil⟩
  have hends := hstep.complete (fun state => hquiet state.1) (fun _ _ h => h) limit 0 (s, []) hstart
  rcases hends with ⟨d', ⟨s', asked⟩, hrun, hkept, hanew⟩ | ⟨leases, s', hrun, hanew⟩
  · rw [buildAnew_of_some hanew] at hb
    obtain rfl := Except.ok.inj hb
    refine ⟨s', asked, ?_, hkept.2.2⟩
    rw [build_of_complete hrun]
    rfl
  · rw [buildAnew_of_none hanew] at hb
    cases hb

end Equivalence
end Linkage.Graph

import Linkage.Proofs.Dependency.Steps

/-! The graphs that are built are well formed. -/
namespace Linkage.Graph

open Relation (ReflTransGen)

variable {σ lease : Type}

/-- A plugin that a finder can come up with. -/
def Supply.CanFind (supply : Supply σ lease) (p : Plugin) : Prop :=
  ∃ on s, ((supply.find on).run s).1.plugin? = some p

/-- An edge leads from `a` to `b`. -/
def Linked (edges : List Edge) (a b : Coordinate) : Prop :=
  ∃ e ∈ edges, e.source = a ∧ e.target = b

theorem reachable_mono {edges edges' : List Edge} (h : ∀ e ∈ edges, e ∈ edges') {a b : Coordinate}
    (hpath : ReflTransGen (Linked edges) a b) : ReflTransGen (Linked edges') a b :=
  hpath.lift id fun _ _ ⟨e, he, hends⟩ => ⟨e, h e he, hends⟩

/-- What can be relied on in the graph of a plugin: it starts with the plugin, no two vertices have
one id, edges lead from vertices to others, no edge is there twice, all vertices can be reached, and
the classes are those of the vertices but the first, in their order. -/
structure WellFormed (supply : Supply σ lease) (plugin : Plugin) (b : Built lease) : Prop where
  start : b.graph.start.coordinate = plugin.coordinate
  ids : (b.graph.vertices.map (·.coordinate.id)).Nodup
  edges : b.graph.edges.Nodup
  loops : ∀ e ∈ b.graph.edges, e.source.id ≠ e.target.id
  ends : ∀ e ∈ b.graph.edges, e.source ∈ b.graph.vertices.map (·.coordinate)
    ∧ e.target ∈ b.graph.vertices.map (·.coordinate)
  reachable : ∀ v ∈ b.graph.vertices,
    ReflTransGen (Linked b.graph.edges) b.graph.start.coordinate v.coordinate
  classes : List.Forall₂
    (fun v c => ∃ p, supply.CanFind p ∧ p.coordinate = v.coordinate ∧ p.classes = c)
    b.graph.others b.classes

namespace Draft

variable {supply : Supply σ lease} {hostModules : List String} {plugin : Plugin} {d : Draft lease}

/-- What every step keeps of a draft. -/
structure Sound (supply : Supply σ lease) (plugin : Plugin) (d : Draft lease) : Prop where
  start : d.plugins.head? = some plugin
  found : ∀ p ∈ d.plugins.tail, supply.CanFind p
  ids : (d.plugins.map (·.id)).Nodup
  answers : ∀ key n, d.answers.lookup key = some (.plugin n) → n < d.plugins.length
  edges : d.edges.Nodup
  ends : ∀ e ∈ d.edges, e.source ∈ d.plugins.map (·.coordinate)
    ∧ e.target ∈ d.plugins.map (·.coordinate) ∧ e.source.id ≠ e.target.id

/-- All plugins that were reached can be reached from the first along the edges. -/
def Connected (plugin : Plugin) (d : Draft lease) : Prop :=
  ∀ p ∈ d.plugins, ReflTransGen (Linked d.edges) plugin.coordinate p.coordinate

/-- Missing dependencies do not matter. -/
theorem Sound.congr (h : d.Sound supply plugin) {d' : Draft lease} (hplugins : d'.plugins = d.plugins)
    (hanswers : d'.answers = d.answers) (hedges : d'.edges = d.edges) :
    d'.Sound supply plugin := by
  constructor
  · rw [hplugins]
    exact h.start
  · rw [hplugins]
    exact h.found
  · rw [hplugins]
    exact h.ids
  · rw [hplugins, hanswers]
    exact h.answers
  · rw [hedges]
    exact h.edges
  · rw [hplugins, hedges]
    exact h.ends

theorem Sound.answer (h : d.Sound supply plugin) {on : Dependency} {target : Target}
    (htarget : ∀ n, target = .plugin n → n < d.plugins.length) :
    (d.answer on target).Sound supply plugin where
  start := h.start
  found := h.found
  ids := h.ids
  edges := h.edges
  ends := h.ends
  answers key n hn := by
    rw [answers_answer, List.lookup_cons] at hn
    split at hn
    · exact htarget n (Option.some.inj hn)
    · exact h.answers key n hn

theorem Sound.add (h : d.Sound supply plugin) {p : Plugin} (hp : supply.CanFind p)
    (hnew : d.number? p.id = none) (held : Option lease) :
    (d.add p held).Sound supply plugin := by
  have hne : d.plugins ≠ [] := by
    intro hnil
    simpa [hnil] using h.start
  constructor
  · rw [plugins_add, List.head?_append, h.start]
    rfl
  · rw [plugins_add, List.tail_append_of_ne_nil hne]
    intro q hq
    rcases List.mem_append.mp hq with hq | hq
    · exact h.found q hq
    · rw [List.mem_singleton.mp hq]
      exact hp
  · exact nodup_ids_add h.ids hnew held
  · intro key n hn
    have hlt := h.answers key n hn
    rw [plugins_add, List.length_append]
    omega
  · exact h.edges
  · intro e he
    obtain ⟨hsource, htarget, hdiffer⟩ := h.ends e he
    simp only [plugins_add, List.map_append, List.mem_append]
    exact ⟨Or.inl hsource, Or.inl htarget, hdiffer⟩

theorem Sound.addEdge (h : d.Sound supply plugin) {p q : Plugin} (hp : p ∈ d.plugins)
    (hq : q ∈ d.plugins) (hne : p.id ≠ q.id) (on : Dependency) :
    (d.addEdge ⟨p.coordinate, q.coordinate, on⟩).Sound supply plugin := by
  constructor
  · simpa using h.start
  · simpa using h.found
  · simpa using h.ids
  · simpa using h.answers
  · unfold Draft.addEdge
    split
    · exact h.edges
    · next hnew =>
      refine List.nodup_append.mpr ⟨h.edges, List.nodup_singleton _, fun e he e' he' heq => ?_⟩
      exact hnew (List.mem_singleton.mp he' ▸ heq ▸ he)
  · intro e he
    rw [plugins_addEdge]
    rcases (mem_edges_addEdge _ _).mp he with he | rfl
    · exact h.ends e he
    · exact ⟨List.mem_map_of_mem hp, List.mem_map_of_mem hq, hne⟩

theorem Sound.settle (h : d.Sound supply plugin) {number : Nat} (hnumber : number < d.plugins.length)
    {target : Target} (htarget : ∀ n, target = .plugin n → n < d.plugins.length)
    (on : Dependency) : (d.settle number on target).Sound supply plugin := by
  cases target with
  | missing reason =>
    exact h.congr (plugins_addMissing _ _ _) (answers_addMissing _ _ _) (edges_addMissing _ _ _)
  | plugin n =>
    by_cases hn : n = number
    · rw [hn, settle_self]
      exact h
    · have hp := List.getElem?_eq_getElem hnumber
      have hq := List.getElem?_eq_getElem (htarget n rfl)
      rw [settle_of_ne hn hp hq]
      exact h.addEdge (List.getElem_mem _) (List.getElem_mem _)
        (fun hid => hn (number_eq_of_id_eq h.ids hp hq hid).symm) on

theorem Sound.resolves (h : d.Sound supply plugin) {on : Dependency} {s s' : σ} {target : Target}
    {d' : Draft lease} (hresolves : Resolves supply d on s target d' s') :
    d'.Sound supply plugin ∧ ∀ n, target = .plugin n → n < d'.plugins.length := by
  cases hresolves with
  | known hknown => exact ⟨h, fun n hn => h.answers on.key n (hn ▸ hknown)⟩
  | missing hnew hfind => exact ⟨h.answer (by simp), by simp⟩
  | @again found p n s' hnew hfind hfound hn =>
    obtain ⟨q, hq, -⟩ := (number?_eq_some_iff h.ids).mp hn
    have hlt := (List.getElem?_eq_some_iff.mp hq).1
    have htarget : ∀ n', Target.plugin n = .plugin n' → n' < d.plugins.length := by
      rintro n' ⟨⟩
      exact hlt
    exact ⟨h.answer htarget, htarget⟩
  | @first found p s' hnew hfind hfound hn =>
    have hadd := h.add ⟨on, s, by rw [hfind]; exact hfound⟩ hn found.lease?
    have htarget : ∀ n', Target.plugin d.reached.length = .plugin n' →
        n' < (d.add p found.lease?).plugins.length := by
      rintro n' ⟨⟩
      simp [length_plugins]
    exact ⟨hadd.answer htarget, htarget⟩

theorem Connected.mono (h : d.Connected plugin) {d' : Draft lease} (hplugins : d'.plugins = d.plugins)
    (hedges : ∀ e ∈ d.edges, e ∈ d'.edges) : d'.Connected plugin := by
  intro p hp
  rw [hplugins] at hp
  exact reachable_mono hedges (h p hp)

/-- A plugin that was just found is connected by the edge that it was found for. -/
theorem Connected.settle (h : d.Connected plugin) {number : Nat}
    (hnumber : number < d.plugins.length) {on : Dependency} {s s' : σ} {target : Target}
    {d' : Draft lease} (hresolves : Resolves supply d on s target d' s') :
    (d'.settle number on target).Connected plugin := by
  have hkept {d'' : Draft lease} (hplugins : d''.plugins = d.plugins) (hedges : d''.edges = d.edges) :
      (d''.settle number on target).Connected plugin := by
    refine h.mono (by rw [plugins_settle, hplugins]) fun e he => mem_edges_settle ?_ _ _ _
    rw [hedges]
    exact he
  cases hresolves with
  | known hknown => exact hkept rfl rfl
  | missing hnew hfind => exact hkept rfl rfl
  | again hnew hfind hfound hn => exact hkept rfl rfl
  | @first found p s' hnew hfind hfound hn =>
    have hlength := d.length_plugins
    have hsource : (d.plugins ++ [p])[number]? = some d.plugins[number] := by
      rw [List.getElem?_append_left hnumber, List.getElem?_eq_getElem hnumber]
    have htarget : (d.plugins ++ [p])[d.reached.length]? = some p := by
      rw [← hlength, List.getElem?_concat_length]
    rw [settle_of_ne (by omega) (by simpa using hsource) (by simpa using htarget)]
    intro q hq
    have hmem : q ∈ d.plugins ∨ q = p := by simpa using hq
    rcases hmem with hq | rfl
    · exact reachable_mono (fun e he => by simp [he]) (h q hq)
    · refine ReflTransGen.tail (reachable_mono ?_ (h _ (List.getElem_mem hnumber)))
        ⟨_, (mem_edges_addEdge _ _).mpr (Or.inr rfl), rfl, rfl⟩
      exact fun e he => (mem_edges_addEdge _ _).mpr (Or.inl he)

/-- Following a dependency of a plugin that was reached keeps a draft in order. -/
theorem Sound.follow (h : d.Sound supply plugin) (hconnected : d.Connected plugin) {number : Nat}
    (hnumber : number < d.plugins.length) (on : Dependency) (s : σ) :
    let d' := ((d.follow supply hostModules number on).run s).1
    d'.Sound supply plugin ∧ d'.Connected plugin ∧ number < d'.plugins.length := by
  cases hbuiltIn : on.isBuiltIn hostModules with
  | true =>
    rw [follow_of_isBuiltIn hbuiltIn]
    exact ⟨h, hconnected, hnumber⟩
  | false =>
    have hresolves := Draft.resolves supply d on s
    obtain ⟨hsound, htarget⟩ := h.resolves hresolves
    have hgrown : number < ((d.resolve supply on).run s).1.2.plugins.length := by
      generalize ((d.resolve supply on).run s).1.2 = d', ((d.resolve supply on).run s).1.1 = t,
        ((d.resolve supply on).run s).2 = s' at hresolves
      cases hresolves <;> simp [length_plugins] at hnumber ⊢ <;> omega
    rw [follow_eq hbuiltIn]
    refine ⟨hsound.settle hgrown htarget on, hconnected.settle hnumber hresolves, ?_⟩
    rw [plugins_settle]
    exact hgrown

theorem Sound.expand (h : d.Sound supply plugin) (hconnected : d.Connected plugin) {number : Nat}
    (hnumber : number < d.plugins.length) (deps : List Dependency) (s : σ) :
    let d' := ((d.expand supply hostModules number deps).run s).1
    d'.Sound supply plugin ∧ d'.Connected plugin ∧ number < d'.plugins.length :=
  expand_keeps
    (P := fun _ d _ => d.Sound supply plugin ∧ d.Connected plugin ∧ number < d.plugins.length)
    (fun on _ _ s h => h.1.follow h.2.1 h.2.2 on s) ⟨h, hconnected, hnumber⟩

theorem sound_start (supply : Supply σ lease) (plugin : Plugin) :
    Sound supply plugin { start := ⟨plugin, []⟩ } where
  start := rfl
  found p hp := by simp [plugins, reached] at hp
  ids := List.nodup_singleton _
  answers key n hn := by simp at hn
  edges := List.nodup_nil
  ends e he := by simp at he

theorem connected_start (plugin : Plugin) :
    Connected plugin ({ start := ⟨plugin, []⟩ } : Draft lease) := by
  intro p hp
  obtain rfl : p = plugin := by simpa [plugins, reached] using hp
  exact .refl

theorem Sound.length_le (h : d.Sound supply plugin) {ids : List String}
    (hids : ∀ p, supply.CanFind p → p.id ∈ ids) : d.plugins.length ≤ ids.length + 1 := by
  have hsub : d.plugins.tail.map (·.id) ⊆ ids := by
    intro id hid
    obtain ⟨p, hp, rfl⟩ := List.mem_map.mp hid
    exact hids p (h.found p hp)
  have hnodup : (d.plugins.tail.map (·.id)).Nodup :=
    h.ids.sublist ((List.tail_sublist d.plugins).map _)
  have hlength := (hnodup.subperm hsub).length_le
  simp only [List.length_map, List.length_tail] at hlength
  omega

theorem Sound.wellFormed (h : d.Sound supply plugin) (hconnected : d.Connected plugin) :
    WellFormed supply plugin d.built := by
  have hvertices : d.built.graph.vertices.map (·.coordinate) = d.plugins.map (·.coordinate) := by
    simp [built, vertices, plugins, reached]
  have hstart : d.start.plugin = plugin := Option.some.inj h.start
  constructor
  · exact congrArg Plugin.coordinate hstart
  · have hids : d.built.graph.vertices.map (·.coordinate.id) = d.plugins.map (·.id) := by
      have hmap := congrArg (List.map (·.id)) hvertices
      rw [List.map_map, List.map_map] at hmap
      exact hmap
    rw [hids]
    exact h.ids
  · exact h.edges
  · exact fun e he => (h.ends e he).2.2
  · intro e he
    rw [hvertices]
    exact ⟨(h.ends e he).1, (h.ends e he).2.1⟩
  · intro v hv
    have hmem : v.coordinate ∈ d.plugins.map (·.coordinate) := hvertices ▸ List.mem_map_of_mem hv
    obtain ⟨p, hp, heq⟩ := List.mem_map.mp hmem
    have hpath := hconnected p hp
    rw [heq, ← hstart] at hpath
    exact hpath
  · have hothers : ∀ r ∈ d.others, supply.CanFind r.plugin := fun r hr =>
      h.found r.plugin (List.mem_map_of_mem hr)
    refine List.forall₂_map_left_iff.mpr (List.forall₂_map_right_iff.mpr ?_)
    exact List.forall₂_same.mpr fun r hr => ⟨r.plugin, hothers r hr, rfl, rfl⟩

end Draft

/-- Where only plugins of finitely many ids can be found and nobody asks for the end, every limit
that is great enough gives the same draft. -/
theorem Draft.complete_sound (supply : Supply σ lease) (hostModules : List String) (plugin : Plugin)
    {ids : List String} (hids : ∀ p, supply.CanFind p → p.id ∈ ids)
    (hquiet : ∀ s, (supply.isCancelled.run s).1 = false) (s : σ) :
    ∃ d s', (∀ limit, ids.length < limit →
        (complete supply hostModules limit 0 { start := ⟨plugin, []⟩ }).run s = ((.ok d, []), s'))
      ∧ d.Sound supply plugin ∧ d.Connected plugin := by
  let Inv (number : Nat) (d : Draft lease) (_ : σ) : Prop :=
    d.Sound supply plugin ∧ d.Connected plugin ∧ number ≤ d.plugins.length
  have hstart : Inv 0 { start := ⟨plugin, []⟩ } s :=
    ⟨sound_start supply plugin, connected_start plugin, Nat.zero_le _⟩
  have hstep (number : Nat) (d : Draft lease) (s : σ) (r : Reached) (h : Inv number d s)
      (hr : d.reached[number]? = some r) :
      Inv (number + 1)
        ((d.expand supply hostModules number r.plugin.descriptor.dependencies).run s).1
        ((d.expand supply hostModules number r.plugin.descriptor.dependencies).run s).2 := by
    have hnumber : number < d.plugins.length := by
      rw [d.length_plugins]
      exact (List.getElem?_eq_some_iff.mp hr).1
    exact h.1.expand h.2.1 hnumber _ s
  have hbound (number : Nat) (d : Draft lease) (s : σ) (h : Inv number d s) :
      number ≤ d.reached.length ∧ d.reached.length ≤ ids.length + 1 := by
    rw [← d.length_plugins]
    exact ⟨h.2.2, h.1.length_le hids⟩
  obtain ⟨d', s', ⟨hsound, hconnected, -⟩, hrun⟩ :=
    complete_keeps hquiet (fun _ _ _ h => h) hstep hbound hstart
  exact ⟨d', s', fun limit hlimit => hrun limit hlimit, hsound, hconnected⟩

/-- Where only plugins of finitely many ids can be found and nobody asks for the end, there is a
well-formed graph, which every limit that is great enough gives. -/
theorem build_wellFormed (supply : Supply σ lease) (hostModules : List String) (plugin : Plugin)
    {ids : List String} (hids : ∀ p, supply.CanFind p → p.id ∈ ids)
    (hquiet : ∀ s, (supply.isCancelled.run s).1 = false) (s : σ) :
    ∃ b s', (∀ limit, ids.length < limit →
        (build supply hostModules limit plugin).run s = (.ok b, s'))
      ∧ WellFormed supply plugin b := by
  obtain ⟨d, s', hrun, hsound, hconnected⟩ :=
    Draft.complete_sound supply hostModules plugin hids hquiet s
  exact ⟨d.built, s', fun limit hlimit => build_of_complete (hrun limit hlimit),
    hsound.wellFormed hconnected⟩

/-- A finder that comes up with a newer plugin each time it is asked: with `a` by its id, with `b` as
the plugin of any module. Both depend on these, and on what nothing supplies. -/
def restless : Supply Nat Nat where
  find on made :=
    let newest (id : String) : Plugin :=
      { descriptor := { id, version := s!"{made}", dependencies :=
          [{ id := "a" }, { id := "m", onModule := true }, { id := "gone" }] }
        classes := .empty }
    (if on.onModule then .leased made (newest "b")
      else if on.id = "a" then .present (newest "a") else .missing "gone", made + 1)
  giveBack _ := pure ()
  isCancelled := pure false

/-- An older `a` than any that the finder comes up with. -/
def outdated : Plugin where
  descriptor := { id := "a", version := "old", dependencies :=
    [{ id := "b", onModule := true }, { id := "n", onModule := true }, { id := "a" }] }
  classes := .empty

theorem canFind_restless {p : Plugin} (h : restless.CanFind p) : p.id ∈ ["a", "b"] := by
  obtain ⟨on, made, hfound⟩ := h
  simp only [restless, StateT.run] at hfound
  split at hfound
  · cases hfound
    simp [Plugin.id]
  · split at hfound
    · cases hfound
      simp [Plugin.id]
    · cases hfound

theorem build_wellFormed_restless :
    ∃ b s', (∀ limit, 2 < limit → (build restless ["n"] limit outdated).run 0 = (.ok b, s'))
      ∧ WellFormed restless outdated b
      ∧ b.graph.vertices.map (·.coordinate.display) = ["a:old", "b:0"]
      ∧ b.graph.edges.map (·.target.id) = ["b", "a"] := by
  obtain ⟨b, s', hrun, hwell⟩ :=
    build_wellFormed restless ["n"] outdated (fun _ => canFind_restless) (fun _ => rfl) 0
  have hthree := hrun 3 (by decide)
  refine ⟨b, s', hrun, hwell, ?_⟩
  have hsome : ((build restless ["n"] 3 outdated).run 0).1 = .ok b := by rw [hthree]
  cases hsome
  decide

end Linkage.Graph

import Linkage.Proofs.Dependency.Fates
import Linkage.Proofs.Dependency.WellFormed

/-! A graph accounts for each declared dependency in exactly one way, and shows nothing else. -/
namespace Linkage.Graph

/-- The edges that a vertex has for a dependency. -/
def edgesBy (g : Graph) (v : Vertex) (on : Dependency) : List Edge :=
  g.edges.filter fun e => e.source = v.coordinate ∧ e.dependency = on

/-- What a vertex lists as missing for a dependency. -/
def missingBy (v : Vertex) (on : Dependency) : List MissingDependency :=
  v.missing.filter (·.dependency = on)

/-- What a graph shows at a vertex of a dependency with a certain fate. -/
def Accounts (g : Graph) (v : Vertex) (on : Dependency) : Fate → Prop
  | .builtIn => g.edgesBy v on = [] ∧ missingBy v on = []
  | .missing reason => g.edgesBy v on = [] ∧ missingBy v on = [⟨on, reason⟩]
  | .supplied p => missingBy v on = [] ∧ ∃ w, g.vertex? p.id = some w
    ∧ g.edgesBy v on = if w = v then [] else [⟨v.coordinate, w.coordinate, on⟩]

/-- A vertex shows what its plugin declares, and nothing else. -/
structure AccountsFor {lease : Type} (answer : String × Bool → Found lease)
    (hostModules : List String) (g : Graph) (v : Vertex) (p : Plugin) : Prop where
  coordinate : v.coordinate = p.coordinate
  accounts : ∀ on ∈ p.descriptor.dependencies, g.Accounts v on (on.fate answer hostModules)
  edges : ∀ e ∈ g.edges, e.source = v.coordinate → e.dependency ∈ p.descriptor.dependencies
  missing : ∀ m ∈ v.missing, m.dependency ∈ p.descriptor.dependencies

/-- A graph and its classes are those of the plugins, and every vertex shows what its plugin declares
and nothing else. -/
structure Accounting {lease : Type} (answer : String × Bool → Found lease)
    (hostModules : List String) (plugin : Plugin) (others : List Plugin) (b : Built lease) :
    Prop where
  found : ∀ p ∈ others, ∃ key, (answer key).plugin? = some p
  classes : b.classes = others.map (·.classes)
  vertices : List.Forall₂ (AccountsFor answer hostModules b.graph) b.graph.vertices
    (plugin :: others)
  sources : ∀ e ∈ b.graph.edges, ∃ v ∈ b.graph.vertices, e.source = v.coordinate

variable {σ lease : Type}

namespace Draft

variable {answer : String × Bool → Found lease} {hostModules : List String} {d : Draft lease}
  {p : Plugin} {on : Dependency}

/-- What a plugin looks like in the graph. -/
def vertex (r : Reached) : Vertex := ⟨r.plugin.coordinate, r.missing⟩

theorem vertices_built (d : Draft lease) : d.built.graph.vertices = d.reached.map vertex := rfl

theorem mem_declared {plugins : List Plugin} {on : Dependency}
    (h : (p, on) ∈ plugins.flatMap declared) : on ∈ p.descriptor.dependencies := by
  obtain ⟨q, -, hon⟩ := List.mem_flatMap.mp h
  obtain ⟨on', hon', heq⟩ := List.mem_map.mp hon
  cases heq
  exact hon'

theorem eq_singleton {α : Type} {as : List α} (h : as.Nodup) {a : α} (hmem : ∀ b, b ∈ as ↔ b = a) :
    as = [a] := by
  have hperm : as.Perm [a] :=
    (List.perm_ext_iff_of_nodup h (List.nodup_singleton a)).mpr (by simpa using hmem)
  exact List.perm_singleton.mp hperm

theorem vertex?_built {p : Plugin} (hp : ∃ q ∈ d.plugins, q.id = p.id) :
    ∃ r ∈ d.reached, r.plugin.id = p.id ∧ d.built.graph.vertex? p.id = some (vertex r) := by
  obtain ⟨q, hq, hid⟩ := hp
  obtain ⟨r, hr, rfl⟩ := List.mem_map.mp hq
  have hsome : (d.built.graph.vertex? p.id).isSome = true := by
    rw [vertex?, List.find?_isSome, vertices_built]
    exact ⟨vertex r, List.mem_map_of_mem hr, decide_eq_true hid⟩
  obtain ⟨w, hw⟩ := Option.isSome_iff_exists.mp hsome
  have hfind : (d.reached.map vertex).find? (·.coordinate.id = p.id) = some w := hw
  obtain ⟨r', hr', rfl⟩ := List.mem_map.mp (List.mem_of_find?_eq_some hfind)
  have hid' := List.find?_some hfind
  rw [decide_eq_true_iff] at hid'
  exact ⟨r', hr', hid', hw⟩

section Done

variable (h : d.Accounted answer hostModules (d.plugins.flatMap declared))
include h

theorem Accounted.mem_edgesBy {r : Reached} (hr : r ∈ d.reached) {on : Dependency}
    (hon : on ∈ r.plugin.descriptor.dependencies) (e : Edge) :
    e ∈ d.built.graph.edgesBy (vertex r) on
      ↔ EdgeDue answer hostModules d.plugins r.plugin on e := by
  have hplugin : r.plugin ∈ d.plugins := List.mem_map_of_mem hr
  have hmem : e ∈ d.built.graph.edges ↔ _ := h.edges e
  rw [edgesBy, List.mem_filter, hmem, decide_eq_true_iff]
  constructor
  · rintro ⟨⟨p, on', hdone, hdue⟩, hsource, hlabel⟩
    have hp := h.sources p on' hdone
    obtain ⟨found, hfate, hne, q, hq, hid, rfl⟩ := hdue
    obtain rfl := eq_of_id_eq h.ids hp hplugin (congrArg Coordinate.id hsource)
    obtain rfl : on' = on := hlabel
    exact ⟨found, hfate, hne, q, hq, hid, rfl⟩
  · rintro ⟨found, hfate, hne, q, hq, hid, rfl⟩
    have hdone : (r.plugin, on) ∈ d.plugins.flatMap declared :=
      List.mem_flatMap.mpr ⟨r.plugin, hplugin, List.mem_map_of_mem hon⟩
    exact ⟨⟨r.plugin, on, hdone, found, hfate, hne, q, hq, hid, rfl⟩, rfl, rfl⟩

theorem Accounted.mem_missingBy {r : Reached} (hr : r ∈ d.reached) {on : Dependency}
    (hon : on ∈ r.plugin.descriptor.dependencies) (m : MissingDependency) :
    m ∈ missingBy (vertex r) on
      ↔ m.dependency = on ∧ on.fate answer hostModules = .missing m.reason := by
  have hdone : (r.plugin, on) ∈ d.plugins.flatMap declared :=
    List.mem_flatMap.mpr ⟨r.plugin, List.mem_map_of_mem hr, List.mem_map_of_mem hon⟩
  have hmem : m ∈ (vertex r).missing ↔ _ := h.missing r hr m
  rw [missingBy, List.mem_filter, hmem, decide_eq_true_iff]
  constructor
  · rintro ⟨⟨-, hfate⟩, rfl⟩
    exact ⟨rfl, hfate⟩
  · rintro ⟨rfl, hfate⟩
    exact ⟨⟨hdone, hfate⟩, rfl⟩

/-- Plugins that look alike are one. -/
theorem Accounted.vertex_inj {r r' : Reached} (hr : r ∈ d.reached) (hr' : r' ∈ d.reached) :
    vertex r = vertex r' ↔ r.plugin.id = r'.plugin.id := by
  constructor
  · intro hsame
    exact congrArg (·.coordinate.id) hsame
  · intro hid
    have hnodup : (d.reached.map fun r => r.plugin.id).Nodup := by
      simpa [plugins, Function.comp_def] using h.ids
    rw [List.inj_on_of_nodup_map hnodup hr hr' hid]

theorem Accounted.accounts (hedges : d.edges.Nodup) {r : Reached} (hr : r ∈ d.reached)
    {on : Dependency} (hon : on ∈ r.plugin.descriptor.dependencies) :
    d.built.graph.Accounts (vertex r) on (on.fate answer hostModules) := by
  have hdone : (r.plugin, on) ∈ d.plugins.flatMap declared :=
    List.mem_flatMap.mpr ⟨r.plugin, List.mem_map_of_mem hr, List.mem_map_of_mem hon⟩
  have hedge := h.mem_edgesBy hr hon
  have hmissing := h.mem_missingBy hr hon
  cases hfate : on.fate answer hostModules with
  | builtIn =>
    constructor
    · refine List.eq_nil_iff_forall_not_mem.mpr fun e he => ?_
      obtain ⟨found, hsupplied, -⟩ := (hedge e).mp he
      simp [hfate] at hsupplied
    · refine List.eq_nil_iff_forall_not_mem.mpr fun m hm => ?_
      simpa [hfate] using (hmissing m).mp hm
  | missing reason =>
    constructor
    · refine List.eq_nil_iff_forall_not_mem.mpr fun e he => ?_
      obtain ⟨found, hsupplied, -⟩ := (hedge e).mp he
      simp [hfate] at hsupplied
    · have hnodup : (missingBy (vertex r) on).Nodup := (h.once r hr).filter _
      refine eq_singleton hnodup fun m => ?_
      rw [hmissing, hfate]
      constructor
      · rintro ⟨rfl, hreason⟩
        cases hreason
        rfl
      · rintro rfl
        exact ⟨rfl, rfl⟩
  | supplied found =>
    obtain ⟨w, hw, hid, hvertex⟩ := vertex?_built (h.supplied _ _ _ hdone hfate)
    refine ⟨?_, vertex w, hvertex, ?_⟩
    · refine List.eq_nil_iff_forall_not_mem.mpr fun m hm => ?_
      simpa [hfate] using (hmissing m).mp hm
    · have hself := h.vertex_inj hw hr
      by_cases hsame : vertex w = vertex r
      · rw [if_pos hsame]
        refine List.eq_nil_iff_forall_not_mem.mpr fun e he => ?_
        obtain ⟨found', hfate', hne, -⟩ := (hedge e).mp he
        obtain rfl : found' = found := by simpa [hfate] using hfate'.symm
        exact hne (hid.symm.trans (hself.mp hsame))
      · rw [if_neg hsame]
        have hnodup : (d.built.graph.edgesBy (vertex r) on).Nodup := hedges.filter _
        refine eq_singleton hnodup fun e => ?_
        rw [hedge]
        constructor
        · rintro ⟨found', hfate', -, q, hq, hqid, rfl⟩
          obtain rfl : found' = found := by simpa [hfate] using hfate'.symm
          have hwmem : w.plugin ∈ d.plugins := List.mem_map_of_mem hw
          rw [eq_of_id_eq h.ids hq hwmem (hqid.trans hid.symm)]
          rfl
        · rintro rfl
          have hne : found.id ≠ r.plugin.id := fun hid' => hsame (hself.mpr (hid.trans hid'))
          exact ⟨found, hfate, hne, w.plugin, List.mem_map_of_mem hw, hid, rfl⟩

theorem Accounted.accountsFor (hedges : d.edges.Nodup) {r : Reached} (hr : r ∈ d.reached) :
    AccountsFor answer hostModules d.built.graph (vertex r) r.plugin := by
  constructor
  · rfl
  · exact fun on hon => h.accounts hedges hr hon
  · intro e he hsource
    obtain ⟨p, on, hdone, hdue⟩ := (h.edges e).mp he
    have hp := h.sources p on hdone
    obtain ⟨found, hfate, hne, q, hq, hid, rfl⟩ := hdue
    obtain rfl := eq_of_id_eq h.ids hp (List.mem_map_of_mem hr) (congrArg Coordinate.id hsource)
    exact mem_declared hdone
  · intro m hm
    exact mem_declared ((h.missing r hr m).mp hm).1

end Done
end Draft

theorem Draft.Sound.forget {supply : Supply σ lease} {plugin : Plugin} {d : Draft lease}
    (h : d.Sound supply plugin) : d.forget.Sound supply plugin where
  start := h.start
  found := h.found
  ids := h.ids
  answers _ _ hn := by cases hn
  edges := h.edges
  ends := h.ends

theorem Draft.Accounted.accounting {supply : Supply σ lease}
    {answer : String × Bool → Found lease} {hostModules : List String} {plugin : Plugin}
    {d : Draft lease} (h : d.Accounted answer hostModules (d.plugins.flatMap declared))
    (hfind : ∀ on s, ((supply.find on).run s).1 = answer on.key) (hsound : d.Sound supply plugin) :
    Accounting answer hostModules plugin d.plugins.tail d.built := by
  have hplugins : plugin :: d.plugins.tail = d.plugins := by
    obtain ⟨rest, hrest⟩ := List.head?_eq_some_iff.mp hsound.start
    rw [hrest, List.tail_cons]
  constructor
  · intro p hp
    obtain ⟨on, s, hfound⟩ := hsound.found p hp
    rw [hfind] at hfound
    exact ⟨on.key, hfound⟩
  · simp [built, plugins, reached]
  · rw [hplugins, vertices_built]
    refine List.forall₂_map_left_iff.mpr (List.forall₂_map_right_iff.mpr ?_)
    exact List.forall₂_same.mpr fun r hr => h.accountsFor hsound.edges hr
  · intro e he
    obtain ⟨p, hp, hsource⟩ := List.mem_map.mp (hsound.ends e he).1
    obtain ⟨r, hr, rfl⟩ := List.mem_map.mp hp
    rw [vertices_built]
    exact ⟨vertex r, List.mem_map_of_mem hr, hsource.symm⟩

/-- The graph of a plugin loses nothing and invents nothing. Where answers depend on no more than the
id and the kind of what is looked for, only plugins of finitely many ids are found and nobody asks for
the end, there is a graph, which every limit that is great enough gives. It accounts for all that its
plugins declare, the finder is asked for nothing twice, and a finder that is asked anew for each
dependency gives the same. -/
theorem build_accounts (supply : Supply σ lease) {answer : String × Bool → Found lease}
    (hfind : ∀ on s, ((supply.find on).run s).1 = answer on.key) {ids : List String}
    (hids : ∀ key p, (answer key).plugin? = some p → p.id ∈ ids)
    (hquiet : ∀ s, (supply.isCancelled.run s).1 = false) (hostModules : List String)
    (plugin : Plugin) (s : σ) :
    (∀ limit, ((build supply hostModules limit plugin).run s).1
        = buildAnew answer hostModules limit plugin)
      ∧ ∃ b others, Accounting answer hostModules plugin others b
        ∧ ∀ limit, ids.length < limit →
          ((build supply hostModules limit plugin).run s).1 = .ok b
          ∧ ∃ s' asked, (build supply.recorded hostModules limit plugin).run (s, [])
            = (.ok b, (s', asked)) ∧ asked.Nodup := by
  have hanew (limit : Nat) : ((build supply hostModules limit plugin).run s).1
      = buildAnew answer hostModules limit plugin :=
    build_eq_buildAnew hfind hquiet hostModules limit plugin s
  have hcan (p : Plugin) (hp : supply.CanFind p) : p.id ∈ ids := by
    obtain ⟨on, s, hfound⟩ := hp
    rw [hfind] at hfound
    exact hids on.key p hfound
  obtain ⟨d, s', hrun, hsound, -⟩ := Draft.complete_sound supply hostModules plugin hcan hquiet s
  have hbuild (limit : Nat) (hlimit : ids.length < limit) :
      (build supply hostModules limit plugin).run s = (.ok d.built, s') :=
    build_of_complete (hrun limit hlimit)
  have hend := completeAnew_of_complete hfind hquiet (hrun (ids.length + 1) (Nat.lt_succ_self _))
  have hdone : d.forget.Accounted answer hostModules (d.forget.plugins.flatMap Draft.declared) :=
    (Draft.accounted_start answer hostModules plugin).completeAnew hend
  refine ⟨hanew, d.built, d.plugins.tail, hdone.accounting hfind hsound.forget, ?_⟩
  intro limit hlimit
  constructor
  · rw [hbuild limit hlimit]
  · refine nodup_asked hfind hquiet ?_ s
    rw [← hanew limit, hbuild limit hlimit]

/-- A finder that answers so without a memory of its own. -/
def Supply.fixed (answer : String × Bool → Found lease) : Supply Unit lease where
  find on := pure (answer on.key)
  giveBack _ := pure ()
  isCancelled := pure false

/-- A plugin that declares one thing twice, the host's, its own, and what nobody has. -/
def tool : Plugin where
  descriptor := { id := "tool", version := "1", dependencies :=
    [{ id := "host", onModule := true }, { id := "git" }, { id := "git", optional := true },
      { id := "vcs", onModule := true }, { id := "tool.core", onModule := true },
      { id := "gone" }, { id := "gone", optional := true }] }
  classes := .empty

def git (version : String) : Plugin where
  descriptor := { id := "git", version, dependencies := [{ id := "tool" }, { id := "gone" }] }
  classes := .empty

/-- Two versions of one plugin, the first by its id and the second by its module. -/
def shelf : String × Bool → Found Nat
  | ("git", false) => .leased 1 (git "1")
  | ("vcs", true) => .leased 2 (git "2")
  | ("tool", false) | ("tool.core", true) => .present tool
  | _ => .missing "not found"

theorem id_of_shelf {key : String × Bool} {p : Plugin} (h : (shelf key).plugin? = some p) :
    p.id ∈ ["git", "tool"] := by
  unfold shelf at h
  split at h <;> cases h <;> decide

theorem build_accounts_shelf :
    (∀ limit, ((build (.fixed shelf) ["host"] limit tool).run ()).1
        = buildAnew shelf ["host"] limit tool)
      ∧ ∃ b others, Accounting shelf ["host"] tool others b
        ∧ (∀ limit, 2 < limit → ((build (.fixed shelf) ["host"] limit tool).run ()).1 = .ok b
          ∧ ∃ s' asked, (build (Supply.fixed shelf).recorded ["host"] limit tool).run ((), [])
            = (.ok b, (s', asked)) ∧ asked.Nodup)
        ∧ b.graph.edges.map (fun e => (e.target.display, e.dependency.display))
          = [("git:1", "plugin git"), ("git:1", "plugin git (optional)"), ("git:1", "module vcs"),
            ("tool:1", "plugin tool")]
        ∧ b.graph.vertices.map (·.missing.length) = [2, 1] := by
  have hfind (on : Dependency) (s : Unit) : (((Supply.fixed shelf).find on).run s).1 = shelf on.key :=
    rfl
  obtain ⟨hanew, b, others, haccounting, hbuild⟩ :=
    build_accounts (.fixed shelf) hfind (fun _ _ => id_of_shelf) (fun _ => rfl) ["host"] tool ()
  refine ⟨hanew, b, others, haccounting, hbuild, ?_⟩
  have hthree := (hbuild 3 (by decide)).1
  cases hthree
  decide

end Linkage.Graph

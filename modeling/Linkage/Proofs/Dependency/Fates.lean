import Linkage.Proofs.Dependency.Memo

/-! What becomes of each dependency that is followed, and where a draft shows it. -/
namespace Linkage

/-- What becomes of a dependency. -/
inductive Fate where
  /-- The host has the module. -/
  | builtIn
  | supplied (plugin : Plugin)
  | missing (reason : String)

def Dependency.fate {lease : Type} (answer : String × Bool → Found lease)
    (hostModules : List String) (on : Dependency) : Fate :=
  if on.isBuiltIn hostModules then .builtIn
  else
    match answer on.key with
    | .missing reason => .missing reason
    | .leased _ plugin | .present plugin => .supplied plugin

namespace Graph

variable {lease : Type}

namespace Draft

variable {answer : String × Bool → Found lease} {hostModules : List String} {d d' : Draft lease}
  {done : List (Plugin × Dependency)} {p : Plugin} {on : Dependency} {number : Nat}
  {target : Target}

/-- A plugin's dependency leads to another plugin by this edge. -/
def EdgeDue (answer : String × Bool → Found lease) (hostModules : List String)
    (plugins : List Plugin) (p : Plugin) (on : Dependency) (e : Edge) : Prop :=
  ∃ found, on.fate answer hostModules = .supplied found ∧ found.id ≠ p.id
    ∧ ∃ q ∈ plugins, q.id = found.id ∧ e = ⟨p.coordinate, q.coordinate, on⟩

/-- What a draft shows when the dependencies that are done were followed. -/
structure Accounted (answer : String × Bool → Found lease) (hostModules : List String)
    (done : List (Plugin × Dependency)) (d : Draft lease) : Prop where
  ids : (d.plugins.map (·.id)).Nodup
  sources : ∀ p on, (p, on) ∈ done → p ∈ d.plugins
  supplied : ∀ p on found, (p, on) ∈ done → on.fate answer hostModules = .supplied found →
    ∃ q ∈ d.plugins, q.id = found.id
  edges : ∀ e, e ∈ d.edges ↔
    ∃ p on, (p, on) ∈ done ∧ EdgeDue answer hostModules d.plugins p on e
  missing : ∀ r ∈ d.reached, ∀ m, m ∈ r.missing ↔
    (r.plugin, m.dependency) ∈ done ∧ m.dependency.fate answer hostModules = .missing m.reason
  once : ∀ r ∈ d.reached, r.missing.Nodup

theorem eq_of_id_eq (hids : (d.plugins.map (·.id)).Nodup) {q : Plugin} (hp : p ∈ d.plugins)
    (hq : q ∈ d.plugins) (hid : p.id = q.id) : p = q :=
  List.inj_on_of_nodup_map hids hp hq hid

theorem Accounted.add (h : d.Accounted answer hostModules done) (hnew : d.number? p.id = none)
    (held : Option lease) : (d.add p held).Accounted answer hostModules done := by
  have hother := number?_eq_none_iff.mp hnew
  -- what is done led to a plugin that is there, so no edge of it is due to the one that is new
  have hdue (q : Plugin) (on : Dependency) (e : Edge) (hdone : (q, on) ∈ done) :
      EdgeDue answer hostModules (d.plugins ++ [p]) q on e
        ↔ EdgeDue answer hostModules d.plugins q on e := by
    constructor
    · rintro ⟨found, hfate, hne, target, htarget, hid, rfl⟩
      obtain ⟨old, hold, holdid⟩ := h.supplied q on found hdone hfate
      rcases List.mem_append.mp htarget with htarget | htarget
      · exact ⟨found, hfate, hne, target, htarget, hid, rfl⟩
      · obtain rfl := List.mem_singleton.mp htarget
        exact absurd (holdid.trans hid.symm) (hother old hold)
    · rintro ⟨found, hfate, hne, target, htarget, hid, rfl⟩
      exact ⟨found, hfate, hne, target, List.mem_append_left _ htarget, hid, rfl⟩
  constructor
  · exact nodup_ids_add h.ids hnew held
  · intro q on hdone
    simp [h.sources q on hdone]
  · intro q on found hdone hfate
    obtain ⟨target, htarget, hid⟩ := h.supplied q on found hdone hfate
    exact ⟨target, by simp [htarget], hid⟩
  · intro e
    rw [edges_add, plugins_add, h.edges]
    constructor
    · rintro ⟨q, on, hdone, hedge⟩
      exact ⟨q, on, hdone, (hdue q on e hdone).mpr hedge⟩
    · rintro ⟨q, on, hdone, hedge⟩
      exact ⟨q, on, hdone, (hdue q on e hdone).mp hedge⟩
  · intro r hr m
    rw [reached_add] at hr
    rcases List.mem_append.mp hr with hr | hr
    · exact h.missing r hr m
    · obtain rfl := List.mem_singleton.mp hr
      constructor
      · intro hm
        cases hm
      · rintro ⟨hdone, -⟩
        exact absurd rfl (hother p (h.sources p _ hdone))
  · intro r hr
    rw [reached_add] at hr
    rcases List.mem_append.mp hr with hr | hr
    · exact h.once r hr
    · obtain rfl := List.mem_singleton.mp hr
      exact List.nodup_nil

/-- One more dependency is done when its edge is there, or its missing entry. -/
theorem Accounted.more (h : d.Accounted answer hostModules done) (hp : p ∈ d.plugins)
    (hplugins : d'.plugins = d.plugins)
    (hsupplied : ∀ found, on.fate answer hostModules = .supplied found →
      ∃ q ∈ d.plugins, q.id = found.id)
    (hedges : ∀ e, e ∈ d'.edges ↔ e ∈ d.edges ∨ EdgeDue answer hostModules d.plugins p on e)
    (hmissing : ∀ r' ∈ d'.reached, ∃ r ∈ d.reached, r.plugin = r'.plugin
      ∧ (r.missing.Nodup → r'.missing.Nodup) ∧ ∀ m, m ∈ r'.missing ↔ m ∈ r.missing
        ∨ r.plugin = p ∧ m.dependency = on ∧ on.fate answer hostModules = .missing m.reason) :
    d'.Accounted answer hostModules (done ++ [(p, on)]) := by
  constructor
  · rw [hplugins]
    exact h.ids
  · intro q on' hdone
    rw [hplugins]
    rcases List.mem_append.mp hdone with hdone | hdone
    · exact h.sources q on' hdone
    · obtain ⟨rfl, rfl⟩ := Prod.mk.inj (List.mem_singleton.mp hdone)
      exact hp
  · intro q on' found hdone hfate
    rw [hplugins]
    rcases List.mem_append.mp hdone with hdone | hdone
    · exact h.supplied q on' found hdone hfate
    · obtain ⟨rfl, rfl⟩ := Prod.mk.inj (List.mem_singleton.mp hdone)
      exact hsupplied found hfate
  · intro e
    rw [hedges, h.edges, hplugins]
    constructor
    · rintro (⟨q, on', hdone, hdue⟩ | hdue)
      · exact ⟨q, on', List.mem_append_left _ hdone, hdue⟩
      · exact ⟨p, on, List.mem_append_right _ (List.mem_singleton.mpr rfl), hdue⟩
    · rintro ⟨q, on', hdone, hdue⟩
      rcases List.mem_append.mp hdone with hdone | hdone
      · exact Or.inl ⟨q, on', hdone, hdue⟩
      · obtain ⟨rfl, rfl⟩ := Prod.mk.inj (List.mem_singleton.mp hdone)
        exact Or.inr hdue
  · intro r' hr' m
    obtain ⟨r, hr, hplugin, -, hiff⟩ := hmissing r' hr'
    rw [hiff, h.missing r hr, ← hplugin, List.mem_append, List.mem_singleton, Prod.mk.injEq]
    constructor
    · rintro (⟨hdone, hfate⟩ | ⟨hsame, rfl, hfate⟩)
      · exact ⟨Or.inl hdone, hfate⟩
      · exact ⟨Or.inr ⟨hsame, rfl⟩, hfate⟩
    · rintro ⟨hdone | ⟨hsame, rfl⟩, hfate⟩
      · exact Or.inl ⟨hdone, hfate⟩
      · exact Or.inr ⟨hsame, rfl, hfate⟩
  · intro r' hr'
    obtain ⟨r, hr, -, hnodup, -⟩ := hmissing r' hr'
    exact hnodup (h.once r hr)

/-- Where a find led, by the fate of the dependency. -/
inductive Meets (answer : String × Bool → Found lease) (hostModules : List String)
    (on : Dependency) (d : Draft lease) : Target → Prop
  | missing {reason : String} (hfate : on.fate answer hostModules = .missing reason) :
    Meets answer hostModules on d (.missing reason)
  | plugin {found q : Plugin} {n : Nat} (hfate : on.fate answer hostModules = .supplied found)
      (hq : d.plugins[n]? = some q) (hid : q.id = found.id) :
    Meets answer hostModules on d (.plugin n)

theorem fate_eq_supplied (hbuiltIn : on.isBuiltIn hostModules = false) {found : Plugin}
    (hfound : (answer on.key).plugin? = some found) :
    on.fate answer hostModules = .supplied found := by
  unfold Dependency.fate
  rw [if_neg (by simp [hbuiltIn])]
  cases hanswer : answer on.key <;> rw [hanswer] at hfound <;> cases hfound <;> rfl

theorem Accounted.meet (h : d.Accounted answer hostModules done)
    (hbuiltIn : on.isBuiltIn hostModules = false) :
    let met := d.meet (answer on.key)
    met.2.Accounted answer hostModules done ∧ d.plugins <+: met.2.plugins
      ∧ Meets answer hostModules on met.2 met.1 := by
  cases hfound : (answer on.key).plugin? with
  | none =>
    obtain ⟨reason, hanswer⟩ : ∃ reason, answer on.key = .missing reason := by
      cases hanswer : answer on.key with
      | missing reason => exact ⟨reason, rfl⟩
      | leased held q => simp [hanswer, Found.plugin?] at hfound
      | present q => simp [hanswer, Found.plugin?] at hfound
    have hfate : on.fate answer hostModules = .missing reason := by
      simp [Dependency.fate, hbuiltIn, hanswer]
    rw [hanswer]
    exact ⟨h, List.prefix_rfl, .missing hfate⟩
  | some found =>
    have hfate := fate_eq_supplied hbuiltIn hfound
    cases hn : d.number? found.id with
    | some n =>
      obtain ⟨q, hq, hid⟩ := (number?_eq_some_iff h.ids).mp hn
      rw [Leads.meet (.plugin hfound hn)]
      exact ⟨h, List.prefix_rfl, .plugin hfate hq hid⟩
    | none =>
      rw [meet_of_new hfound hn]
      refine ⟨h.add hn _, by simp, .plugin (q := found) hfate ?_ rfl⟩
      rw [plugins_add, ← d.length_plugins, List.getElem?_concat_length]

theorem mem_edges_settle_iff (hids : (d.plugins.map (·.id)).Nodup)
    (hp : d.plugins[number]? = some p) (hmeets : Meets answer hostModules on d target) (e : Edge) :
    e ∈ (d.settle number on target).edges
      ↔ e ∈ d.edges ∨ EdgeDue answer hostModules d.plugins p on e := by
  cases hmeets with
  | @missing reason hfate =>
    have hnone : ¬ EdgeDue answer hostModules d.plugins p on e := by
      rintro ⟨found, hsupplied, -⟩
      simp [hfate] at hsupplied
    rw [show (d.settle number on (.missing reason)).edges = d.edges from edges_addMissing _ _ _]
    exact (or_iff_left hnone).symm
  | @plugin found q n hfate hq hid =>
    have hdue : EdgeDue answer hostModules d.plugins p on e
        ↔ found.id ≠ p.id ∧ e = ⟨p.coordinate, q.coordinate, on⟩ := by
      constructor
      · rintro ⟨found', hfate', hne, q', hq', hid', rfl⟩
        obtain rfl : found' = found := by
          rw [hfate] at hfate'
          cases hfate'
          rfl
        obtain rfl := eq_of_id_eq hids hq' (List.mem_of_getElem? hq) (hid'.trans hid.symm)
        exact ⟨hne, rfl⟩
      · rintro ⟨hne, rfl⟩
        exact ⟨found, hfate, hne, q, List.mem_of_getElem? hq, hid, rfl⟩
    by_cases hn : n = number
    · subst hn
      obtain rfl := Option.some.inj (hp.symm.trans hq)
      rw [settle_self, hdue]
      simp [hid]
    · have hne : found.id ≠ p.id := fun hsame =>
        hn (number_eq_of_id_eq hids hq hp (hid.trans hsame))
      rw [settle_of_ne hn hp hq, mem_edges_addEdge, hdue]
      simp [hne]

theorem mem_addTo {m m' : MissingDependency} {noted : List MissingDependency} :
    m' ∈ m.addTo noted ↔ m' ∈ noted ∨ m' = m := by
  unfold MissingDependency.addTo
  by_cases hm : m ∈ noted
  · rw [if_pos hm]
    refine (or_iff_left_of_imp ?_).symm
    rintro rfl
    exact hm
  · rw [if_neg hm, List.mem_append, List.mem_singleton]

theorem nodup_addTo {noted : List MissingDependency} (h : noted.Nodup) (m : MissingDependency) :
    (m.addTo noted).Nodup := by
  unfold MissingDependency.addTo
  by_cases hm : m ∈ noted
  · rw [if_pos hm]
    exact h
  · rw [if_neg hm]
    refine List.nodup_append.mpr ⟨h, List.nodup_singleton _, fun a ha b hb hab => ?_⟩
    rw [hab, List.mem_singleton.mp hb] at ha
    exact hm ha

theorem reached_settle (hids : (d.plugins.map (·.id)).Nodup) (hp : d.plugins[number]? = some p)
    (hmeets : Meets answer hostModules on d target) (r' : Reached)
    (hr' : r' ∈ (d.settle number on target).reached) :
    ∃ r ∈ d.reached, r.plugin = r'.plugin ∧ (r.missing.Nodup → r'.missing.Nodup)
      ∧ ∀ m, m ∈ r'.missing ↔ m ∈ r.missing
        ∨ r.plugin = p ∧ m.dependency = on ∧ on.fate answer hostModules = .missing m.reason := by
  cases hmeets with
  | @plugin found q n hfate hq hid =>
    have hreached : (d.settle number on (.plugin n)).reached = d.reached := by
      by_cases hn : n = number
      · rw [hn, settle_self]
      · rw [settle_of_ne hn hp hq, reached_addEdge]
    rw [hreached] at hr'
    refine ⟨r', hr', rfl, id, fun m => (or_iff_left ?_).symm⟩
    rintro ⟨-, -, hmissing⟩
    simp [hfate] at hmissing
  | @missing reason hfate =>
    have hreached : (d.settle number on (.missing reason)).reached = d.reached.modify number
        fun r => { r with missing := MissingDependency.addTo ⟨on, reason⟩ r.missing } :=
      reached_addMissing _ _ _
    rw [hreached] at hr'
    obtain ⟨k, hk⟩ := List.mem_iff_getElem?.mp hr'
    rw [List.getElem?_modify] at hk
    obtain ⟨r, hr, hchanged⟩ := Option.map_eq_some_iff.mp hk
    have hplugin : d.plugins[k]? = some r.plugin := by rw [d.getElem?_plugins, hr]; rfl
    by_cases hnumber : number = k
    · subst hnumber
      obtain rfl := Option.some.inj (hp.symm.trans hplugin)
      rw [if_pos rfl] at hchanged
      subst hchanged
      refine ⟨r, List.mem_of_getElem? hr, rfl, fun h => nodup_addTo h _, fun m => ?_⟩
      rw [mem_addTo, hfate]
      refine or_congr_right ⟨?_, ?_⟩
      · rintro rfl
        exact ⟨rfl, rfl, rfl⟩
      · rintro ⟨-, hon, hreason⟩
        cases m
        cases hon
        cases hreason
        rfl
    · rw [if_neg hnumber] at hchanged
      obtain rfl : r = r' := hchanged
      refine ⟨r, List.mem_of_getElem? hr, rfl, id, fun m => (or_iff_left ?_).symm⟩
      rintro ⟨hsame, -⟩
      exact hnumber (number_eq_of_id_eq hids hp hplugin (congrArg Plugin.id hsame.symm))

theorem getElem?_of_prefix {α : Type} {as bs : List α} (h : as <+: bs) {n : Nat} {a : α}
    (ha : as[n]? = some a) : bs[n]? = some a := by
  obtain ⟨hn, rfl⟩ := List.getElem?_eq_some_iff.mp ha
  exact List.prefix_iff_getElem?.mp h n hn

theorem Accounted.followAnew (h : d.Accounted answer hostModules done)
    (hp : d.plugins[number]? = some p) (on : Dependency) :
    let d' := d.followAnew answer hostModules number on
    d'.Accounted answer hostModules (done ++ [(p, on)]) ∧ d.plugins <+: d'.plugins := by
  unfold Draft.followAnew
  cases hbuiltIn : on.isBuiltIn hostModules with
  | true =>
    have hfate : on.fate answer hostModules = .builtIn := by simp [Dependency.fate, hbuiltIn]
    rw [if_pos rfl]
    refine ⟨h.more (List.mem_of_getElem? hp) rfl ?_ ?_ ?_, List.prefix_rfl⟩
    · intro found hsupplied
      simp [hfate] at hsupplied
    · intro e
      refine (or_iff_left ?_).symm
      rintro ⟨found, hsupplied, -⟩
      simp [hfate] at hsupplied
    · intro r hr
      refine ⟨r, hr, rfl, id, fun m => (or_iff_left ?_).symm⟩
      rintro ⟨-, -, hmissing⟩
      simp [hfate] at hmissing
  | false =>
    obtain ⟨hmet, hprefix, hmeets⟩ := h.meet hbuiltIn
    have hp' := getElem?_of_prefix hprefix hp
    rw [if_neg Bool.false_ne_true]
    refine ⟨hmet.more (List.mem_of_getElem? hp') (plugins_settle _ _ _ _) ?_
      (mem_edges_settle_iff hmet.ids hp' hmeets) (reached_settle hmet.ids hp' hmeets), ?_⟩
    · intro found hsupplied
      generalize (d.meet (answer on.key)).1 = target, (d.meet (answer on.key)).2 = d' at hmeets
      cases hmeets with
      | missing hfate =>
        simp [hfate] at hsupplied
      | plugin hfate hq hid =>
        rw [hfate] at hsupplied
        cases hsupplied
        exact ⟨_, List.mem_of_getElem? hq, hid⟩
    · rw [plugins_settle]
      exact hprefix

theorem Accounted.expandAnew (h : d.Accounted answer hostModules done)
    (hp : d.plugins[number]? = some p) (deps : List Dependency) :
    let d' := deps.foldl (Draft.followAnew answer hostModules number) d
    d'.Accounted answer hostModules (done ++ deps.map (p, ·)) ∧ d.plugins <+: d'.plugins := by
  induction deps generalizing d done with
  | nil =>
    rw [List.map_nil, List.append_nil]
    exact ⟨h, List.prefix_rfl⟩
  | cons on rest ih =>
    obtain ⟨hfollowed, hprefix⟩ := h.followAnew hp on
    have hp' : (d.followAnew answer hostModules number on).plugins[number]? = some p :=
      getElem?_of_prefix hprefix hp
    obtain ⟨hdone, hrest⟩ := ih hfollowed hp'
    rw [List.append_assoc] at hdone
    exact ⟨hdone, hprefix.trans hrest⟩

/-- What a plugin declares. -/
def declared (p : Plugin) : List (Plugin × Dependency) := p.descriptor.dependencies.map (p, ·)

theorem Accounted.completeAnew {limit : Nat}
    (h : d.Accounted answer hostModules ((d.plugins.take number).flatMap declared))
    (hend : d.completeAnew answer hostModules limit number = some d') :
    d'.Accounted answer hostModules (d'.plugins.flatMap declared) := by
  have hall {d : Draft lease} {number : Nat} (hreached : d.reached[number]? = none)
      (h : d.Accounted answer hostModules ((d.plugins.take number).flatMap declared)) :
      d.Accounted answer hostModules (d.plugins.flatMap declared) := by
    have hlength : d.plugins.length ≤ number := by
      rw [d.length_plugins]
      exact List.getElem?_eq_none_iff.mp hreached
    rwa [List.take_of_length_le hlength] at h
  induction limit generalizing d number with
  | zero =>
    cases hreached : d.reached[number]? with
    | some r =>
      rw [completeAnew_zero hreached] at hend
      cases hend
    | none =>
      rw [completeAnew_of_none hreached] at hend
      cases hend
      exact hall hreached h
  | succ limit ih =>
    cases hreached : d.reached[number]? with
    | none =>
      rw [completeAnew_of_none hreached] at hend
      cases hend
      exact hall hreached h
    | some r =>
      have hp : d.plugins[number]? = some r.plugin := by rw [d.getElem?_plugins, hreached]; rfl
      rw [completeAnew_succ hreached] at hend
      obtain ⟨hdone, hprefix⟩ := h.expandAnew hp r.plugin.descriptor.dependencies
      refine ih ?_ hend
      have hlt := (List.getElem?_eq_some_iff.mp hp).1
      obtain ⟨rest, hrest⟩ := hprefix
      rw [← hrest, List.take_append_of_le_length hlt, List.take_add_one, hp, List.flatMap_append]
      simpa [declared] using hdone

theorem accounted_start (answer : String × Bool → Found lease) (hostModules : List String)
    (plugin : Plugin) : Accounted answer hostModules [] { start := ⟨plugin, []⟩ } := by
  constructor
  · exact List.nodup_singleton _
  · simp
  · simp
  · simp
  · simp [reached]
  · simp [reached]

end Draft
end Graph
end Linkage

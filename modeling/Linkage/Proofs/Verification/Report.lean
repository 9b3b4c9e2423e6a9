import Linkage.Proofs.Dependency.Accounting
import Linkage.Proofs.Verification.Events

/-! What a report says of a verification: the graph, the check and the verdict hang together. -/
namespace Linkage

variable {σ lease : Type}

/-- The dependency means the plugin: by a module that it has, or by its id. -/
def Dependency.Means (on : Dependency) (p : Plugin) : Prop :=
  if on.onModule then p.descriptor.providesModule on.id = true else p.id = on.id

/-- The plugin that was found, with its lease if it has one. -/
def Found.supply? : Found lease → Option (Option lease × Plugin)
  | .leased held plugin => some (some held, plugin)
  | .present plugin => some (none, plugin)
  | .missing _ => none

namespace Verification

/-- Whatever its state, the depot finds the same for one id and kind, and no more plugins than its
size. What it says where it finds nothing does not matter. -/
structure Depot.Steady (depot : Depot σ lease)
    (supplies : String × Bool → Option (Option lease × Plugin)) : Prop where
  find : ∀ on s, ((depot.find on).run s).1.supply? = supplies on.key
  size : ∃ ids : List String, ids.length ≤ depot.size
    ∧ ∀ key found, supplies key = some found → found.2.id ∈ ids

/-- The plugin of a host that a look for an id and a kind ends with. -/
def bundled? (host : Host) (key : String × Bool) : Option Plugin :=
  host.bundled.find? fun p => if key.2 then p.descriptor.providesModule key.1 else p.id == key.1

/-- What a verification finds for an id and a kind: what comes with the host, or else what the depot
has. -/
def answerOf (host : Host) (supplies : String × Bool → Option (Option lease × Plugin))
    (key : String × Bool) : Found lease :=
  match bundled? host key, supplies key with
  | some p, _ => .present p
  | none, some (some held, p) => .leased held p
  | none, some (none, p) => .present p
  | none, none => .missing "not found"

theorem bundled?_eq_none_iff {host : Host} {on : Dependency} :
    bundled? host on.key = none ↔ ∀ p ∈ host.bundled, ¬ on.Means p := by
  unfold bundled? Dependency.Means Dependency.key
  rw [List.find?_eq_none]
  cases on.onModule <;> simp

variable {o : Observer σ} {depot : Depot σ lease} {host : Host}
  {supplies : String × Bool → Option (Option lease × Plugin)}

theorem find_supply (hdepot : depot.Steady supplies) (on : Dependency) (s : σ) :
    (((supply o depot host).find on).run s).1 = answerOf host supplies on.key := by
  have hfound := hdepot.find on s
  unfold supply answerOf
  dsimp only
  unfold Finder.firstOf
  rw [Graph.run_bind, ← hfound]
  have hhost : host.bundled.find? (fun p =>
      if on.onModule then p.descriptor.providesModule on.id else p.id == on.id)
      = bundled? host on.key := rfl
  have hfirst : (Finder.bundled host.bundled on : StateM σ (Found lease)).run s
      = ((bundled? host on.key).elim
        (.missing s!"{on.display} is not bundled with the host") .present, s) := by
    unfold Finder.bundled
    dsimp only
    rw [hhost]
    cases bundled? host on.key <;> rfl
  rw [hfirst]
  cases bundled? host on.key with
  | some p => rfl
  | none =>
    dsimp only [Option.elim]
    unfold Finder.firstOf
    rw [Graph.run_bind]
    obtain ⟨⟨found, s'⟩, hrun⟩ : ∃ r, (depot.find on).run s = r := ⟨_, rfl⟩
    rw [hrun]
    cases found <;> rfl

theorem answerOf_eq_missing_iff {key : String × Bool} {reason : String} :
    answerOf host supplies key = .missing reason
      ↔ bundled? host key = none ∧ supplies key = none ∧ reason = "not found" := by
  unfold answerOf
  rcases bundled? host key with _ | p
  · rcases supplies key with _ | ⟨_ | held, p⟩ <;> simp [eq_comm]
  · simp

theorem id_of_answerOf {ids : List String}
    (hids : ∀ key found, supplies key = some found → found.2.id ∈ ids) {key : String × Bool}
    {p : Plugin} (h : (answerOf host supplies key).plugin? = some p) :
    p.id ∈ ids ++ host.bundled.map (·.id) := by
  rw [List.mem_append]
  unfold answerOf at h
  split at h
  · next hbundled =>
    cases h
    exact Or.inr (List.mem_map_of_mem (List.mem_of_find?_eq_some hbundled))
  · next hsupplied =>
    cases h
    exact Or.inl (hids _ _ hsupplied)
  · next hsupplied =>
    cases h
    exact Or.inl (hids _ _ hsupplied)
  · exact nomatch h

/-- The graph is built, accounts for what its plugins declare and has no id twice. -/
theorem build_supply (host : Host) (hdepot : depot.Steady supplies)
    (hquiet : ∀ s, (o.isCancelled.run s).1 = false) (plugin : Plugin) (s : σ) :
    ∃ built s' others, (Graph.build (supply o depot host) host.modules
        (depot.size + host.bundled.length + 1) plugin).run s = (.ok built, s')
      ∧ Graph.Accounting (answerOf host supplies) host.modules plugin others built
      ∧ (built.graph.vertices.map (·.coordinate.id)).Nodup := by
  obtain ⟨ids, hsize, hids⟩ := hdepot.size
  have hfind (on : Dependency) (s : σ) : (((supply o depot host).find on).run s).1
      = answerOf host supplies on.key := find_supply hdepot on s
  have hcan (p : Plugin) (hp : (supply o depot host).CanFind p) :
      p.id ∈ ids ++ host.bundled.map (·.id) := by
    obtain ⟨on, s, hfound⟩ := hp
    rw [hfind] at hfound
    exact id_of_answerOf hids hfound
  obtain ⟨d, s', hrun, hsound, hconnected⟩ :=
    Graph.Draft.complete_sound (supply o depot host) host.modules plugin hcan hquiet s
  have hlimit : (ids ++ host.bundled.map (·.id)).length < depot.size + host.bundled.length + 1 := by
    rw [List.length_append, List.length_map]
    omega
  have hanew := Graph.completeAnew_of_complete hfind hquiet (hrun _ hlimit)
  have hstart := Graph.Draft.accounted_start (answerOf host supplies) host.modules plugin
  have hdone := hstart.completeAnew hanew
  exact ⟨d.built, s', d.plugins.tail, Graph.build_of_complete (hrun _ hlimit),
    hdone.accounting hfind hsound.forget, (hsound.wellFormed hconnected).ids⟩

/-- A dependency that the host does not have built in, and that neither a plugin that comes with the
host nor the depot supplies. -/
def Unsupplied (host : Host) (supplies : String × Bool → Option (Option lease × Plugin))
    (on : Dependency) : Prop :=
  on.isBuiltIn host.modules = false ∧ (∀ p ∈ host.bundled, ¬ on.Means p) ∧ supplies on.key = none

theorem fate_eq_missing_iff {on : Dependency} :
    (∃ reason, on.fate (answerOf host supplies) host.modules = .missing reason)
      ↔ Unsupplied host supplies on := by
  have hanswer : (∃ reason, answerOf host supplies on.key = .missing reason)
      ↔ (∀ p ∈ host.bundled, ¬ on.Means p) ∧ supplies on.key = none := by
    simp [answerOf_eq_missing_iff, bundled?_eq_none_iff]
  unfold Unsupplied Dependency.fate
  rw [← hanswer]
  cases on.isBuiltIn host.modules
  · cases answerOf host supplies on.key <;> simp
  · simp

/-- What an account lists as missing of a plugin is what is not supplied. -/
theorem missing_ne_nil_iff {g : Graph} {v : Vertex} {p : Plugin}
    (h : g.AccountsFor (answerOf host supplies) host.modules v p) :
    v.missing ≠ [] ↔ ∃ on ∈ p.descriptor.dependencies, Unsupplied host supplies on := by
  constructor
  · intro hmissing
    obtain ⟨m, hm⟩ := List.exists_mem_of_ne_nil _ hmissing
    have hdeclared := h.missing m hm
    refine ⟨m.dependency, hdeclared, fate_eq_missing_iff.mp ?_⟩
    have haccount := h.accounts m.dependency hdeclared
    have hlisted : m ∈ Graph.missingBy v m.dependency :=
      List.mem_filter.mpr ⟨hm, decide_eq_true rfl⟩
    cases hfate : m.dependency.fate (answerOf host supplies) host.modules with
    | missing reason => exact ⟨reason, rfl⟩
    | builtIn =>
      rw [hfate] at haccount
      rw [haccount.2] at hlisted
      exact absurd hlisted List.not_mem_nil
    | supplied found =>
      rw [hfate] at haccount
      rw [haccount.1] at hlisted
      exact absurd hlisted List.not_mem_nil
  · rintro ⟨on, hon, hunsupplied⟩ hnil
    obtain ⟨reason, hfate⟩ := fate_eq_missing_iff.mpr hunsupplied
    have haccount := h.accounts on hon
    rw [hfate] at haccount
    simpa [Graph.missingBy, hnil] using haccount.2

/-- No vertex but the first has the plugin's id, so nothing that is missing is left out. -/
theorem graphWarnings_eq {g : Graph} (hids : (g.vertices.map (·.coordinate.id)).Nodup) :
    graphWarnings g = g.transitiveMissing.map fun (c, m) => .missingTransitive c m := by
  have hother : g.start.coordinate.id ∉ g.others.map (·.coordinate.id) :=
    (List.nodup_cons.mp hids).1
  unfold graphWarnings
  rw [List.filter_eq_self.mpr]
  rintro ⟨c, m⟩ hmissing
  obtain ⟨v, hv, hmem⟩ := List.mem_flatMap.mp hmissing
  obtain ⟨_, _, ⟨⟩⟩ := List.mem_map.mp hmem
  refine decide_eq_true fun hid => hother ?_
  rw [← hid]
  exact List.mem_map_of_mem hv

theorem rangeWarnings_ne_nil_iff {d : Descriptor} {version : HostVersion} :
    rangeWarnings d version ≠ [] ↔ d.isCompatibleWith version = false := by
  unfold rangeWarnings
  cases d.isCompatibleWith version <;> simp

theorem transitiveMissing_ne_nil_iff {g : Graph} :
    g.transitiveMissing ≠ [] ↔ ∃ v ∈ g.others, v.missing ≠ [] := by
  simp [Graph.transitiveMissing, List.flatMap_eq_nil_iff]

theorem invalid_ne_nil_iff (env : Check.Surroundings) (filters : List Filter) (plugin : Classpath)
    (problems : List Problem) : (Check.outcomeOf env filters plugin problems).invalid ≠ []
      ↔ ∃ name ∈ plugin.classNames, ∃ message, plugin.lookup name = .invalid message := by
  unfold Check.outcomeOf Check.Outcome.look
  change ¬ [] ++ List.filterMap _ plugin.classNames = [] ↔ _
  rw [List.nil_append, List.filterMap_eq_nil_iff, not_forall]
  refine exists_congr fun name => ?_
  cases plugin.lookup name <;> simp

/-- Something about the plugin is odd: the host is out of its range, a plugin that it depends on
misses something, or one of its classes is not sound. -/
def Odd (plugin : Plugin) (host : Host) (graph : Graph) : Prop :=
  plugin.descriptor.isCompatibleWith host.version = false
    ∨ (∃ v ∈ graph.others, v.missing ≠ [])
    ∨ ∃ name ∈ plugin.classes.classNames, ∃ message, plugin.classes.lookup name = .invalid message

/-- A report says what the graph and the check come to, and its verdict is the gravest that applies:
something of the plugin's own dependencies is missing, there are problems, something is odd, or
nothing of that. -/
structure Tally (params : Parameters) (plugin : Plugin) (host : Host)
    (supplies : String × Bool → Option (Option lease × Plugin)) (others : List Plugin)
    (built : Graph.Built lease) (outcome : Check.Outcome) (report : Report) : Prop where
  subject : report.plugin = plugin.coordinate ∧ report.host = host.version
  graph : report.verdict.graph? = some built.graph
  accounting : Graph.Accounting (answerOf host supplies) host.modules plugin others built
  yields : Check.Yields ⟨plugin.id, classpath params plugin (others.map (·.classes)) host,
    Check.externalPrefixesOf params.externalPrefixes⟩ params.filters plugin.classes outcome
  problems : report.verdict.problems = outcome.problems
  ignored : report.ignored = outcome.ignored
  warnings : report.verdict.warnings = rangeWarnings plugin.descriptor host.version
    ++ built.graph.transitiveMissing.map (fun (c, m) => .missingTransitive c m)
    ++ outcome.invalid.map fun (name, message) => .invalidClass name message
  missing : report.verdict.kind = .missingDependencies ↔
    ∃ on ∈ plugin.descriptor.dependencies, Unsupplied host supplies on
  problematic : report.verdict.kind = .problems ↔
    (∀ on ∈ plugin.descriptor.dependencies, ¬ Unsupplied host supplies on) ∧ outcome.problems ≠ []
  odd : report.verdict.kind = .warnings ↔
    (∀ on ∈ plugin.descriptor.dependencies, ¬ Unsupplied host supplies on) ∧ outcome.problems = []
      ∧ Odd plugin host built.graph
  sound : report.verdict.kind = .ok ↔
    (∀ on ∈ plugin.descriptor.dependencies, ¬ Unsupplied host supplies on) ∧ outcome.problems = []
      ∧ ¬ Odd plugin host built.graph

theorem warningsOf_eq_nil_iff {plugin : Plugin} {graph : Graph}
    (hids : (graph.vertices.map (·.coordinate.id)).Nodup) (env : Check.Surroundings)
    (filters : List Filter) (problems : List Problem) :
    warningsOf plugin host graph (Check.outcomeOf env filters plugin.classes problems) = []
      ↔ ¬ Odd plugin host graph := by
  unfold warningsOf Odd
  rw [graphWarnings_eq hids, ← rangeWarnings_ne_nil_iff, ← transitiveMissing_ne_nil_iff,
    ← invalid_ne_nil_iff env filters plugin.classes problems]
  simp only [List.append_eq_nil_iff, List.map_eq_nil_iff, ne_eq, not_or, not_not, and_assoc]

/-- How grave a verdict is, by what it is made of. -/
theorem kind_checked (graph : Graph) (problems : List Problem) (warnings : List Warning) :
    let kind := (Verdict.checked graph problems warnings).kind
    (kind = .missingDependencies ↔ graph.start.missing ≠ [])
      ∧ (kind = .problems ↔ graph.start.missing = [] ∧ problems ≠ [])
      ∧ (kind = .warnings ↔ graph.start.missing = [] ∧ problems = [] ∧ warnings ≠ [])
      ∧ (kind = .ok ↔ graph.start.missing = [] ∧ problems = [] ∧ warnings = []) := by
  unfold Verdict.kind
  cases hmissing : graph.start.missing <;> cases problems <;> cases warnings <;> simp [hmissing]

/-- A graph that accounts for what is declared and the outcome of the check along it give a report
with which they tally. -/
theorem tally_reportOf (params : Parameters) {plugin : Plugin} {others : List Plugin}
    {built : Graph.Built lease}
    (haccounting : Graph.Accounting (answerOf host supplies) host.modules plugin others built)
    (hids : (built.graph.vertices.map (·.coordinate.id)).Nodup) :
    ∃ outcome, Tally params plugin host supplies others built outcome
      (reportOf plugin host built.graph outcome) := by
  let env : Check.Surroundings := ⟨plugin.id, classpath params plugin (others.map (·.classes)) host,
    Check.externalPrefixesOf params.externalPrefixes⟩
  let outcome := Check.outcomeOf env params.filters plugin.classes
    (Check.candidates env plugin.classes)
  have hlacks : built.graph.start.missing ≠ []
      ↔ ∃ on ∈ plugin.descriptor.dependencies, Unsupplied host supplies on :=
    missing_ne_nil_iff (List.forall₂_cons.mp haccounting.vertices).1
  have hstart : built.graph.start.missing = []
      ↔ ∀ on ∈ plugin.descriptor.dependencies, ¬ Unsupplied host supplies on := by
    rw [← not_iff_not, ← ne_eq, hlacks]
    simp only [not_forall, not_not, exists_prop]
  have hodd : warningsOf plugin host built.graph outcome = [] ↔ ¬ Odd plugin host built.graph :=
    warningsOf_eq_nil_iff hids env params.filters _
  obtain ⟨hmissing, hproblems, hwarnings, hsound⟩ := kind_checked built.graph outcome.problems
    (warningsOf plugin host built.graph outcome)
  rw [ne_eq _ [], hodd, not_not] at hwarnings
  rw [hodd] at hsound
  rw [hstart] at hproblems hwarnings hsound
  refine ⟨outcome, {
    subject := ⟨rfl, rfl⟩
    graph := rfl
    accounting := haccounting
    yields := Check.yields_outcomeOf env params.filters plugin.classes
    problems := rfl
    ignored := rfl
    warnings := by
      rw [← graphWarnings_eq hids]
      rfl
    missing := hmissing.trans hlacks
    problematic := hproblems
    odd := hwarnings
    sound := hsound }⟩

/-- A report tells the whole run. Where the depot is steady and nobody asks for the end, the
verification of any plugin against any host comes to a report; graph, check and verdict tally; and who
follows the run is told of the beginning, the graph, the progress, each problem, each ignored problem
and each warning of the verdict and of the report, once each and in this order, and nothing else. -/
theorem verify_tells (params : Parameters) (o : Observer σ) (depot : Depot σ lease)
    (plugin : Plugin) (host : Host)
    {supplies : String × Bool → Option (Option lease × Plugin)} (hdepot : depot.Steady supplies)
    (hquiet : ∀ s, (o.isCancelled.run s).1 = false) (s : σ) :
    ∃ report s' others built outcome,
      (verify params o depot plugin host).run s = (.ok report, s')
      ∧ (verify params o.recorded depot.beside plugin host).run (s, [])
        = (.ok report, s', eventsOf plugin host built.graph report)
      ∧ Tally params plugin host supplies others built outcome report := by
  obtain ⟨built, s₁, others, hbuilt, haccounting, hids⟩ := build_supply host hdepot hquiet plugin
    ((o.notify (openingOf plugin host)).run s).2
  obtain ⟨outcome, htally⟩ := tally_reportOf params haccounting hids
  have hyields := htally.yields
  rw [← haccounting.classes] at hyields
  obtain ⟨s', htells⟩ := tells_verify hquiet hbuilt hyields
  exact ⟨_, s', others, built, outcome, htells.run, htells.record [], htally⟩

/-- A plugin of a depot, which depends on what nobody has. -/
def vcs : Plugin where
  descriptor := { id := "vcs", version := "2", dependencies := [{ id := "gone" }] }
  classes := .empty

/-- What the depot has: that plugin, as a module, on a lease. -/
def stock : String × Bool → Option (Option Nat × Plugin)
  | ("vcs", true) => some (some 1, vcs)
  | _ => none

def cupboard : Depot Nat Nat where
  find on := pure <|
    match stock on.key with
    | some (some held, p) => .leased held p
    | some (none, p) => .present p
    | none => .missing s!"{on.display} is not in the cupboard"
  giveBack _ := pure ()
  size := 1

theorem steady_cupboard : cupboard.Steady stock where
  find on _ := by
    unfold cupboard
    dsimp only
    rcases stock on.key with _ | ⟨_ | held, p⟩ <;> rfl
  size := by
    refine ⟨["vcs"], Nat.le_refl 1, fun key found h => ?_⟩
    unfold stock at h
    split at h
    · cases h
      decide
    · exact nomatch h

/-- Counts what it is told. -/
def counting : Observer Nat := ⟨fun _ => modify (· + 1), pure false⟩

/-- A plugin that depends on a module of the host, a plugin of the host and one of the depot, with a
class that is not sound. -/
def visitor : Plugin where
  descriptor := { id := "visitor", version := "1", dependencies :=
    [{ id := "base", onModule := true }, { id := "git" }, { id := "vcs", onModule := true }] }
  classes := .files "visitor" [("A", [0])]

def studio : Host where
  version := ⟨none, [.number 1]⟩
  classes := .empty
  bundled := [⟨{ id := "git", version := "1" }, .empty, none⟩]
  modules := ["base"]

/-- Nothing that it depends on itself is missing, and no problem is found, but all is not well. -/
theorem verify_tells_visitor : ∃ report s' others built outcome,
    (verify {} counting cupboard visitor studio).run 0 = (.ok report, s')
      ∧ (verify {} counting.recorded cupboard.beside visitor studio).run (0, [])
        = (.ok report, s', eventsOf visitor studio built.graph report)
      ∧ Tally {} visitor studio stock others built outcome report
      ∧ report.verdict.kind ≠ .missingDependencies ∧ report.verdict.kind ≠ .ok := by
  obtain ⟨report, s', others, built, outcome, hrun, hrecord, htally⟩ :=
    verify_tells {} counting cupboard visitor studio steady_cupboard (fun _ => rfl) 0
  refine ⟨report, s', others, built, outcome, hrun, hrecord, htally, fun hmissing => ?_,
    fun hok => ?_⟩
  · obtain ⟨on, hon, hbuiltIn, hbundled, hstock⟩ := htally.missing.mp hmissing
    simp only [visitor, List.mem_cons, List.not_mem_nil, or_false] at hon
    rcases hon with rfl | rfl | rfl
    · exact absurd hbuiltIn (by decide)
    · exact hbundled _ List.mem_cons_self (by simp [Dependency.Means, Plugin.id])
    · simp [stock, Dependency.key] at hstock
  · have hnames : "A" ∈ visitor.classes.classNames := by decide
    exact (htally.sound.mp hok).2.2 (Or.inr (Or.inr ⟨"A", hnames, _, rfl⟩))

end Verification
end Linkage

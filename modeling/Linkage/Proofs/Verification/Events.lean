import Linkage.Proofs.Check.Findings
import Linkage.Proofs.Dependency.Steps
import Linkage.Verification.Verifier

/-! What a verification tells, event by event. -/
namespace Linkage

variable {σ ρ α β lease : Type}

/-- The action with something else beside its state, which it leaves alone. -/
def beside (act : StateM σ α) : StateM (σ × ρ) α := fun state =>
  let (a, s) := act.run state.1
  (a, s, state.2)

theorem beside_bind (act : StateM σ α) (next : α → StateM σ β) :
    (beside (act >>= next) : StateM (σ × ρ) β) = beside act >>= fun a => beside (next a) := rfl

theorem beside_forM (act : α → StateM σ Unit) (as : List α) :
    (beside (as.forM act) : StateM (σ × ρ) Unit) = as.forM fun a => beside (act a) := by
  induction as with
  | nil => rfl
  | cons a as ih => exact bind_congr (x := beside (act a)) fun _ => ih

namespace Graph

variable {supply : Supply σ lease} {hostModules : List String}

def Supply.beside (supply : Supply σ lease) : Supply (σ × ρ) lease where
  find on := Linkage.beside (supply.find on)
  giveBack held := Linkage.beside (supply.giveBack held)
  isCancelled := Linkage.beside supply.isCancelled

namespace Draft

theorem resolve_beside (d : Draft lease) (on : Dependency) :
    (d.resolve supply.beside on : StateM (σ × ρ) _) = beside (d.resolve supply on) := by
  unfold resolve
  cases d.answers.lookup (on.id, on.onModule) with
  | some target => rfl
  | none =>
    dsimp only
    rw [beside_bind]
    refine bind_congr fun found => ?_
    cases found with
    | missing reason => rfl
    | present p => cases hn : d.number? p.id <;> simp only [hn] <;> rfl
    | leased held p => cases hn : d.number? p.id <;> simp only [hn] <;> rfl

theorem follow_beside (number : Nat) (d : Draft lease) (on : Dependency) :
    (d.follow supply.beside hostModules number on : StateM (σ × ρ) _)
      = beside (d.follow supply hostModules number on) := by
  funext state
  cases hbuiltIn : on.isBuiltIn hostModules with
  | true =>
    have hplain : d.follow supply hostModules number on state.1 = (d, state.1) :=
      follow_of_isBuiltIn hbuiltIn number d state.1
    refine (follow_of_isBuiltIn hbuiltIn number d state).trans ?_
    change (d, state) = ((d.follow supply hostModules number on state.1).1,
      (d.follow supply hostModules number on state.1).2, state.2)
    rw [hplain]
  | false =>
    have hplain : (d.follow supply hostModules number on).run state.1 = _ :=
      follow_eq hbuiltIn number d state.1
    refine (follow_eq hbuiltIn number d state).trans ?_
    unfold beside
    rw [hplain, resolve_beside]
    rfl

theorem expand_beside (number : Nat) (deps : List Dependency) (d : Draft lease) :
    (d.expand supply.beside hostModules number deps : StateM (σ × ρ) _)
      = beside (d.expand supply hostModules number deps) := by
  induction deps generalizing d with
  | nil => rfl
  | cons on rest ih =>
    unfold expand
    rw [follow_beside, beside_bind]
    exact bind_congr ih

theorem complete_beside (limit number : Nat) (d : Draft lease) :
    (d.complete supply.beside hostModules limit number : StateM (σ × ρ) _)
      = beside (d.complete supply hostModules limit number) := by
  induction limit generalizing number d with
  | zero =>
    unfold complete
    cases d.reached[number]? <;> rfl
  | succ limit ih =>
    unfold complete
    cases d.reached[number]? with
    | none => rfl
    | some r =>
      dsimp only
      rw [beside_bind]
      refine bind_congr fun asked => ?_
      cases asked with
      | true => rfl
      | false =>
        simp only [Bool.false_eq_true, if_false, expand_beside, ih]
        rfl

end Draft

/-- Nothing in the building of a graph looks at what is beside the state. -/
theorem build_beside (limit : Nat) (plugin : Plugin) :
    (build supply.beside hostModules limit plugin : StateM (σ × ρ) _)
      = beside (build supply hostModules limit plugin) := by
  unfold build
  rw [Draft.complete_beside, beside_bind]
  refine bind_congr fun ended => ?_
  match ended with
  | (.ok d, _) => rfl
  | (.error stop, leases) =>
    simp only [beside_bind, beside_forM]
    rfl

end Graph

/-- An observer that also keeps a record of all that it is told. -/
def Observer.recorded (o : Observer σ) : Observer (σ × List Event) where
  notify event state := ((), ((o.notify event).run state.1).2, state.2 ++ [event])
  isCancelled := beside o.isCancelled

/-- From `s` the action answers `a` and comes to `s'`, and with a record it adds `events` to that. -/
structure Tells (recorded : StateM (σ × List Event) α) (act : StateM σ α) (s : σ) (a : α) (s' : σ)
    (events : List Event) : Prop where
  run : act.run s = (a, s')
  record : ∀ told, recorded.run (s, told) = (a, s', told ++ events)

namespace Tells

protected theorem beside {act : StateM σ α} {s s' : σ} {a : α} (h : act.run s = (a, s')) :
    Tells (beside act) act s a s' [] where
  run := h
  record told := by
    change (((act.run s).1, (act.run s).2, told) : α × σ × List Event) = _
    rw [h, List.append_nil]

protected theorem pure (s : σ) (a : α) : Tells (Pure.pure a) (Pure.pure a) s a s [] :=
  Tells.beside rfl

protected theorem bind {recorded : StateM (σ × List Event) α} {act : StateM σ α} {s s' s'' : σ}
    {a : α} {events more : List Event} {recordedNext : α → StateM (σ × List Event) β}
    {next : α → StateM σ β} {b : β} (first : Tells recorded act s a s' events)
    (second : Tells (recordedNext a) (next a) s' b s'' more) :
    Tells (recorded >>= recordedNext) (act >>= next) s b s'' (events ++ more) where
  run := by rw [Graph.run_bind, first.run, second.run]
  record told := by rw [Graph.run_bind, first.record, second.record, List.append_assoc]

/-- The last step only puts the answer together. -/
protected theorem map {recorded : StateM (σ × List Event) α} {act : StateM σ α} {s s' : σ} {a : α}
    {events : List Event} (h : Tells recorded act s a s' events) (f : α → β) :
    Tells (f <$> recorded) (f <$> act) s (f a) s' events := by
  change Tells (recorded >>= fun a => Pure.pure (f a)) (act >>= fun a => Pure.pure (f a)) _ _ _ _
  rw [← List.append_nil events]
  exact h.bind (Tells.pure s' (f a))

end Tells

section Telling

variable (o : Observer σ)

theorem tells_notify (event : Event) (s : σ) :
    Tells (o.recorded.notify event) (o.notify event) s () ((o.notify event).run s).2 [event] :=
  ⟨rfl, fun _ => rfl⟩

theorem tells_notifyAll (f : α → Event) (as : List α) (s : σ) : ∃ s',
    Tells (as.forM fun a => o.recorded.notify (f a)) (as.forM fun a => o.notify (f a)) s () s'
      (as.map f) := by
  induction as generalizing s with
  | nil => exact ⟨s, Tells.pure s ()⟩
  | cons a as ih =>
    obtain ⟨s', hrest⟩ := ih ((o.notify (f a)).run s).2
    exact ⟨s', (tells_notify o (f a) s).bind hrest⟩

/-- How far a check of `total` classes has come after `done` of them. -/
def progressAt (total done : Nat) : Event := .progress (Float.ofNat done / Float.ofNat total)

/-- What is told of the progress of a check: all steps from none to all, unless there is nothing to
check. -/
def progressEvents (total : Nat) : List Event :=
  if total = 0 then [] else (List.range (total + 1)).map (progressAt total)

theorem tells_progress (total done : Nat) (name : String) (s : σ) : ∃ s',
    Tells ((Verification.watch o.recorded).progress done total name)
      ((Verification.watch o).progress done total name) s () s'
      (if total = 0 then [] else [progressAt total done]) := by
  unfold Verification.watch
  by_cases htotal : total = 0
  · subst htotal
    exact ⟨s, Tells.pure s ()⟩
  · simp only [if_neg htotal, if_pos (Nat.pos_of_ne_zero htotal)]
    exact ⟨_, tells_notify o _ s⟩

variable {o} (hquiet : ∀ s, (o.isCancelled.run s).1 = false)
include hquiet

theorem tells_follow (total done : Nat) (names : List String)
    (hdone : done + names.length = total) (s : σ) : ∃ s',
    Tells ((Verification.watch o.recorded).follow total done names)
      ((Verification.watch o).follow total done names) s true s'
      (if total = 0 then [] else (List.range' done (names.length + 1)).map (progressAt total)) := by
  induction names generalizing done s with
  | nil =>
    obtain rfl : done = total := hdone
    obtain ⟨s', hlast⟩ := tells_progress o done done "" s
    exact ⟨s', hlast.map fun _ => true⟩
  | cons name names ih =>
    have hasked : Tells (beside o.isCancelled) o.isCancelled s false (o.isCancelled.run s).2 [] :=
      .beside (Prod.ext (hquiet s) rfl)
    obtain ⟨s₁, hstep⟩ := tells_progress o total done name (o.isCancelled.run s).2
    obtain ⟨s₂, hrest⟩ := ih (done + 1) (by rw [← hdone, List.length_cons]; omega) s₁
    have htotal : total ≠ 0 := by rw [List.length_cons] at hdone; omega
    refine ⟨s₂, ?_⟩
    rw [if_neg htotal] at hstep hrest ⊢
    exact hasked.bind (hstep.bind hrest)

/-- A check that nobody ends early tells its progress, and nothing else. -/
theorem tells_check {env : Check.Surroundings} {filters : List Filter} {plugin : Classpath}
    {outcome : Check.Outcome} (h : Check.Yields env filters plugin outcome) (s : σ) : ∃ s',
    Tells (Check.check env filters plugin (Verification.watch o.recorded))
      (Check.check env filters plugin (Verification.watch o)) s (.ok outcome) s'
      (progressEvents plugin.classNames.length) := by
  obtain ⟨s', hfollow⟩ := tells_follow hquiet plugin.classNames.length 0 plugin.classNames
    (Nat.zero_add _) s
  refine ⟨s', ?_⟩
  rw [h, h, progressEvents, List.range_eq_range']
  exact hfollow.map (Check.ending outcome)

end Telling

namespace Verification

def Depot.beside (depot : Depot σ lease) : Depot (σ × ρ) lease where
  find on := Linkage.beside (depot.find on)
  giveBack held := Linkage.beside (depot.giveBack held)
  size := depot.size

/-- Where a verification looks for plugins. -/
def supply (o : Observer σ) (depot : Depot σ lease) (host : Host) : Graph.Supply σ lease :=
  ⟨.firstOf [.bundled host.bundled, depot.find], depot.giveBack, o.isCancelled⟩

theorem supply_recorded (o : Observer σ) (depot : Depot σ lease) (host : Host) :
    supply o.recorded depot.beside host = (supply o depot host).beside := by
  have hfind : Finder.firstOf [.bundled host.bundled, depot.beside.find]
      = fun on => (Linkage.beside (Finder.firstOf [.bundled host.bundled, depot.find] on)
        : StateM (σ × List Event) (Found lease)) := by
    funext on
    unfold Finder.firstOf
    rw [beside_bind]
    refine bind_congr fun found => ?_
    cases found with
    | leased held p => rfl
    | present p => rfl
    | missing reason =>
      unfold Finder.firstOf
      dsimp only
      rw [beside_bind]
      refine bind_congr fun found => ?_
      cases found <;> rfl
  unfold supply Graph.Supply.beside
  rw [hfind]
  rfl

/-- What a check with this outcome warns of. -/
def warningsOf (plugin : Plugin) (host : Host) (graph : Graph) (outcome : Check.Outcome) :
    List Warning :=
  rangeWarnings plugin.descriptor host.version ++ graphWarnings graph
    ++ outcome.invalid.map fun (name, message) => .invalidClass name message

/-- What is reported of a plugin with this graph and this outcome of its check. -/
def reportOf (plugin : Plugin) (host : Host) (graph : Graph) (outcome : Check.Outcome) : Report :=
  ⟨plugin.coordinate, host.version,
    .checked graph outcome.problems (warningsOf plugin host graph outcome), outcome.ignored⟩

/-- What is told of the outcome of a check. -/
def outcomeEvents (report : Report) : List Event :=
  report.verdict.problems.map .problem ++ report.ignored.map .ignored
    ++ report.verdict.warnings.map .warning

/-- What is told before all else. -/
def openingOf (plugin : Plugin) (host : Host) : Event :=
  .message s!"Verifying {plugin.coordinate.display} against {host.version.display}"

/-- All that a verification tells, in order. -/
def eventsOf (plugin : Plugin) (host : Host) (graph : Graph) (report : Report) : List Event :=
  [openingOf plugin host, .graph graph] ++ progressEvents plugin.classes.classNames.length
    ++ outcomeEvents report ++ [.verdict report]

section

variable {params : Parameters} {o : Observer σ} {plugin : Plugin} {host : Host}
  (hquiet : ∀ s, (o.isCancelled.run s).1 = false)
include hquiet

theorem tells_checkWith (graph : Graph) {dependencies : List Classpath} {outcome : Check.Outcome}
    (h : Check.Yields ⟨plugin.id, classpath params plugin dependencies host,
      Check.externalPrefixesOf params.externalPrefixes⟩ params.filters plugin.classes outcome)
    (s : σ) : ∃ s',
    Tells (checkWith params o.recorded plugin host graph dependencies)
      (checkWith params o plugin host graph dependencies) s
      (.ok (reportOf plugin host graph outcome)) s'
      (progressEvents plugin.classes.classNames.length
        ++ outcomeEvents (reportOf plugin host graph outcome)) := by
  obtain ⟨s₁, hcheck⟩ := tells_check hquiet h s
  obtain ⟨s₂, hproblems⟩ := tells_notifyAll o .problem outcome.problems s₁
  obtain ⟨s₃, hignored⟩ := tells_notifyAll o .ignored outcome.ignored s₂
  obtain ⟨s₄, hwarnings⟩ := tells_notifyAll o .warning (warningsOf plugin host graph outcome) s₃
  have hreport := Tells.pure s₄
    (Except.ok (reportOf plugin host graph outcome) : Except Check.Stop Report)
  refine ⟨s₄, ?_⟩
  have hevents : outcomeEvents (reportOf plugin host graph outcome)
      = outcome.problems.map .problem ++ (outcome.ignored.map .ignored
        ++ ((warningsOf plugin host graph outcome).map .warning ++ [])) := by
    simp [outcomeEvents, reportOf, Verdict.problems, Verdict.warnings]
  rw [hevents]
  exact hcheck.bind (hproblems.bind (hignored.bind (hwarnings.bind hreport)))

/-- Where a graph is built and the check comes to an outcome, the whole run is told. -/
theorem tells_verify {depot : Depot σ lease} {s s' : σ} {built : Graph.Built lease}
    (hbuilt : (Graph.build (supply o depot host) host.modules
      (depot.size + host.bundled.length + 1) plugin).run ((o.notify (openingOf plugin host)).run s).2
      = (.ok built, s'))
    {outcome : Check.Outcome}
    (h : Check.Yields ⟨plugin.id, classpath params plugin built.classes host,
      Check.externalPrefixesOf params.externalPrefixes⟩ params.filters plugin.classes outcome) :
    ∃ last, Tells (verify params o.recorded depot.beside plugin host)
      (verify params o depot plugin host) s (.ok (reportOf plugin host built.graph outcome)) last
      (eventsOf plugin host built.graph (reportOf plugin host built.graph outcome)) := by
  have hopening := tells_notify o (openingOf plugin host) s
  have hbuild := Tells.beside hbuilt
  rw [← Graph.build_beside, ← supply_recorded] at hbuild
  have hgraph := tells_notify o (.graph built.graph) s'
  obtain ⟨s₁, hcheck⟩ := tells_checkWith hquiet built.graph h
    ((o.notify (.graph built.graph)).run s').2
  obtain ⟨s₂, hreturn⟩ : ∃ s₂, (built.leases.forM depot.giveBack).run s₁ = ((), s₂) := ⟨_, rfl⟩
  have hreturned := Tells.beside hreturn
  rw [beside_forM] at hreturned
  let report := reportOf plugin host built.graph outcome
  have hverdict := tells_notify o (.verdict report) s₂
  have hreport := Tells.pure ((o.notify (.verdict report)).run s₂).2
    (Except.ok report : Except Check.Stop Report)
  have hevents : eventsOf plugin host built.graph report
      = [openingOf plugin host] ++ ([] ++ ([.graph built.graph]
        ++ ((progressEvents plugin.classes.classNames.length
          ++ outcomeEvents report) ++ ([] ++ ([.verdict report] ++ []))))) := by
    simp [eventsOf]
  rw [hevents]
  exact ⟨_, hopening.bind (hbuild.bind (hgraph.bind (hcheck.bind (hreturned.bind
    (hverdict.bind hreport)))))⟩

end

end Verification

end Linkage

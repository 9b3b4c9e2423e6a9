import Linkage.Proofs.Tasks.Schedules

/-! The life of a task: the ways of its state, and what its token forbids. -/
namespace Linkage

open Relation (ReflTransGen)

/-- The ways of a state: a task waits, runs and ends, or it ends without having run. -/
inductive TaskState.MovesTo : TaskState → TaskState → Prop
  | stay (state : TaskState) : MovesTo state state
  | run : MovesTo .waiting .running
  | giveUp : MovesTo .waiting .cancelled
  | refuse : MovesTo .waiting .error
  | finish {state : TaskState} (h : state.isTerminal = true) : MovesTo .running state

theorem TaskState.MovesTo.eq_of_isTerminal {state state' : TaskState} (h : state.MovesTo state')
    (hterminal : state.isTerminal = true) : state' = state := by
  cases h with
  | stay => rfl
  | run => cases hterminal
  | giveUp => cases hterminal
  | refuse => cases hterminal
  | finish => cases hterminal

theorem Task.isTerminal_complete (t : Task) (outcome : Except TaskError String) :
    (t.complete outcome).state.isTerminal = true := by
  cases outcome with
  | ok result => rfl
  | error e => cases e <;> rfl

/-- A task that waits can only end without success. -/
theorem Task.movesTo_complete_error {t : Task} (ht : t.state = .waiting) (e : TaskError) :
    t.state.MovesTo (t.complete (.error e)).state := by
  rw [ht]
  cases e with
  | cancelled => exact .giveUp
  | failed message => exact .refuse
  | crashed message => exact .refuse
  | closed => exact .refuse

theorem Task.state_complete_error_ne (t : Task) (e : TaskError) :
    (t.complete (.error e)).state ≠ .success := by
  cases e <;> simp [Task.complete]

/-- A task that is cancelled before the look after its body does not succeed. -/
theorem BodyEnd.outcome_of_cancelled (bodyEnd : BodyEnd) :
    ∃ e, bodyEnd.outcome true = .error e := by
  cases bodyEnd with
  | returned answer => exact ⟨.cancelled, rfl⟩
  | panicked message => exact ⟨.crashed message, rfl⟩

namespace Job

variable {j j' : Job}

/-- The state of a task is that of its phase. -/
def Fits (j : Job) : Prop :=
  match j.phase with
  | .queued | .granted | .cleared => j.task.state = .waiting ∧ j.task.started = false
  | .executing | .ended _ => j.task.state = .running ∧ j.task.started = true
  | .settled outcome => (j.task.state = .running ∧ j.task.started = true)
    ∨ j.task.state = .waiting ∧ j.task.started = false ∧ ∃ e, outcome = .error e
  | .completed => j.task.state.isTerminal = true

theorem fits_submitted (name : String) (body : List Action) (isCancelled : Bool) :
    (submitted name body isCancelled).Fits :=
  ⟨rfl, rfl⟩

theorem Fits.advances (h : j.Fits) (hstep : j.Advances j') :
    j'.Fits ∧ j.task.state.MovesTo j'.task.state := by
  cases hstep with
  | stay => exact ⟨h, .stay _⟩
  | cancel => exact ⟨h, .stay _⟩
  | grant t => exact ⟨h, .stay _⟩
  | quit hcancelled => exact ⟨Or.inr ⟨h.1, h.2, _, rfl⟩, .stay _⟩
  | refuse t => exact ⟨Or.inr ⟨h.1, h.2, _, rfl⟩, .stay _⟩
  | skip hcancelled => exact ⟨Or.inr ⟨h.1, h.2, _, rfl⟩, .stay _⟩
  | pass hquiet => exact ⟨h, .stay _⟩
  | start t =>
    have hwaiting : t.state = .waiting := h.1
    refine ⟨⟨rfl, rfl⟩, ?_⟩
    rw [hwaiting]
    exact .run
  | work t body progress => exact ⟨h, .stay _⟩
  | finish t bodyEnd => exact ⟨h, .stay _⟩
  | judge t bodyEnd => exact ⟨Or.inl h, .stay _⟩
  | complete t outcome =>
    refine ⟨t.isTerminal_complete outcome, ?_⟩
    rcases h with ⟨hrunning, -⟩ | ⟨hwaiting, -, e, rfl⟩
    · have hstate : t.state = .running := hrunning
      rw [hstate]
      exact .finish (t.isTerminal_complete outcome)
    · exact Task.movesTo_complete_error hwaiting e
  | join phase hdone => exact ⟨h, .stay _⟩

theorem Advances.isCancelled (hstep : j.Advances j') (h : j.task.isCancelled = true) :
    j'.task.isCancelled = true := by
  cases hstep with
  | cancel => rfl
  | _ => exact h

/-- The body has not started, and does not run. -/
structure Idle (j : Job) : Prop where
  started : j.task.started = false
  state : j.task.state ≠ .running
  phase : j.phase.isExecuting = false

/-- The body of a task never starts. -/
structure NeverStarts (j : Job) : Prop where
  fits : j.Fits
  isCancelled : j.task.isCancelled = true
  started : j.task.started = false
  uncleared : j.phase.isCleared = false

theorem NeverStarts.advances (h : j.NeverStarts) (hstep : j.Advances j') : j'.NeverStarts where
  fits := (h.fits.advances hstep).1
  isCancelled := hstep.isCancelled h.isCancelled
  started := by
    cases hstep with
    | start t => cases h.uncleared
    | _ => exact h.started
  uncleared := by
    cases hstep with
    | stay | cancel | join => exact h.uncleared
    | @pass t hquiet => exact absurd h.isCancelled (by simp [hquiet])
    | _ => rfl

theorem NeverStarts.idle (h : j.NeverStarts) : j.Idle := by
  obtain ⟨⟨t, phase⟩, hfits, hcancelled, hstarted, huncleared⟩ := j, h
  have hnot : t.started ≠ true := by simpa using hstarted
  have hwaits (hwaiting : t.state = .waiting) : t.state ≠ .running := by
    rw [hwaiting]
    decide
  cases phase with
  | queued => exact ⟨hstarted, hwaits hfits.1, rfl⟩
  | granted => exact ⟨hstarted, hwaits hfits.1, rfl⟩
  | cleared => cases huncleared
  | executing => exact absurd hfits.2 hnot
  | ended bodyEnd => exact absurd hfits.2 hnot
  | settled outcome =>
    rcases hfits with ⟨-, hs⟩ | ⟨hwaiting, -⟩
    · exact absurd hs hnot
    · exact ⟨hstarted, hwaits hwaiting, rfl⟩
  | completed =>
    refine ⟨hstarted, fun hrunning => ?_, rfl⟩
    have hterminal : t.state.isTerminal = true := hfits
    rw [hrunning] at hterminal
    cases hterminal

/-- A task never succeeds. -/
structure NeverSucceeds (j : Job) : Prop where
  fits : j.Fits
  isCancelled : j.task.isCancelled = true
  outcome : ∀ outcome, j.phase = .settled outcome → ∃ e, outcome = .error e
  state : j.task.state ≠ .success

theorem NeverSucceeds.advances (h : j.NeverSucceeds) (hstep : j.Advances j') :
    j'.NeverSucceeds := by
  refine ⟨(h.fits.advances hstep).1, hstep.isCancelled h.isCancelled, ?_, ?_⟩
  · intro outcome hphase
    cases hstep with
    | stay => exact h.outcome outcome hphase
    | cancel => exact h.outcome outcome hphase
    | join phase hdone => exact h.outcome outcome hphase
    | quit hcancelled =>
      cases hphase
      exact ⟨_, rfl⟩
    | refuse t =>
      cases hphase
      exact ⟨_, rfl⟩
    | skip hcancelled =>
      cases hphase
      exact ⟨_, rfl⟩
    | judge t bodyEnd =>
      cases hphase
      have hcancelled : t.isCancelled = true := h.isCancelled
      rw [hcancelled]
      exact bodyEnd.outcome_of_cancelled
    | _ => cases hphase
  · cases hstep with
    | complete t outcome =>
      obtain ⟨e, rfl⟩ := h.outcome outcome rfl
      exact t.state_complete_error_ne e
    | start t => simp
    | _ => exact h.state

/-- What every step keeps holds of all that becomes of a task. -/
theorem keeps {P : Job → Prop} (hstep : ∀ j j', P j → j.Advances j' → P j') (h : P j)
    (hpath : ReflTransGen Advances j j') : P j' := by
  induction hpath with
  | refl => exact h
  | tail _ hlast ih => exact hstep _ _ ih hlast

/-- A task whose token fires before the look after its body is among those that never succeed. -/
theorem Fits.neverSucceeds (h : j.Fits) (hcancelled : j.task.isCancelled = true)
    (hphase : j.phase.isJudged = false) : j.NeverSucceeds := by
  obtain ⟨t, phase⟩ := j
  refine ⟨h, hcancelled, ?_, ?_⟩
  · rintro outcome rfl
    cases hphase
  · intro hsuccess
    have hstate : t.state = .success := hsuccess
    cases phase with
    | queued => simp [Fits, hstate] at h
    | granted => simp [Fits, hstate] at h
    | cleared => simp [Fits, hstate] at h
    | executing => simp [Fits, hstate] at h
    | ended bodyEnd => simp [Fits, hstate] at h
    | settled outcome => cases hphase
    | completed => cases hphase

theorem fits_of_submitted {name : String} {body : List Action} {isCancelled : Bool}
    (hpath : ReflTransGen Advances (submitted name body isCancelled) j) : j.Fits :=
  keeps (fun _ _ h hstep => (h.advances hstep).1) (fits_submitted name body isCancelled) hpath

end Job

namespace Pool

variable {n : Nat} {p p' : Pool}

/-- What can be relied on between two steps, whatever comes next. -/
structure Safe (n : Nat) (p : Pool) : Prop where
  tasks : ∀ i t, p.scheduler.tasks[i]? = some t → ∃ phase, p.job? i = some ⟨t, phase⟩
  /-- There are no more bodies than workers, of which there is one at least. -/
  executing : p.executing ≤ max n 1
  /-- A state goes its ways only. -/
  moves : ∀ step p', p.step? step = some p' → ∀ i j, p.job? i = some j →
    ∃ j', p'.job? i = some j' ∧ j.task.state.MovesTo j'.task.state
  /-- An end is the end. -/
  final : ∀ steps p', p.run steps = some p' → ∀ i j, p.job? i = some j →
    j.task.state.isTerminal = true → ∃ j', p'.job? i = some j' ∧ j'.task.state = j.task.state
  /-- A body whose token has fired before the look in front of its start never starts. -/
  unstarted : ∀ steps p', p.run steps = some p' → ∀ i j, p.job? i = some j →
    j.task.isCancelled = true → j.task.started = false → j.phase.isCleared = false →
    ∃ j', p'.job? i = some j' ∧ j'.Idle
  /-- When all are cancelled, so are those to come, and these never start. -/
  late : ∀ all, p.step? .cancelAll = some all → ∀ steps p', all.run steps = some p' →
    ∀ i j, p'.job? i = some j → j.task.isCancelled = true ∧ (p.job? i = none → j.Idle)
  /-- A task whose token has fired before the look after its body never succeeds. -/
  unsuccessful : ∀ steps p', p.run steps = some p' → ∀ i j, p.job? i = some j →
    j.task.isCancelled = true → j.phase.isJudged = false →
    ∃ j', p'.job? i = some j' ∧ j'.task.state ≠ .success

theorem Sound.exists_phase (h : p.Sound n) {i : Nat} {t : Task}
    (ht : p.scheduler.tasks[i]? = some t) : ∃ phase, p.job? i = some ⟨t, phase⟩ := by
  have hi : i < p.phases.length := h.aligned ▸ (List.getElem?_eq_some_iff.mp ht).1
  exact ⟨p.phases[i], job?_eq_some_iff.mpr ⟨ht, List.getElem?_eq_getElem hi⟩⟩

/-- After all were cancelled, so are those to come, and these never start. -/
theorem Sound.late (h : p.Sound n) {all : Pool} (hall : p.step? .cancelAll = some all)
    {steps : List PoolStep} (hrun : all.run steps = some p') {i : Nat} {j : Job}
    (hj : p'.job? i = some j) : j.task.isCancelled = true ∧ (p.job? i = none → j.Idle) := by
  have hsound := h.step hall
  obtain rfl := Option.some.inj hall
  rcases hsound.origin_of_run hrun hj with ⟨j₀, hj₀, hpath⟩ | ⟨hnew, name, body, c, hc, hpath⟩
  · have hcancelled : j₀.task.isCancelled = true := by
      obtain ⟨t, -, ht⟩ := List.mem_map.mp (List.mem_of_getElem? (job?_eq_some_iff.mp hj₀).1)
      rw [← ht]
    refine ⟨Job.keeps (fun _ _ hk hstep => hstep.isCancelled hk) hcancelled hpath, fun hnone => ?_⟩
    have hlength := h.job?_eq_none_iff.mp hnone
    rw [hsound.job?_eq_none_iff.mpr (by simpa [Scheduler.cancelAll] using hlength)] at hj₀
    cases hj₀
  · obtain rfl : c = true := hc rfl
    have hnever : (Job.submitted name body true).NeverStarts :=
      ⟨Job.fits_submitted _ _ _, rfl, rfl, rfl⟩
    have hkept := Job.keeps (fun _ _ hk hstep => hk.advances hstep) hnever hpath
    exact ⟨hkept.isCancelled, fun _ => hkept.idle⟩

theorem safe_of_start {steps : List PoolStep} (hrun : (start n).run steps = some p) : p.Safe n := by
  have hsound := (sound_start n).run hrun
  have hfits (i : Nat) (j : Job) (hj : p.job? i = some j) : j.Fits := by
    rcases (sound_start n).origin_of_run hrun hj with ⟨j₀, hj₀, -⟩ | ⟨-, name, body, c, -, hpath⟩
    · cases hj₀
    · exact Job.fits_of_submitted hpath
  constructor
  · exact fun i t ht => hsound.exists_phase ht
  · exact hsound.executing_le
  · intro step p' hstep i j hj
    obtain ⟨j', hj', hadvances⟩ := advances_of_step hstep hj
    exact ⟨j', hj', ((hfits i j hj).advances hadvances).2⟩
  · intro steps' p' hrun' i j hj hterminal
    obtain ⟨j', hj', hpath⟩ := advances_of_run hrun' hj
    have hkept := Job.keeps (P := fun k => k.Fits ∧ k.task.state = j.task.state)
      (fun k k' hk hstep => by
        obtain ⟨hfits', hmoves⟩ := hk.1.advances hstep
        exact ⟨hfits', (hmoves.eq_of_isTerminal (hk.2 ▸ hterminal)).trans hk.2⟩)
      ⟨hfits i j hj, rfl⟩ hpath
    exact ⟨j', hj', hkept.2⟩
  · intro steps' p' hrun' i j hj hcancelled hstarted huncleared
    obtain ⟨j', hj', hpath⟩ := advances_of_run hrun' hj
    have hnever : j.NeverStarts := ⟨hfits i j hj, hcancelled, hstarted, huncleared⟩
    have hkept := Job.keeps (fun _ _ hk hstep => hk.advances hstep) hnever hpath
    exact ⟨j', hj', hkept.idle⟩
  · exact fun all hall steps' p' hrun' i j hj => hsound.late hall hrun' hj
  · intro steps' p' hrun' i j hj hcancelled hphase
    obtain ⟨j', hj', hpath⟩ := advances_of_run hrun' hj
    have hnever := (hfits i j hj).neverSucceeds hcancelled hphase
    have hkept := Job.keeps (fun _ _ hk hstep => hk.advances hstep) hnever hpath
    exact ⟨j', hj', hkept.state⟩

/-- With any number of workers, in whatever order tasks come, are cancelled, get permits, look at
their tokens, start, end and are collected: the lives of tasks are safe at every point of every run.
The runs of a scheduler are among these. -/
theorem lifecycle_safe (n : Nat) :
    (∀ steps p, (start n).run steps = some p → p.Safe n)
      ∧ ∀ s, ReflTransGen Scheduler.Does (.ofWorkers n) s →
        ∃ steps, (start n).run steps = some (ofScheduler s) :=
  ⟨fun _ _ hrun => safe_of_start hrun, fun _ hdoes => reaches_ofScheduler hdoes⟩

/-- One worker, asked for none: the token of `a` fires while its body runs, that of `b` between its
permit and the look in front of its start, and that of `c` with those of all, while its body runs,
which breaks down; `d` comes after that. -/
def crowded : List PoolStep :=
  [.submit "a" [], .submit "b" [], .move 0 .grant, .move 0 .look, .move 0 .start,
    .move 0 (.work [] ⟨0, "half"⟩), .cancel 0, .move 0 (.finish (.returned (.ok "done"))),
    .move 0 .judge, .move 1 .grant, .move 0 .complete, .cancel 1, .move 1 .look, .move 1 .complete,
    .move 1 .join, .submit "c" [], .move 2 .grant, .move 2 .look, .move 2 .start, .cancelAll,
    .submit "d" [], .move 3 .quit, .move 2 (.finish (.panicked none)), .move 2 .judge,
    .move 2 .complete]

theorem lifecycle_safe_crowded :
    (∃ p, (start 0).run crowded = some p
      ∧ p.scheduler.tasks.map (·.state) = [.cancelled, .cancelled, .error, .waiting]
      ∧ p.scheduler.tasks.map (·.started) = [true, false, true, false] ∧ p.Safe 0)
      ∧ ∃ steps, (start 0).run steps
        = some (ofScheduler ((Scheduler.ofWorkers 0).submit "a" [.finish "done"]).settle) := by
  obtain ⟨hsafe, hruns⟩ := lifecycle_safe 0
  constructor
  · exact ⟨_, rfl, by decide, by decide, hsafe crowded _ rfl⟩
  · exact hruns _ ((Scheduler.does_settle _).head (.submit _ _ _))

/-- Between the look at its token and its start nothing holds a task back: a token that fires there
comes too late, and the body starts. -/
theorem starts_after_token_fired :
    ¬ ∀ (n : Nat) (steps steps' : List PoolStep) (p p' : Pool) (i : Nat) (j : Job),
      (start n).run steps = some p → p.run steps' = some p' → p.job? i = some j →
      j.task.isCancelled = true → j.task.started = false → ∃ j', p'.job? i = some j' ∧ j'.Idle := by
  intro hclaim
  let raced : List PoolStep := [.submit "a" [], .move 0 .grant, .move 0 .look, .cancel 0]
  obtain ⟨j', hj', hidle⟩ := hclaim 1 raced [.move 0 .start] _ _ 0 _ rfl rfl rfl rfl rfl
  cases hj'
  cases hidle.started

end Pool
end Linkage

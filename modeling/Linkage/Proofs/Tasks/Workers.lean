import Linkage.Proofs.Data.Places
import Linkage.Tasks.Scheduler

/-! Workers and those who use them, whose steps come in any order: tasks come, are cancelled, get
permits, run, end and are collected. -/
namespace Linkage

/-- How a body ended: it came back, or it broke down. -/
inductive BodyEnd where
  | returned (answer : Except TaskError String)
  | panicked (message : Option String)

/-- How a task ends by its body and its token. What a cancelled task did does not count, unless it
broke down. -/
def BodyEnd.outcome (isCancelled : Bool) : BodyEnd → Except TaskError String
  | .returned answer => if isCancelled then .error .cancelled else answer
  | .panicked message => .error (.crashed message)

/-- How far a task has come. -/
inductive Phase where
  /-- It waits for a permit or for its token. -/
  | queued
  /-- It has a permit, and has not looked at its token since. -/
  | granted
  /-- It has looked at its token, which had not fired, and is about to start. -/
  | cleared
  /-- It has started: its body runs, or is about to. -/
  | executing
  /-- Its body is at an end, and it has not looked at its token since. -/
  | ended (bodyEnd : BodyEnd)
  /-- It has no permit, and its end is known to nobody else. -/
  | settled (outcome : Except TaskError String)
  | completed

namespace Phase

def holdsPermit : Phase → Bool
  | .granted | .cleared | .executing | .ended _ => true
  | _ => false

/-- The look at the token in front of the body has been taken, and nothing since. -/
def isCleared : Phase → Bool
  | .cleared => true
  | _ => false

def isExecuting : Phase → Bool
  | .executing => true
  | _ => false

/-- The last look at the token has been taken. -/
def isJudged : Phase → Bool
  | .settled _ | .completed => true
  | _ => false

end Phase

/-- A task and how far it has come. -/
structure Job where
  task : Task
  phase : Phase

/-- What happens to one task on its own. -/
inductive Move where
  | grant
  /-- Its token fires while it waits. -/
  | quit
  /-- There are no permits any more. -/
  | refuse
  /-- It looks at its token before it starts. -/
  | look
  | start
  | work (body : List Action) (progress : Progress)
  | finish (bodyEnd : BodyEnd)
  /-- It looks at its token after the body, and gives the permit back. -/
  | judge
  | complete
  | join

namespace Job

def submitted (name : String) (body : List Action) (isCancelled : Bool) : Job :=
  ⟨{ name, body, isCancelled }, .queued⟩

def cancel (j : Job) : Job := { j with task := { j.task with isCancelled := true } }

/-- A move that a task can make, and what comes of it. -/
def move? (permitFree : Bool) : Job → Move → Option Job
  | ⟨t, .queued⟩, .grant => if permitFree then some ⟨t, .granted⟩ else none
  | ⟨t, .queued⟩, .quit =>
    if t.isCancelled then some ⟨t, .settled (.error .cancelled)⟩ else none
  | ⟨t, .queued⟩, .refuse => some ⟨t, .settled (.error .closed)⟩
  | ⟨t, .granted⟩, .look =>
    if t.isCancelled then some ⟨t, .settled (.error .cancelled)⟩ else some ⟨t, .cleared⟩
  | ⟨t, .cleared⟩, .start => some ⟨{ t with state := .running, started := true }, .executing⟩
  | ⟨t, .executing⟩, .work body progress => some ⟨{ t with body, progress }, .executing⟩
  | ⟨t, .executing⟩, .finish bodyEnd => some ⟨t, .ended bodyEnd⟩
  | ⟨t, .ended bodyEnd⟩, .judge => some ⟨t, .settled (bodyEnd.outcome t.isCancelled)⟩
  | ⟨t, .settled outcome⟩, .complete => some ⟨t.complete outcome, .completed⟩
  | ⟨t, phase⟩, .join => if t.outcome.isSome then some ⟨{ t with joined := true }, phase⟩ else none
  | _, _ => none

/-- All that a step does to a task. -/
inductive Advances : Job → Job → Prop
  | stay (j : Job) : Advances j j
  | cancel (j : Job) : Advances j j.cancel
  | grant (t : Task) : Advances ⟨t, .queued⟩ ⟨t, .granted⟩
  | quit {t : Task} (h : t.isCancelled = true) :
    Advances ⟨t, .queued⟩ ⟨t, .settled (.error .cancelled)⟩
  | refuse (t : Task) : Advances ⟨t, .queued⟩ ⟨t, .settled (.error .closed)⟩
  | skip {t : Task} (h : t.isCancelled = true) :
    Advances ⟨t, .granted⟩ ⟨t, .settled (.error .cancelled)⟩
  | pass {t : Task} (h : t.isCancelled = false) : Advances ⟨t, .granted⟩ ⟨t, .cleared⟩
  | start (t : Task) :
    Advances ⟨t, .cleared⟩ ⟨{ t with state := .running, started := true }, .executing⟩
  | work (t : Task) (body : List Action) (progress : Progress) :
    Advances ⟨t, .executing⟩ ⟨{ t with body, progress }, .executing⟩
  | finish (t : Task) (bodyEnd : BodyEnd) : Advances ⟨t, .executing⟩ ⟨t, .ended bodyEnd⟩
  | judge (t : Task) (bodyEnd : BodyEnd) :
    Advances ⟨t, .ended bodyEnd⟩ ⟨t, .settled (bodyEnd.outcome t.isCancelled)⟩
  | complete (t : Task) (outcome : Except TaskError String) :
    Advances ⟨t, .settled outcome⟩ ⟨t.complete outcome, .completed⟩
  | join {t : Task} (phase : Phase) (h : t.outcome.isSome = true) :
    Advances ⟨t, phase⟩ ⟨{ t with joined := true }, phase⟩

theorem advances_of_move {permitFree : Bool} {j j' : Job} {move : Move}
    (h : j.move? permitFree move = some j') : j.Advances j' := by
  unfold move? at h
  split at h
  · split at h <;> cases h
    exact .grant _
  · split at h <;> cases h
    exact .quit ‹_›
  · cases h
    exact .refuse _
  · split at h <;> cases h
    · exact .skip ‹_›
    · exact .pass (Bool.eq_false_of_not_eq_true ‹_›)
  · cases h
    exact .start _
  · cases h
    exact .work _ _ _
  · cases h
    exact .finish _ _
  · cases h
    exact .judge _ _
  · cases h
    exact .complete _ _
  · split at h <;> cases h
    exact .join _ ‹_›
  · cases h

/-- A permit is taken only where one is free. -/
theorem holdsPermit_of_move {permitFree : Bool} {j j' : Job} {move : Move}
    (h : j.move? permitFree move = some j') (hholds : j'.phase.holdsPermit = true) :
    j.phase.holdsPermit = true ∨ permitFree = true := by
  unfold move? at h
  split at h
  · split at h <;> cases h
    exact Or.inr ‹_›
  · split at h <;> cases h
    cases hholds
  · cases h
    cases hholds
  · exact Or.inl rfl
  · exact Or.inl rfl
  · exact Or.inl rfl
  · exact Or.inl rfl
  · exact Or.inl rfl
  · cases h
    cases hholds
  · split at h <;> cases h
    exact Or.inl hholds
  · cases h

end Job

/-- A scheduler, and how far its tasks have come. -/
structure Pool where
  scheduler : Scheduler
  phases : List Phase

/-- A step of anybody. Tasks are known by their places. -/
inductive PoolStep where
  | submit (name : String) (body : List Action)
  | openGate (gate : String)
  | cancel (i : Nat)
  | cancelAll
  | move (i : Nat) (move : Move)

namespace Pool

def start (workers : Nat) : Pool := ⟨.ofWorkers workers, []⟩

def job? (p : Pool) (i : Nat) : Option Job := do
  return ⟨← p.scheduler.tasks[i]?, ← p.phases[i]?⟩

/-- There are as many permits as workers. -/
def permitFree (p : Pool) : Bool := p.phases.countP (·.holdsPermit) < p.scheduler.workers

/-- Puts a task that has moved into its place; its completion is counted and told. -/
def put (p : Pool) (i : Nat) (move : Move) (j : Job) : Pool where
  scheduler :=
    match move with
    | .complete => p.scheduler.moved i j.task
    | _ => { p.scheduler with tasks := p.scheduler.tasks.set i j.task }
  phases := p.phases.set i j.phase

/-- A step that can be made, and what comes of it. -/
def step? (p : Pool) : PoolStep → Option Pool
  | .submit name body => some ⟨p.scheduler.submit name body, p.phases ++ [.queued]⟩
  | .openGate gate => some { p with scheduler := p.scheduler.openGate gate }
  | .cancel i =>
    let tasks := p.scheduler.tasks.modify i fun t => { t with isCancelled := true }
    some { p with scheduler := { p.scheduler with tasks } }
  | .cancelAll => some { p with scheduler := p.scheduler.cancelAll }
  | .move i move => do
    let j ← p.job? i
    p.put i move <$> j.move? p.permitFree move

/-- Steps one after the other, each of which can be made. -/
def run (p : Pool) : List PoolStep → Option Pool
  | [] => some p
  | step :: steps => (p.step? step).bind (·.run steps)

/-- The number of bodies that execute. -/
def executing (p : Pool) : Nat := p.phases.countP (·.isExecuting)

theorem job?_eq_some_iff {p : Pool} {i : Nat} {j : Job} :
    p.job? i = some j ↔ p.scheduler.tasks[i]? = some j.task ∧ p.phases[i]? = some j.phase := by
  unfold job?
  cases p.scheduler.tasks[i]? <;> cases p.phases[i]? <;> cases j <;> simp

@[simp] theorem tasks_moved (s : Scheduler) (i : Nat) (t : Task) :
    (s.moved i t).tasks = s.tasks.set i t := by
  unfold Scheduler.moved
  split <;> rfl

@[simp] theorem tasks_put (p : Pool) (i : Nat) (move : Move) (j : Job) :
    (p.put i move j).scheduler.tasks = p.scheduler.tasks.set i j.task := by
  unfold put
  cases move <;> simp

@[simp] theorem workers_put (p : Pool) (i : Nat) (move : Move) (j : Job) :
    (p.put i move j).scheduler.workers = p.scheduler.workers := by
  unfold put
  cases move <;> simp only [Scheduler.moved]
  split <;> rfl

@[simp] theorem isCancelled_put (p : Pool) (i : Nat) (move : Move) (j : Job) :
    (p.put i move j).scheduler.isCancelled = p.scheduler.isCancelled := by
  unfold put
  cases move <;> simp only [Scheduler.moved]
  split <;> rfl

theorem job?_put_self {p : Pool} {i : Nat} {j : Job} (h : p.job? i = some j) (move : Move)
    (j' : Job) : (p.put i move j').job? i = some j' := by
  obtain ⟨htask, hphase⟩ := job?_eq_some_iff.mp h
  have htasks := (List.getElem?_eq_some_iff.mp htask).1
  have hphases := (List.getElem?_eq_some_iff.mp hphase).1
  refine job?_eq_some_iff.mpr ⟨?_, ?_⟩
  · rw [tasks_put, List.getElem?_set_self htasks]
  · exact List.getElem?_set_self hphases

theorem job?_put_of_ne {p : Pool} {i k : Nat} (hne : i ≠ k) (move : Move) (j' : Job) :
    (p.put i move j').job? k = p.job? k := by
  unfold job?
  rw [tasks_put, List.getElem?_set_ne hne]
  simp only [put, List.getElem?_set_ne hne]

theorem move_of_step {p p' : Pool} {i : Nat} {move : Move} (h : p.step? (.move i move) = some p') :
    ∃ j j', p.job? i = some j ∧ j.move? p.permitFree move = some j' ∧ p' = p.put i move j' := by
  obtain ⟨j, hj, hmoved⟩ := Option.bind_eq_some_iff.mp h
  obtain ⟨j', hj', rfl⟩ := Option.map_eq_some_iff.mp hmoved
  exact ⟨j, j', hj, hj', rfl⟩

/-- A step does to each task one of the things that can be done to it. -/
theorem advances_of_step {p p' : Pool} {step : PoolStep} (h : p.step? step = some p') {i : Nat}
    {j : Job} (hj : p.job? i = some j) : ∃ j', p'.job? i = some j' ∧ j.Advances j' := by
  obtain ⟨htask, hphase⟩ := job?_eq_some_iff.mp hj
  cases step with
  | submit name body =>
    obtain rfl := Option.some.inj h
    refine ⟨j, job?_eq_some_iff.mpr ⟨?_, ?_⟩, .stay j⟩
    · simp [Scheduler.submit, List.getElem?_append_left (List.getElem?_eq_some_iff.mp htask).1, htask]
    · simp [List.getElem?_append_left (List.getElem?_eq_some_iff.mp hphase).1, hphase]
  | openGate gate =>
    obtain rfl := Option.some.inj h
    exact ⟨j, hj, .stay j⟩
  | cancel k =>
    obtain rfl := Option.some.inj h
    by_cases hk : k = i
    · refine ⟨j.cancel, job?_eq_some_iff.mpr ⟨?_, hphase⟩, .cancel j⟩
      simp [hk, htask, Job.cancel]
    · refine ⟨j, job?_eq_some_iff.mpr ⟨?_, hphase⟩, .stay j⟩
      simp [hk, htask]
  | cancelAll =>
    obtain rfl := Option.some.inj h
    refine ⟨j.cancel, job?_eq_some_iff.mpr ⟨?_, hphase⟩, .cancel j⟩
    simp [Scheduler.cancelAll, htask, Job.cancel]
  | move k move =>
    obtain ⟨jk, j', hjk, hmove, rfl⟩ := move_of_step h
    by_cases hk : k = i
    · subst hk
      obtain rfl := Option.some.inj (hjk.symm.trans hj)
      exact ⟨j', job?_put_self hj move j', Job.advances_of_move hmove⟩
    · exact ⟨j, (job?_put_of_ne hk move j').trans hj, .stay j⟩

/-- What every step keeps of a pool as a whole: there is a phase for each task, and no more permits
are held than there are workers. -/
structure Sound (n : Nat) (p : Pool) : Prop where
  workers : p.scheduler.workers = n
  aligned : p.phases.length = p.scheduler.tasks.length
  permits : p.phases.countP (·.holdsPermit) ≤ n

variable {n : Nat} {p p' : Pool} {steps : List PoolStep}

theorem sound_start (n : Nat) : (start n).Sound (max n 1) where
  workers := rfl
  aligned := rfl
  permits := Nat.zero_le _

/-- A permit more is held only where one was free. -/
theorem countP_put_le {i : Nat} {j j' : Job} {move : Move} (hj : p.job? i = some j)
    (hmove : j.move? p.permitFree move = some j')
    (hpermits : p.phases.countP (·.holdsPermit) ≤ p.scheduler.workers) :
    (p.put i move j').phases.countP (·.holdsPermit) ≤ p.scheduler.workers := by
  obtain ⟨hi, hphase⟩ := List.getElem?_eq_some_iff.mp (job?_eq_some_iff.mp hj).2
  have hcount : (p.put i move j').phases.countP (·.holdsPermit)
      = p.phases.countP (·.holdsPermit) - (if j.phase.holdsPermit then 1 else 0)
        + if j'.phase.holdsPermit then 1 else 0 := by
    rw [← hphase]
    exact List.countP_set hi
  rw [hcount]
  cases hholds' : j'.phase.holdsPermit with
  | false =>
    simp only [Bool.false_eq_true, if_false]
    omega
  | true =>
    rcases Job.holdsPermit_of_move hmove hholds' with hholds | hfree
    · have hpos : 0 < p.phases.countP (·.holdsPermit) := by
        refine List.countP_pos_iff.mpr ⟨j.phase, ?_, hholds⟩
        exact List.mem_of_getElem? (job?_eq_some_iff.mp hj).2
      simp only [hholds, if_true]
      omega
    · have hlt : p.phases.countP (·.holdsPermit) < p.scheduler.workers := of_decide_eq_true hfree
      simp only [if_true]
      omega

theorem Sound.step (h : p.Sound n) {step : PoolStep} (hstep : p.step? step = some p') :
    p'.Sound n := by
  cases step with
  | submit name body =>
    obtain rfl := Option.some.inj hstep
    refine ⟨h.workers, ?_, ?_⟩
    · simp [Scheduler.submit, h.aligned]
    · simpa [Phase.holdsPermit] using h.permits
  | openGate gate =>
    obtain rfl := Option.some.inj hstep
    exact ⟨h.workers, h.aligned, h.permits⟩
  | cancel i =>
    obtain rfl := Option.some.inj hstep
    exact ⟨h.workers, by simp [h.aligned], h.permits⟩
  | cancelAll =>
    obtain rfl := Option.some.inj hstep
    exact ⟨h.workers, by simp [Scheduler.cancelAll, h.aligned], h.permits⟩
  | move i move =>
    obtain ⟨j, j', hj, hmove, rfl⟩ := move_of_step hstep
    refine ⟨(workers_put _ _ _ _).trans h.workers, ?_, ?_⟩
    · rw [tasks_put, List.length_set, ← h.aligned]
      exact List.length_set
    · rw [← h.workers]
      exact countP_put_le hj hmove (h.workers ▸ h.permits)

theorem run_cons {step : PoolStep} (h : p.run (step :: steps) = some p') :
    ∃ next, p.step? step = some next ∧ next.run steps = some p' :=
  Option.bind_eq_some_iff.mp h

theorem Sound.run (h : p.Sound n) (hrun : p.run steps = some p') : p'.Sound n := by
  induction steps generalizing p with
  | nil => exact Option.some.inj hrun ▸ h
  | cons step steps ih =>
    obtain ⟨next, hnext, hrest⟩ := run_cons hrun
    exact ih (h.step hnext) hrest

theorem Sound.executing_le (h : p.Sound n) : p.executing ≤ n := by
  refine (List.countP_mono_left fun phase _ hexecuting => ?_).trans h.permits
  cases phase <;> simp [Phase.isExecuting, Phase.holdsPermit] at hexecuting ⊢

theorem Sound.job?_eq_none_iff (h : p.Sound n) {i : Nat} :
    p.job? i = none ↔ p.scheduler.tasks.length ≤ i := by
  rw [← List.getElem?_eq_none_iff]
  constructor
  · intro hnone
    by_contra hsome
    obtain ⟨t, ht⟩ := Option.ne_none_iff_exists'.mp hsome
    have hi : i < p.phases.length := h.aligned ▸ (List.getElem?_eq_some_iff.mp ht).1
    have hjob : p.job? i = some ⟨t, p.phases[i]⟩ :=
      job?_eq_some_iff.mpr ⟨ht, List.getElem?_eq_getElem hi⟩
    rw [hnone] at hjob
    cases hjob
  · intro hnone
    simp [job?, hnone]

theorem isCancelled_of_step {step : PoolStep} (h : p.step? step = some p')
    (hcancelled : p.scheduler.isCancelled = true) : p'.scheduler.isCancelled = true := by
  cases step with
  | submit name body => exact Option.some.inj h ▸ hcancelled
  | openGate gate => exact Option.some.inj h ▸ hcancelled
  | cancel i => exact Option.some.inj h ▸ hcancelled
  | cancelAll => exact Option.some.inj h ▸ rfl
  | move i move =>
    obtain ⟨j, j', -, -, rfl⟩ := move_of_step h
    rw [isCancelled_put]
    exact hcancelled

/-- A task that is new was submitted, with the token of the scheduler. -/
theorem Sound.submitted_of_step (h : p.Sound n) {step : PoolStep}
    (hstep : p.step? step = some p') {i : Nat} {j : Job} (hnew : p.job? i = none)
    (hj : p'.job? i = some j) :
    ∃ name body, j = Job.submitted name body p.scheduler.isCancelled := by
  have hlength := h.job?_eq_none_iff.mp hnew
  have hold (hsame : p'.scheduler.tasks.length = p.scheduler.tasks.length) : False := by
    rw [(h.step hstep).job?_eq_none_iff.mpr (hsame ▸ hlength)] at hj
    cases hj
  cases step with
  | submit name body =>
    obtain rfl := Option.some.inj hstep
    obtain ⟨htask, hphase⟩ := job?_eq_some_iff.mp hj
    have hi : i = p.scheduler.tasks.length := by
      have hlt := (List.getElem?_eq_some_iff.mp htask).1
      simp [Scheduler.submit] at hlt
      omega
    subst hi
    simp only [Scheduler.submit, List.getElem?_concat_length] at htask
    rw [← h.aligned, List.getElem?_concat_length] at hphase
    refine ⟨name, body, ?_⟩
    cases j
    cases htask
    cases hphase
    rfl
  | openGate gate => exact (hold (Option.some.inj hstep ▸ rfl)).elim
  | cancel k =>
    obtain rfl := Option.some.inj hstep
    exact (hold (by simp)).elim
  | cancelAll =>
    obtain rfl := Option.some.inj hstep
    exact (hold (by simp [Scheduler.cancelAll])).elim
  | move k move =>
    obtain ⟨jk, j', -, -, rfl⟩ := move_of_step hstep
    exact (hold (by simp)).elim

/-- What a run does to a task is done to it step by step. -/
theorem advances_of_run (hrun : p.run steps = some p') {i : Nat} {j : Job}
    (hj : p.job? i = some j) :
    ∃ j', p'.job? i = some j' ∧ Relation.ReflTransGen Job.Advances j j' := by
  induction steps generalizing p j with
  | nil => exact ⟨j, Option.some.inj hrun ▸ hj, .refl⟩
  | cons step steps ih =>
    obtain ⟨next, hnext, hrest⟩ := run_cons hrun
    obtain ⟨k, hk, hfirst⟩ := advances_of_step hnext hj
    obtain ⟨j', hj', hpath⟩ := ih hrest hk
    exact ⟨j', hj', hpath.head hfirst⟩

/-- A task that is there after a run was there before, or was submitted since; it was cancelled from
the first if all were. -/
theorem Sound.origin_of_run (h : p.Sound n) (hrun : p.run steps = some p') {i : Nat} {j : Job}
    (hj : p'.job? i = some j) :
    (∃ j₀, p.job? i = some j₀ ∧ Relation.ReflTransGen Job.Advances j₀ j)
      ∨ p.job? i = none ∧ ∃ name body isCancelled,
        (p.scheduler.isCancelled = true → isCancelled = true)
        ∧ Relation.ReflTransGen Job.Advances (.submitted name body isCancelled) j := by
  induction steps generalizing p with
  | nil => exact Or.inl ⟨j, Option.some.inj hrun ▸ hj, .refl⟩
  | cons step steps ih =>
    obtain ⟨next, hnext, hrest⟩ := run_cons hrun
    -- a task of `next` may be one that this very step has submitted
    cases hfirst : p.job? i with
    | some j₀ =>
      obtain ⟨j', hj', hpath⟩ := advances_of_run hrun hfirst
      obtain rfl := Option.some.inj (hj.symm.trans hj')
      exact Or.inl ⟨j₀, rfl, hpath⟩
    | none =>
      refine Or.inr ⟨rfl, ?_⟩
      rcases ih (h.step hnext) hrest with ⟨j₁, hj₁, hpath⟩ | ⟨-, name, body, isCancelled, hall, hpath⟩
      · obtain ⟨name, body, rfl⟩ := h.submitted_of_step hnext hfirst hj₁
        exact ⟨name, body, _, id, hpath⟩
      · exact ⟨name, body, isCancelled, fun hc => hall (isCancelled_of_step hnext hc), hpath⟩

end Pool
end Linkage

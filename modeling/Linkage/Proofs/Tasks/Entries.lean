import Linkage.Proofs.Tasks.Ledger

/-! What a pool does in one step is entered into the books of its scheduler one entry at a time. -/
namespace Linkage

/-- The phase of a task whose completion is one step. -/
def Account.phase (a : Account) : Phase :=
  match a.stage with
  | .alive phase => phase
  | _ => .completed

/-- No entry on the task is left to be made before its result can be collected. -/
def Account.isCalm (a : Account) : Bool :=
  match a.stage with
  | .alive _ | .done | .removed => true
  | _ => false

/-- Nothing but being collected can happen to a task that has completed. -/
theorem Job.isOwn_of_completed {permitFree : Bool} {t : Task} {move : Move} {j : Job}
    (h : move? permitFree ⟨t, .completed⟩ move = some j) : move.isOwn = false := by
  cases move with
  | complete => rfl
  | join => rfl
  | _ => cases h

theorem Job.of_join {permitFree : Bool} {j j' : Job} (h : j.move? permitFree .join = some j') :
    j.task.outcome.isSome = true ∧ j' = ⟨{ j.task with joined := true }, j.phase⟩ := by
  obtain ⟨t, phase⟩ := j
  have hjoin : (if t.outcome.isSome then some (⟨{ t with joined := true }, phase⟩ : Job) else none)
      = some j' := by
    cases phase <;> exact h
  by_cases hsome : t.outcome.isSome = true
  · rw [if_pos hsome] at hjoin
    exact ⟨hsome, (Option.some.inj hjoin).symm⟩
  · rw [if_neg hsome] at hjoin
    cases hjoin

namespace Ledger

/-- Some steps lead from one ledger to another. -/
def Reaches (l l' : Ledger) : Prop := ∃ steps, l.run steps = some l'

variable {l l' l'' : Ledger}

theorem Reaches.refl (l : Ledger) : l.Reaches l := ⟨[], rfl⟩

theorem Reaches.trans (h : l.Reaches l') (h' : l'.Reaches l'') : l.Reaches l'' := by
  obtain ⟨before, hbefore⟩ := h
  obtain ⟨after, hafter⟩ := h'
  exact ⟨before ++ after, (run_append hbefore).trans hafter⟩

theorem reaches_of_step {step : LedgerStep} (h : l.step? step = some l') : l.Reaches l' :=
  ⟨[step], Option.bind_eq_some_iff.mpr ⟨l', h, rfl⟩⟩

theorem reaches_act {i : Nat} {a a' : Account} (ha : l.accounts[i]? = some a) (act : Act)
    (hact : a.act? l.permitFree l.inboxes.length act = some a') :
    l.Reaches { l.enter i a act with accounts := l.accounts.set i a' } :=
  by
  have hstep : l.step? (.act i act)
      = some { l.enter i a act with accounts := l.accounts.set i a' } := by
    simp [step?, ha, hact]
  exact reaches_of_step hstep

theorem Sound.reaches (h : l.Sound) (hreaches : l.Reaches l') : l'.Sound := by
  obtain ⟨steps, hrun⟩ := hreaches
  exact h.run hrun

/-- The listeners can be told one after the other. -/
theorem reaches_told {i : Nat} {t : Task} {completion : Completion} {told audience : Nat}
    (ha : l.accounts[i]? = some ⟨t, .telling completion audience, told⟩)
    {before after : List (List (Nat × Completion))} (hinboxes : l.inboxes = before ++ after)
    (htold : before.length = told) (haudience : before.length + after.length = audience) :
    l.Reaches { l with
      accounts := l.accounts.set i ⟨t, .telling completion audience, audience⟩
      inboxes := before ++ after.map (· ++ [(i, completion)]) } := by
  -- those in front of `after` are told already
  induction after generalizing l before told with
  | nil =>
    obtain rfl : told = audience := htold.symm.trans haudience
    have hnobody : before ++ [].map (· ++ [(i, completion)]) = l.inboxes := by simp [hinboxes]
    rw [set_of_getElem? ha, hnobody]
    exact .refl l
  | cons inbox after ih =>
    rw [List.length_cons] at haudience
    let first := before ++ [inbox ++ [(i, completion)]]
    let next : Ledger := { l with
      accounts := l.accounts.set i ⟨t, .telling completion audience, told + 1⟩
      inboxes := first ++ after }
    have hi := (List.getElem?_eq_some_iff.mp ha).1
    have hact : Account.act? l.permitFree l.inboxes.length
        ⟨t, .telling completion audience, told⟩ .tell
          = some ⟨t, .telling completion audience, told + 1⟩ :=
      if_pos (by omega)
    have hmodify : l.inboxes.modify told (· ++ [(i, completion)]) = first ++ after := by
      rw [hinboxes, ← htold, modify_middle]
      exact List.append_cons _ _ _
    have hnext : l.Reaches next := by
      have htell := reaches_act ha .tell hact
      simp only [enter, hmodify] at htell
      exact htell
    have hfirst : first.length = told + 1 := by simp [first, htold]
    have hrest := ih (l := next) (List.getElem?_set_self hi) rfl hfirst (by omega)
    refine hnext.trans ?_
    simpa [next, first] using hrest

/-- A task that has an outcome completes, and all listeners are told. -/
theorem reaches_completed {i : Nat} {t : Task} {outcome : Except TaskError String}
    (ha : l.accounts[i]? = some ⟨t, .alive (.settled outcome), 0⟩) :
    l.Reaches { l with
      statistics := l.statistics.count (.ofOutcome outcome)
      accounts := l.accounts.set i ⟨t.complete outcome, .done, l.inboxes.length⟩
      inboxes := l.inboxes.map (· ++ [(i, (t.complete outcome).completion)]) } := by
  have hi := (List.getElem?_eq_some_iff.mp ha).1
  let final := t.complete outcome
  let audience := l.inboxes.length
  let called : Ledger := { l with
    statistics := l.statistics.count (.ofOutcome outcome)
    accounts := l.accounts.set i ⟨final, .telling final.completion audience, 0⟩ }
  let told : Ledger := { called with
    accounts := l.accounts.set i ⟨final, .telling final.completion audience, audience⟩
    inboxes := l.inboxes.map (· ++ [(i, final.completion)]) }
  have hcalled : l.Reaches called := by
    refine ⟨[.act i .count, .act i .record, .act i .callTogether], ?_⟩
    simp only [run, step?, ha, Account.act?, enter, List.getElem?_set_self hi, List.set_set,
      Option.bind_eq_bind, Option.bind_some]
    rfl
  have htold : called.Reaches told := by
    have hreaches := reaches_told (l := called) (List.getElem?_set_self hi)
      (List.nil_append l.inboxes).symm rfl (Nat.zero_add audience)
    simpa [called, told] using hreaches
  have hclosed := reaches_act (l := told) (List.getElem?_set_self hi) .close (if_pos rfl)
  simp only [enter, told, called, List.set_set] at hclosed
  exact (hcalled.trans htold).trans hclosed

theorem reaches_joined {i : Nat} {t : Task} {told : Nat}
    (ha : l.accounts[i]? = some ⟨t, .done, told⟩) :
    l.Reaches { l with
      accounts := l.accounts.set i ⟨{ t with joined := true }, .removed, told⟩
      records := l.records.erase i } := by
  have hi := (List.getElem?_eq_some_iff.mp ha).1
  refine ⟨[.act i .collect, .act i .remove], ?_⟩
  simp only [run, step?, ha, Account.act?, enter, List.getElem?_set_self hi, List.set_set,
    Option.bind_eq_bind, Option.bind_some]

theorem reaches_submitted (l : Ledger) (name : String) (body : List Action) :
    l.Reaches { l with
      accounts := l.accounts ++ [⟨{ name, body, isCancelled := l.isCancelled }, .alive .queued, 0⟩]
      records := l.records ++ [l.accounts.length]
      statistics := { l.statistics with submitted := l.statistics.submitted + 1 } } := by
  refine ⟨[.submit name body, .act l.accounts.length .enroll], ?_⟩
  simp [run, step?, Account.opened, Account.act?, enter]

end Ledger

/-- A pool and a ledger that are as far, between two steps of the pool. -/
structure Mirrors (p : Pool) (l : Ledger) : Prop where
  sound : l.Sound
  calm : ∀ a ∈ l.accounts, a.isCalm = true
  tasks : l.accounts.map (·.task) = p.scheduler.tasks
  phases : l.accounts.map (·.phase) = p.phases
  workers : l.workers = p.scheduler.workers
  isCancelled : l.isCancelled = p.scheduler.isCancelled
  statistics : l.statistics = p.scheduler.statistics
  inboxes : ∀ inbox ∈ l.inboxes, inbox.map (·.2) = p.scheduler.completions

/-- The ledger can go on so that it mirrors the pool, with as many listeners. -/
def Ledger.Follows (l : Ledger) (p : Pool) : Prop :=
  ∃ l', l.Reaches l' ∧ l'.inboxes.length = l.inboxes.length ∧ Mirrors p l'

namespace Mirrors

variable {p p' : Pool} {l l' : Ledger} {i : Nat} {j j' : Job}

theorem account (h : Mirrors p l) (hj : p.job? i = some j) :
    ∃ a, l.accounts[i]? = some a ∧ a.task = j.task ∧ a.phase = j.phase ∧ a.Fits
      ∧ a.isCalm = true := by
  obtain ⟨htask, hphase⟩ := Pool.job?_eq_some_iff.mp hj
  rw [← h.tasks, List.getElem?_map] at htask
  rw [← h.phases, List.getElem?_map] at hphase
  obtain ⟨a, ha, htask⟩ := Option.map_eq_some_iff.mp htask
  rw [ha] at hphase
  have hmem := List.mem_of_getElem? ha
  exact ⟨a, ha, htask, Option.some.inj hphase, h.sound.fits a hmem, h.calm a hmem⟩

theorem permitFree (h : Mirrors p l) : l.permitFree = p.permitFree := by
  have hcount : l.accounts.countP (·.holdsPermit) = p.phases.countP (·.holdsPermit) := by
    rw [← h.phases, List.countP_map]
    refine List.countP_congr fun a _ => ?_
    obtain ⟨t, stage, told⟩ := a
    cases stage <;> simp [Account.holdsPermit, Account.phase, Phase.holdsPermit]
  simp only [Ledger.permitFree, Pool.permitFree, hcount, h.workers]

theorem set (h : Mirrors p l) (hreaches : l.Reaches l') (i : Nat) (a : Account)
    (hcalm : a.isCalm = true) (haccounts : l'.accounts = l.accounts.set i a)
    (htasks : p'.scheduler.tasks = p.scheduler.tasks.set i a.task)
    (hphases : p'.phases = p.phases.set i a.phase) (hworkers : l'.workers = p'.scheduler.workers)
    (hcancelled : l'.isCancelled = p'.scheduler.isCancelled)
    (hstatistics : l'.statistics = p'.scheduler.statistics)
    (hinboxes : ∀ inbox ∈ l'.inboxes, inbox.map (·.2) = p'.scheduler.completions) :
    Mirrors p' l' where
  sound := h.sound.reaches hreaches
  calm b hb := by
    rw [haccounts] at hb
    rcases List.mem_or_eq_of_mem_set hb with hb | rfl
    · exact h.calm b hb
    · exact hcalm
  tasks := by rw [haccounts, List.map_set, h.tasks, htasks]
  phases := by rw [haccounts, List.map_set, h.phases, hphases]
  workers := hworkers
  isCancelled := hcancelled
  statistics := hstatistics
  inboxes := hinboxes

theorem submit (h : Mirrors p l) (name : String) (body : List Action) :
    l.Follows ⟨p.scheduler.submit name body, p.phases ++ [.queued]⟩ := by
  have hreaches := Ledger.reaches_submitted l name body
  refine ⟨_, hreaches, rfl, h.sound.reaches hreaches, ?_, ?_, ?_, h.workers, h.isCancelled, ?_,
    h.inboxes⟩
  · intro a ha
    rcases List.mem_append.mp ha with ha | ha
    · exact h.calm a ha
    · rw [List.mem_singleton.mp ha]
      rfl
  · simp [Scheduler.submit, h.tasks, h.isCancelled]
  · rw [List.map_append, h.phases]
    rfl
  · simp [Scheduler.submit, h.statistics]

theorem cancel (h : Mirrors p l) (i : Nat) : l.Follows { p with scheduler := { p.scheduler with
    tasks := p.scheduler.tasks.modify i fun t => { t with isCancelled := true } } } := by
  have hstep : l.step? (.cancel i) = some { l with accounts := l.accounts.modify i (·.cancel) } := rfl
  cases ha : l.accounts[i]? with
  | none =>
    have hlength : p.scheduler.tasks.length ≤ i := by
      rw [← h.tasks, List.length_map]
      exact List.getElem?_eq_none_iff.mp ha
    rw [List.modify_eq_self hlength]
    exact ⟨l, .refl l, rfl, h⟩
  | some a =>
    have htask : p.scheduler.tasks[i]? = some a.task := by rw [← h.tasks, List.getElem?_map, ha]; rfl
    have hphase : p.phases[i]? = some a.phase := by rw [← h.phases, List.getElem?_map, ha]; rfl
    refine ⟨_, Ledger.reaches_of_step hstep, rfl, ?_⟩
    refine h.set (Ledger.reaches_of_step hstep) i a.cancel (h.calm a (List.mem_of_getElem? ha))
      ?_ ?_ ?_ h.workers h.isCancelled h.statistics h.inboxes
    · simp [List.modify_eq_set_getElem?, ha]
    · simp [List.modify_eq_set_getElem?, htask, Account.cancel]
    · exact (set_of_getElem? hphase).symm

theorem cancelAll (h : Mirrors p l) :
    l.Follows { p with scheduler := p.scheduler.cancelAll } := by
  have hstep : l.step? .cancelAll
      = some { l with isCancelled := true, accounts := l.accounts.map (·.cancel) } := rfl
  have hreaches := Ledger.reaches_of_step hstep
  refine ⟨_, hreaches, rfl, h.sound.reaches hreaches, ?_, ?_, ?_, h.workers, rfl, h.statistics,
    h.inboxes⟩
  · intro a ha
    obtain ⟨b, hb, rfl⟩ := List.mem_map.mp ha
    exact h.calm b hb
  · simp [Scheduler.cancelAll, ← h.tasks, Account.cancel]
  · rw [← h.phases, List.map_map]
    rfl

theorem move (h : Mirrors p l) (hj : p.job? i = some j) {move : Move} (hown : move.isOwn = true)
    (hmove : j.move? p.permitFree move = some j') : l.Follows (p.put i move j') := by
  obtain ⟨⟨t, stage, told⟩, ha, htask, hphase, -, hcalm⟩ := h.account hj
  obtain ⟨task, phase⟩ := j
  obtain rfl : t = task := htask
  cases stage with
  | alive phase' =>
    obtain rfl : phase' = phase := hphase
    have hact : Account.act? l.permitFree l.inboxes.length ⟨t, .alive phase', told⟩ (.move move)
        = some ⟨j'.task, .alive j'.phase, told⟩ := by
      rw [Account.act?, if_pos hown, h.permitFree, hmove]
      rfl
    have hput : (p.put i move j').scheduler
        = { p.scheduler with tasks := p.scheduler.tasks.set i j'.task } := by
      cases move with
      | complete => cases hown
      | _ => rfl
    have hreaches := Ledger.reaches_act ha (.move move) hact
    refine ⟨_, hreaches, rfl, ?_⟩
    refine h.set hreaches i ⟨j'.task, .alive j'.phase, told⟩ rfl rfl ?_ rfl ?_ ?_ ?_ ?_
    · rw [hput]
    · rw [hput]
      exact h.workers
    · rw [hput]
      exact h.isCancelled
    · rw [hput]
      exact h.statistics
    · rw [hput]
      exact h.inboxes
  | done =>
    obtain rfl : Phase.completed = phase := hphase
    rw [Job.isOwn_of_completed hmove] at hown
    cases hown
  | removed =>
    obtain rfl : Phase.completed = phase := hphase
    rw [Job.isOwn_of_completed hmove] at hown
    cases hown
  | _ => cases hcalm

/-- A completion is as many entries as there are listeners, and some more. -/
theorem complete (h : Mirrors p l) (hj : p.job? i = some j)
    (hmove : j.move? p.permitFree .complete = some j') : l.Follows (p.put i .complete j') := by
  obtain ⟨⟨t, stage, told⟩, ha, htask, hphase, hfits, hcalm⟩ := h.account hj
  obtain ⟨task, phase⟩ := j
  obtain rfl : t = task := htask
  cases phase with
  | settled outcome =>
    obtain rfl := Option.some.inj hmove
    cases stage with
    | alive phase =>
      obtain rfl : phase = .settled outcome := hphase
      obtain rfl : told = 0 := hfits.2.2.2
      have hterminal : (t.complete outcome).state.isTerminal = true :=
        t.isTerminal_complete outcome
      have hreaches := Ledger.reaches_completed ha
      refine ⟨_, hreaches, List.length_map _, ?_⟩
      refine h.set hreaches i ⟨t.complete outcome, .done, l.inboxes.length⟩ rfl rfl ?_ rfl ?_ ?_ ?_ ?_
      · simp
      · simp [h.workers]
      · simp [h.isCancelled]
      · simp [Pool.put, Scheduler.moved, h.statistics, Task.state_complete,
          TaskState.isTerminal_ofOutcome]
      · intro inbox hinbox
        obtain ⟨old, hold, rfl⟩ := List.mem_map.mp hinbox
        simp [Pool.put, Scheduler.moved, hterminal, h.inboxes old hold, Task.completion]
    | done => cases hphase
    | removed => cases hphase
    | _ => cases hcalm
  | _ => cases hmove

theorem join (h : Mirrors p l) (hj : p.job? i = some j)
    (hmove : j.move? p.permitFree .join = some j') : l.Follows (p.put i .join j') := by
  obtain ⟨⟨t, stage, told⟩, ha, htask, hphase, hfits, hcalm⟩ := h.account hj
  obtain ⟨task, phase⟩ := j
  obtain rfl : t = task := htask
  obtain ⟨hsome, rfl⟩ := Job.of_join hmove
  cases stage with
  | alive phase' =>
    have hnone : t.outcome = none := hfits.2.1
    rw [hnone] at hsome
    cases hsome
  | done =>
    obtain rfl : Phase.completed = phase := hphase
    have hreaches := Ledger.reaches_joined ha
    refine ⟨_, hreaches, rfl, ?_⟩
    exact h.set hreaches i ⟨{ t with joined := true }, .removed, told⟩ rfl rfl rfl rfl h.workers
      h.isCancelled h.statistics h.inboxes
  | removed =>
    obtain rfl : Phase.completed = phase := hphase
    have hjoined : t.joined = true := hfits.2
    have hsame : { t with joined := true } = t := by rw [← hjoined]
    obtain ⟨htask, hphase⟩ := Pool.job?_eq_some_iff.mp hj
    have hput : p.put i .join ⟨{ t with joined := true }, .completed⟩ = p := by
      simp only [Pool.put, hsame, set_of_getElem? htask, set_of_getElem? hphase]
    rw [hput]
    exact ⟨l, .refl l, rfl, h⟩
  | _ => cases hcalm

/-- Each step of a pool is some entries into the ledger. -/
theorem step (h : Mirrors p l) {step : PoolStep} (hstep : p.step? step = some p') :
    l.Follows p' := by
  cases step with
  | submit name body => exact Option.some.inj hstep ▸ h.submit name body
  | openGate gate =>
    obtain rfl := Option.some.inj hstep
    exact ⟨l, .refl l, rfl, h.sound, h.calm, h.tasks, h.phases, h.workers, h.isCancelled,
      h.statistics, h.inboxes⟩
  | cancel i => exact Option.some.inj hstep ▸ h.cancel i
  | cancelAll => exact Option.some.inj hstep ▸ h.cancelAll
  | move i move =>
    obtain ⟨j, j', hj, hmove, rfl⟩ := Pool.move_of_step hstep
    cases move with
    | complete => exact h.complete hj hmove
    | join => exact h.join hj hmove
    | _ => exact h.move hj rfl hmove

theorem run (h : Mirrors p l) {steps : List PoolStep} (hrun : p.run steps = some p') :
    l.Follows p' := by
  induction steps generalizing p l with
  | nil => exact ⟨l, .refl l, rfl, Option.some.inj hrun ▸ h⟩
  | cons step steps ih =>
    obtain ⟨next, hnext, hrest⟩ := Pool.run_cons hrun
    obtain ⟨l₁, hfirst, hlength, h₁⟩ := h.step hnext
    obtain ⟨l₂, hlast, hlength', h₂⟩ := ih h₁ hrest
    exact ⟨l₂, hfirst.trans hlast, hlength'.trans hlength, h₂⟩

/-- At the start the listeners come, before any task does. -/
theorem start (workers listeners : Nat) : ∃ l, (Ledger.start workers).Reaches l
    ∧ l.inboxes.length = listeners ∧ Mirrors (Pool.start workers) l := by
  let waiting (listeners : Nat) : Ledger :=
    { Ledger.start workers with inboxes := List.replicate listeners [] }
  have hreaches : (Ledger.start workers).Reaches (waiting listeners) := by
    induction listeners with
    | zero => exact .refl _
    | succ listeners ih =>
      have hstep : (waiting listeners).step? .addListener = some (waiting (listeners + 1)) := by
        simp [waiting, Ledger.step?, List.replicate_succ']
      exact ih.trans (Ledger.reaches_of_step hstep)
  refine ⟨waiting listeners, hreaches, List.length_replicate, ?_⟩
  refine ⟨(Ledger.sound_start workers).reaches hreaches, fun a ha => absurd ha List.not_mem_nil,
    rfl, rfl, rfl, rfl, rfl, fun inbox hinbox => ?_⟩
  rw [List.eq_of_mem_replicate hinbox]
  rfl

end Mirrors
end Linkage

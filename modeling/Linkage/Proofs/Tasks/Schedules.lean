import Linkage.Proofs.Tasks.Workers

/-! A scheduler whose tasks move on their own takes the steps of a pool in one of their orders. -/
namespace Linkage

open Relation (ReflTransGen)

/-- What is done to a scheduler, and what it does when a task can move. -/
inductive Scheduler.Does : Scheduler → Scheduler → Prop
  | submit (s : Scheduler) (name : String) (body : List Action) : Does s (s.submit name body)
  | openGate (s : Scheduler) (gate : String) : Does s (s.openGate gate)
  | cancel (s : Scheduler) (name : String) : Does s (s.cancel name)
  | cancelAll (s : Scheduler) : Does s s.cancelAll
  | join (s : Scheduler) (name : String) : Does s (s.join name)
  | step {s s' : Scheduler} {i : Nat} (h : s.stepAt? i = some s') : Does s s'

theorem Scheduler.does_run (rounds : Nat) (s : Scheduler) : ReflTransGen Does s (run rounds s) := by
  induction rounds generalizing s with
  | zero => exact .refl
  | succ rounds ih =>
    unfold run
    cases hstep : s.step? with
    | none => exact .refl
    | some next =>
      obtain ⟨i, -, hi⟩ := List.exists_of_findSome?_eq_some hstep
      exact (ih next).head (.step hi)

/-- Tasks that move until none can have done so step by step. -/
theorem Scheduler.does_settle (s : Scheduler) : ReflTransGen Does s s.settle :=
  does_run s.remaining s

/-- The body that ends with this. -/
def BodyEnd.ofOutcome : Except TaskError String → BodyEnd
  | .error (.crashed message) => .panicked message
  | answer => .returned answer

theorem Task.conclude_eq (t : Task) (outcome : Except TaskError String) :
    t.conclude outcome = t.complete ((BodyEnd.ofOutcome outcome).outcome t.isCancelled) := by
  cases outcome with
  | ok result => rfl
  | error e => cases e <;> rfl

/-- A running task goes on or ends. -/
theorem Task.act_cases {isOpen : String → Bool} {t t' : Task} (h : t.act isOpen = some t') :
    (∃ outcome, t' = t.conclude outcome)
      ∨ ∃ body progress, t' = { t with body, progress } := by
  unfold act at h
  split at h
  · exact Or.inl ⟨_, (Option.some.inj h).symm⟩
  · split at h
    · exact Or.inr ⟨_, _, (Option.some.inj h).symm⟩
    · exact Or.inr ⟨_, _, (Option.some.inj h).symm⟩
    · exact Or.inr ⟨_, _, (Option.some.inj h).symm⟩
    · split at h
      · exact Or.inl ⟨_, (Option.some.inj h).symm⟩
      · exact Or.inr ⟨_, _, (Option.some.inj h).symm⟩
    · split at h
      · exact Or.inr ⟨_, _, (Option.some.inj h).symm⟩
      · cases h
    · split at h
      · exact Or.inr ⟨_, _, (Option.some.inj h).symm⟩
      · cases h
    · exact Or.inl ⟨_, (Option.some.inj h).symm⟩
    · exact Or.inl ⟨_, (Option.some.inj h).symm⟩
    · exact Or.inl ⟨_, (Option.some.inj h).symm⟩

namespace Pool

/-- The phase of a task of which nothing but the state is known. -/
def phaseOf (t : Task) : Phase :=
  match t.state with
  | .waiting => .queued
  | .running => .executing
  | .success | .error | .cancelled => .completed

/-- A scheduler between two of its own steps. -/
def ofScheduler (s : Scheduler) : Pool := ⟨s, s.tasks.map phaseOf⟩

/-- Some steps lead from one pool to another. -/
def Reaches (p p' : Pool) : Prop := ∃ steps, p.run steps = some p'

variable {p p' p'' : Pool} {s s' : Scheduler} {i : Nat} {t t' : Task}

theorem Reaches.refl (p : Pool) : p.Reaches p := ⟨[], rfl⟩

theorem Reaches.head {step : PoolStep} (h : p.step? step = some p') (h' : p'.Reaches p'') :
    p.Reaches p'' := by
  obtain ⟨steps, hrun⟩ := h'
  exact ⟨step :: steps, Option.bind_eq_some_iff.mpr ⟨p', h, hrun⟩⟩

theorem Reaches.trans (h : p.Reaches p') (h' : p'.Reaches p'') : p.Reaches p'' := by
  obtain ⟨steps, hrun⟩ := h
  induction steps generalizing p with
  | nil => exact Option.some.inj hrun ▸ h'
  | cons step steps ih =>
    obtain ⟨next, hnext, hrest⟩ := run_cons hrun
    exact .head hnext (ih hrest)

theorem reaches_of_step {step : PoolStep} (h : p.step? step = some p') : p.Reaches p' :=
  .head h (.refl p')

/-- Of two moves of one task only the second is seen, if the first is no completion. -/
theorem put_put {move : Move} (hmove : move ≠ .complete) (j : Job) (move' : Move) (j' : Job) :
    (p.put i move j).put i move' j' = p.put i move' j' := by
  unfold put
  cases move with
  | complete => exact absurd rfl hmove
  | _ => cases move' <;> simp [Scheduler.moved]

theorem reaches_put {j j' : Job} (hj : p.job? i = some j) {move : Move}
    (hmove : j.move? p.permitFree move = some j') : p.Reaches (p.put i move j') := by
  have hstep : p.step? (.move i move) = some (p.put i move j') := by simp [step?, hj, hmove]
  exact reaches_of_step hstep

/-- A task that has moved moves on. -/
theorem Reaches.put {j j' j₀ : Job} {move move' : Move} (hj₀ : p.job? i = some j₀)
    (h : p.Reaches (p.put i move j)) (hmove : move ≠ .complete)
    (hmove' : ∀ permitFree, j.move? permitFree move' = some j') :
    p.Reaches (p.put i move' j') := by
  have hnext := reaches_put (job?_put_self hj₀ move j) (hmove' _)
  rw [put_put hmove] at hnext
  exact h.trans hnext

theorem put_ofScheduler {move : Move} (h : move = .complete ∨ t'.state.isTerminal = false) :
    (ofScheduler s).put i move ⟨t', phaseOf t'⟩ = ofScheduler (s.moved i t') := by
  have hscheduler : ((ofScheduler s).put i move ⟨t', phaseOf t'⟩).scheduler = s.moved i t' := by
    rcases h with rfl | hrunning
    · rfl
    · cases move <;> simp [put, ofScheduler, Scheduler.moved, hrunning]
  have hphases : ((ofScheduler s).put i move ⟨t', phaseOf t'⟩).phases
      = (s.tasks.set i t').map phaseOf := by
    rw [List.map_set]
    rfl
  have hwhole : ofScheduler (s.moved i t') = ⟨s.moved i t', (s.tasks.set i t').map phaseOf⟩ := by
    rw [ofScheduler, tasks_moved]
  rw [hwhole, ← hscheduler, ← hphases]

theorem job?_ofScheduler (ht : s.tasks[i]? = some t) :
    (ofScheduler s).job? i = some ⟨t, phaseOf t⟩ := by
  refine job?_eq_some_iff.mpr ⟨ht, ?_⟩
  simp [ofScheduler, ht]

theorem permitFree_ofScheduler (s : Scheduler) :
    (ofScheduler s).permitFree = decide (s.running < s.workers) := by
  have hcount : (s.tasks.map phaseOf).countP (·.holdsPermit) = s.running := by
    rw [List.countP_map, Scheduler.running, ← List.countP_eq_length_filter]
    refine List.countP_congr fun t _ => ?_
    cases hstate : t.state <;> simp [phaseOf, hstate, Phase.holdsPermit]
  simp only [permitFree, ofScheduler, hcount]

/-- A task that waits ends when its token has fired. -/
theorem reaches_giveUp (ht : s.tasks[i]? = some t) (hwaiting : t.state = .waiting)
    (hcancelled : t.isCancelled = true) :
    (ofScheduler s).Reaches (ofScheduler (s.moved i (t.complete (.error .cancelled)))) := by
  have hphase : phaseOf t = .queued := by simp [phaseOf, hwaiting]
  have hj := hphase ▸ job?_ofScheduler ht
  have hquit : Job.move? (ofScheduler s).permitFree ⟨t, .queued⟩ .quit
      = some ⟨t, .settled (.error .cancelled)⟩ := by
    simp [Job.move?, hcancelled]
  have hcomplete (permitFree : Bool) :
      Job.move? permitFree ⟨t, .settled (.error .cancelled)⟩ .complete
        = some ⟨t.complete (.error .cancelled), .completed⟩ := rfl
  rw [← put_ofScheduler (Or.inl rfl)]
  exact (reaches_put hj hquit).put hj (by simp) hcomplete

/-- A task that waits starts where a worker is free. -/
theorem reaches_start (ht : s.tasks[i]? = some t) (hwaiting : t.state = .waiting)
    (hquiet : t.isCancelled = false) (hfree : s.running < s.workers) :
    (ofScheduler s).Reaches
      (ofScheduler (s.moved i { t with state := .running, started := true })) := by
  have hphase : phaseOf t = .queued := by simp [phaseOf, hwaiting]
  have hj := hphase ▸ job?_ofScheduler ht
  have hgrant : Job.move? (ofScheduler s).permitFree ⟨t, .queued⟩ .grant = some ⟨t, .granted⟩ := by
    simp [Job.move?, permitFree_ofScheduler, hfree]
  have hlook (permitFree : Bool) : Job.move? permitFree ⟨t, .granted⟩ .look
      = some ⟨t, .cleared⟩ := by
    simp [Job.move?, hquiet]
  have hstart (permitFree : Bool) : Job.move? permitFree ⟨t, .cleared⟩ .start
      = some ⟨{ t with state := .running, started := true }, .executing⟩ := rfl
  have hcleared := (reaches_put hj hgrant).put hj (by simp) hlook
  rw [← put_ofScheduler (Or.inr rfl)]
  exact hcleared.put hj (by simp) hstart

/-- A task that runs goes on. -/
theorem reaches_work (ht : s.tasks[i]? = some t) (hrunning : t.state = .running)
    (body : List Action) (progress : Progress) :
    (ofScheduler s).Reaches (ofScheduler (s.moved i { t with body, progress })) := by
  have hphase : phaseOf t = .executing := by simp [phaseOf, hrunning]
  have hphase' : phaseOf { t with body, progress } = .executing := by simp [phaseOf, hrunning]
  have hj := hphase ▸ job?_ofScheduler ht
  have hwork : Job.move? (ofScheduler s).permitFree ⟨t, .executing⟩ (.work body progress)
      = some ⟨{ t with body, progress }, .executing⟩ := rfl
  have hnot : ({ t with body, progress } : Task).state.isTerminal = false := by
    simp [hrunning, TaskState.isTerminal]
  rw [← put_ofScheduler (Or.inr hnot), hphase']
  exact reaches_put hj hwork

/-- A task that runs ends: its body does, it looks at its token, and its end is told. -/
theorem reaches_conclude (ht : s.tasks[i]? = some t) (hrunning : t.state = .running)
    (outcome : Except TaskError String) :
    (ofScheduler s).Reaches (ofScheduler (s.moved i (t.conclude outcome))) := by
  let bodyEnd := BodyEnd.ofOutcome outcome
  let final := t.complete (bodyEnd.outcome t.isCancelled)
  have hphase : phaseOf t = .executing := by simp [phaseOf, hrunning]
  have hphase' : phaseOf final = .completed := by
    unfold phaseOf
    cases hend : bodyEnd.outcome t.isCancelled with
    | ok result => simp [final, hend, Task.complete]
    | error e => cases e <;> simp [final, hend, Task.complete]
  have hj := hphase ▸ job?_ofScheduler ht
  have hfinish : Job.move? (ofScheduler s).permitFree ⟨t, .executing⟩ (.finish bodyEnd)
      = some ⟨t, .ended bodyEnd⟩ := rfl
  have hjudge (permitFree : Bool) : Job.move? permitFree ⟨t, .ended bodyEnd⟩ .judge
      = some ⟨t, .settled (bodyEnd.outcome t.isCancelled)⟩ := rfl
  have hcomplete (permitFree : Bool) :
      Job.move? permitFree ⟨t, .settled (bodyEnd.outcome t.isCancelled)⟩ .complete
        = some ⟨final, .completed⟩ := rfl
  have hended := reaches_put hj hfinish
  have hjudged := hended.put hj (by simp) hjudge
  rw [t.conclude_eq, ← put_ofScheduler (Or.inl rfl), hphase']
  exact hjudged.put hj (by simp) hcomplete

theorem reaches_stepAt (h : s.stepAt? i = some s') :
    (ofScheduler s).Reaches (ofScheduler s') := by
  obtain ⟨t, ht, hmoved⟩ := Option.bind_eq_some_iff.mp h
  obtain ⟨t', hstep, rfl⟩ := Option.map_eq_some_iff.mp hmoved
  unfold Task.step? at hstep
  split at hstep
  · next hwaiting =>
    by_cases hcancelled : t.isCancelled = true
    · rw [if_pos hcancelled] at hstep
      obtain rfl := Option.some.inj hstep
      exact reaches_giveUp ht hwaiting hcancelled
    · rw [if_neg hcancelled] at hstep
      by_cases hfree : s.running < s.workers
      · rw [if_pos (decide_eq_true hfree)] at hstep
        obtain rfl := Option.some.inj hstep
        exact reaches_start ht hwaiting (Bool.eq_false_of_not_eq_true hcancelled) hfree
      · rw [if_neg (by simpa using hfree)] at hstep
        cases hstep
  · next hrunning =>
    rcases Task.act_cases hstep with ⟨outcome, rfl⟩ | ⟨body, progress, rfl⟩
    · exact reaches_conclude ht hrunning outcome
    · exact reaches_work ht hrunning body progress
  · cases hstep

/-- What can be done to each task of a kind can be done to all of them. -/
theorem reaches_map {c : Task → Bool} {f : Task → Task}
    (hone : ∀ (s : Scheduler) i t, s.tasks[i]? = some t → c t = true →
      (ofScheduler s).Reaches (ofScheduler { s with tasks := s.tasks.set i (f t) }))
    (s : Scheduler) : (ofScheduler s).Reaches
      (ofScheduler { s with tasks := s.tasks.map fun t => if c t then f t else t }) := by
  -- the tasks are gone through in their order, so those that are done stand in front
  suffices hall : ∀ done todo, (ofScheduler { s with tasks := done ++ todo }).Reaches
      (ofScheduler { s with tasks := done ++ todo.map fun t => if c t then f t else t }) from
    hall [] s.tasks
  intro done todo
  induction todo generalizing done with
  | nil => exact .refl _
  | cons t todo ih =>
    have hrest (t' : Task) := ih (done ++ [t'])
    simp only [List.append_assoc, List.singleton_append] at hrest
    by_cases hc : c t = true
    · have hfirst := hone { s with tasks := done ++ t :: todo } done.length t (by simp) hc
      simp only [List.set_append_right _ _ (Nat.le_refl _), Nat.sub_self, List.set_cons_zero]
        at hfirst
      rw [List.map_cons, if_pos hc]
      exact hfirst.trans (hrest (f t))
    · rw [List.map_cons, if_neg hc]
      exact hrest t

theorem reaches_cancel (s : Scheduler) (name : String) :
    (ofScheduler s).Reaches (ofScheduler (s.cancel name)) := by
  have hone (s : Scheduler) (i : Nat) (t : Task) (ht : s.tasks[i]? = some t)
      (_ : decide (t.name = name) = true) : (ofScheduler s).Reaches
        (ofScheduler { s with tasks := s.tasks.set i { t with isCancelled := true } }) := by
    have hphases : (s.tasks.set i { t with isCancelled := true }).map phaseOf
        = s.tasks.map phaseOf := map_set_of_same phaseOf ht rfl
    have hstep : (ofScheduler s).step? (.cancel i)
        = some (ofScheduler { s with tasks := s.tasks.set i { t with isCancelled := true } }) := by
      simp [step?, ofScheduler, hphases, List.modify_eq_set_getElem?, ht]
    exact reaches_of_step hstep
  simpa [Scheduler.cancel] using reaches_map hone s

theorem reaches_join (s : Scheduler) (name : String) :
    (ofScheduler s).Reaches (ofScheduler (s.join name)) := by
  have hone (s : Scheduler) (i : Nat) (t : Task) (ht : s.tasks[i]? = some t)
      (hc : (t.name = name && t.outcome.isSome) = true) : (ofScheduler s).Reaches
        (ofScheduler { s with tasks := s.tasks.set i { t with joined := true } }) := by
    have hphases : (s.tasks.set i { t with joined := true }).map phaseOf
        = s.tasks.map phaseOf := map_set_of_same phaseOf ht rfl
    have hdone : t.outcome.isSome = true := ((Bool.and_eq_true _ _).mp hc).2
    have hjoin : Job.move? (ofScheduler s).permitFree ⟨t, phaseOf t⟩ .join
        = some ⟨{ t with joined := true }, phaseOf t⟩ := by
      simp [Job.move?, hdone]
    have hput : (ofScheduler s).put i .join ⟨{ t with joined := true }, phaseOf t⟩
        = ofScheduler { s with tasks := s.tasks.set i { t with joined := true } } := by
      have hsame : (s.tasks.map phaseOf).set i (phaseOf t) = s.tasks.map phaseOf := by
        rw [← List.map_set]
        exact map_set_of_same phaseOf ht rfl
      simp [put, ofScheduler, hphases, hsame]
    exact hput ▸ reaches_put (job?_ofScheduler ht) hjoin
  simpa [Scheduler.join] using reaches_map hone s

theorem reaches_of_does (h : s.Does s') : (ofScheduler s).Reaches (ofScheduler s') := by
  cases h with
  | submit name body =>
    have hstep : (ofScheduler s).step? (.submit name body)
        = some (ofScheduler (s.submit name body)) := by
      simp [step?, ofScheduler, Scheduler.submit, phaseOf]
    exact reaches_of_step hstep
  | openGate gate =>
    have hstep : (ofScheduler s).step? (.openGate gate) = some (ofScheduler (s.openGate gate)) := rfl
    exact reaches_of_step hstep
  | cancel name => exact reaches_cancel s name
  | cancelAll =>
    have hstep : (ofScheduler s).step? .cancelAll = some (ofScheduler s.cancelAll) := by
      simp [step?, ofScheduler, Scheduler.cancelAll, phaseOf, Function.comp_def]
    exact reaches_of_step hstep
  | join name => exact reaches_join s name
  | step hstep => exact reaches_stepAt hstep

/-- Whatever is done to a scheduler, a pool can do the same. -/
theorem reaches_ofScheduler {n : Nat} (h : ReflTransGen Scheduler.Does (.ofWorkers n) s) :
    (start n).Reaches (ofScheduler s) := by
  induction h with
  | refl => exact .refl _
  | tail _ hlast ih => exact ih.trans (reaches_of_does hlast)

end Pool
end Linkage

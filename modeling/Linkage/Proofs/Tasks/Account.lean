import Linkage.Proofs.Tasks.Lifecycle

/-! The books on one task: what they say while it lives, when it ends, and until its result is
collected. -/
namespace Linkage

/-- The state in which a task ends. -/
def TaskState.ofOutcome : Except TaskError String → TaskState
  | .ok _ => .success
  | .error .cancelled => .cancelled
  | .error _ => .error

theorem TaskState.isTerminal_ofOutcome (outcome : Except TaskError String) :
    (ofOutcome outcome).isTerminal = true := by
  cases outcome with
  | ok result => rfl
  | error e => cases e <;> rfl

theorem Task.state_complete (t : Task) (outcome : Except TaskError String) :
    (t.complete outcome).state = .ofOutcome outcome := by
  cases outcome with
  | ok result => rfl
  | error e => cases e <;> rfl

/-- What is told of a task when it ends. -/
def Task.completion (t : Task) : Completion := ⟨t.name, t.state, t.error?⟩

/-- The task has ended, and its record says how. -/
def Task.Ended (t : Task) : Prop :=
  ∃ outcome, t.outcome = some outcome ∧ t.state = .ofOutcome outcome

theorem Task.Ended.isTerminal {t : Task} (h : t.Ended) : t.state.isTerminal = true := by
  obtain ⟨outcome, -, hstate⟩ := h
  rw [hstate]
  exact TaskState.isTerminal_ofOutcome outcome

/-- The task makes this move itself, before the books on it are closed. -/
def Move.isOwn : Move → Bool
  | .complete | .join => false
  | _ => true

/-- What a task does itself is no end. -/
theorem Job.keeps_of_move {permitFree : Bool} {j j' : Job} {move : Move}
    (hown : move.isOwn = true) (h : j.move? permitFree move = some j') :
    j'.task.outcome = j.task.outcome ∧ j'.task.joined = j.task.joined
      ∧ (j'.task.state = j.task.state ∨ j'.task.state = .running) := by
  unfold move? at h
  split at h
  · split at h <;> cases h
    exact ⟨rfl, rfl, Or.inl rfl⟩
  · split at h <;> cases h
    exact ⟨rfl, rfl, Or.inl rfl⟩
  · cases h
    exact ⟨rfl, rfl, Or.inl rfl⟩
  · split at h <;> cases h <;> exact ⟨rfl, rfl, Or.inl rfl⟩
  · cases h
    exact ⟨rfl, rfl, Or.inr rfl⟩
  · cases h
    exact ⟨rfl, rfl, Or.inl rfl⟩
  · cases h
    exact ⟨rfl, rfl, Or.inl rfl⟩
  · cases h
    exact ⟨rfl, rfl, Or.inl rfl⟩
  · cases hown
  · cases hown
  · cases h

/-- How far the books on a task are. -/
inductive Stage where
  /-- It has a record, and is not counted yet. -/
  | listed
  /-- It is counted, and its end is not. -/
  | alive (phase : Phase)
  /-- Its end is counted, and not in its record yet. -/
  | counted (outcome : Except TaskError String)
  /-- Its end is in its record, and the listeners are not called together yet. -/
  | recorded
  /-- So many listeners were called together and are told this. -/
  | telling (completion : Completion) (audience : Nat)
  /-- All is told, and its result can be had. -/
  | done
  /-- Its result was handed over, and its record is still there. -/
  | collected
  | removed

/-- The books on one task. -/
structure Account where
  task : Task
  stage : Stage := .listed
  /-- How many listeners were told, the first ones first. -/
  told : Nat := 0

/-- What is done on the account of a task. -/
inductive Act where
  | enroll
  | move (move : Move)
  /-- Its body is taken off the worker. -/
  | abort
  | count
  | record
  | callTogether
  | tell
  | close
  | collect
  | remove

namespace Account

/-- An act that is due, and what it makes of the account. -/
def act? (permitFree : Bool) (listeners : Nat) : Account → Act → Option Account
  | ⟨t, .listed, told⟩, .enroll => some ⟨t, .alive .queued, told⟩
  | ⟨t, .alive phase, told⟩, .move move =>
    if move.isOwn then
      (Job.move? permitFree ⟨t, phase⟩ move).map fun j => ⟨j.task, .alive j.phase, told⟩
    else none
  | ⟨t, .alive .executing, told⟩, .abort => some ⟨t, .alive (.settled (.error .cancelled)), told⟩
  | ⟨t, .alive (.settled outcome), told⟩, .count => some ⟨t, .counted outcome, told⟩
  | ⟨t, .counted outcome, told⟩, .record => some ⟨t.complete outcome, .recorded, told⟩
  | ⟨t, .recorded, told⟩, .callTogether => some ⟨t, .telling t.completion listeners, told⟩
  | ⟨t, .telling completion audience, told⟩, .tell =>
    if told < audience then some ⟨t, .telling completion audience, told + 1⟩ else none
  | ⟨t, .telling _ audience, told⟩, .close =>
    if told = audience then some ⟨t, .done, told⟩ else none
  | ⟨t, .done, told⟩, .collect => some ⟨t, .collected, told⟩
  | ⟨t, .collected, told⟩, .remove => some ⟨{ t with joined := true }, .removed, told⟩
  | _, _ => none

def opened (name : String) (body : List Action) (isCancelled : Bool) : Account where
  task := { name, body, isCancelled }

def cancel (a : Account) : Account := { a with task := { a.task with isCancelled := true } }

def holdsPermit (a : Account) : Bool :=
  match a.stage with
  | .alive phase => phase.holdsPermit
  | _ => false

/-- The account without the token, which no other book shows. -/
def untokened (a : Account) : Account := { a with task := { a.task with isCancelled := false } }

/-- The task was counted when it came. -/
def isAdmitted (a : Account) : Bool :=
  match a.stage with
  | .listed => false
  | _ => true

/-- How the task ended, if its end was counted. -/
def end? (a : Account) : Option TaskState :=
  match a.stage with
  | .listed | .alive _ => none
  | .counted outcome => some (.ofOutcome outcome)
  | _ => some a.task.state

/-- It was decided which listeners are told. -/
def isCalled (a : Account) : Bool :=
  match a.stage with
  | .telling _ _ | .done | .collected | .removed => true
  | _ => false

/-- All listeners who had to be told were told. -/
def isDone (a : Account) : Bool :=
  match a.stage with
  | .done | .collected | .removed => true
  | _ => false

/-- How many listeners are told in the end, as far as that is decided. -/
def reach (a : Account) : Nat :=
  match a.stage with
  | .telling _ audience => audience
  | _ => a.told

/-- What the listener of this place was told of the task. -/
def notices (a : Account) (listener : Nat) : List Completion :=
  if listener < a.told then [a.task.completion] else []

/-- The entries on a task agree with each other. -/
def Fits (a : Account) : Prop :=
  match a.stage with
  | .listed | .alive _ | .counted _ =>
    a.task.state.isTerminal = false ∧ a.task.outcome = none ∧ a.task.joined = false ∧ a.told = 0
  | .recorded => a.task.Ended ∧ a.task.joined = false ∧ a.told = 0
  | .telling completion audience => a.task.Ended ∧ a.task.joined = false
    ∧ completion = a.task.completion ∧ a.told ≤ audience
  | .done | .collected => a.task.Ended ∧ a.task.joined = false
  | .removed => a.task.Ended ∧ a.task.joined = true

/-- All that an act does on an account. -/
inductive Acts (listeners : Nat) : Act → Account → Account → Prop
  | enroll (t : Task) (told : Nat) :
    Acts listeners .enroll ⟨t, .listed, told⟩ ⟨t, .alive .queued, told⟩
  | move {t t' : Task} {phase phase' : Phase} (told : Nat) {permitFree : Bool} {move : Move}
    (hown : move.isOwn = true) (hmove : Job.move? permitFree ⟨t, phase⟩ move = some ⟨t', phase'⟩) :
    Acts listeners (.move move) ⟨t, .alive phase, told⟩ ⟨t', .alive phase', told⟩
  | abort (t : Task) (told : Nat) : Acts listeners .abort ⟨t, .alive .executing, told⟩
      ⟨t, .alive (.settled (.error .cancelled)), told⟩
  | count (t : Task) (outcome : Except TaskError String) (told : Nat) :
    Acts listeners .count ⟨t, .alive (.settled outcome), told⟩ ⟨t, .counted outcome, told⟩
  | record (t : Task) (outcome : Except TaskError String) (told : Nat) :
    Acts listeners .record ⟨t, .counted outcome, told⟩ ⟨t.complete outcome, .recorded, told⟩
  | callTogether (t : Task) (told : Nat) : Acts listeners .callTogether ⟨t, .recorded, told⟩
      ⟨t, .telling t.completion listeners, told⟩
  | tell (t : Task) (completion : Completion) {audience told : Nat} (h : told < audience) :
    Acts listeners .tell ⟨t, .telling completion audience, told⟩
      ⟨t, .telling completion audience, told + 1⟩
  | close (t : Task) (completion : Completion) (told : Nat) :
    Acts listeners .close ⟨t, .telling completion told, told⟩ ⟨t, .done, told⟩
  | collect (t : Task) (told : Nat) :
    Acts listeners .collect ⟨t, .done, told⟩ ⟨t, .collected, told⟩
  | remove (t : Task) (told : Nat) : Acts listeners .remove ⟨t, .collected, told⟩
      ⟨{ t with joined := true }, .removed, told⟩

variable {a a' : Account} {listeners : Nat} {act : Act}

theorem acts_of_act {permitFree : Bool} (h : a.act? permitFree listeners act = some a') :
    Acts listeners act a a' := by
  unfold act? at h
  split at h
  · cases h
    exact .enroll _ _
  · split at h
    · obtain ⟨j, hmove, rfl⟩ := Option.map_eq_some_iff.mp h
      exact .move _ ‹_› hmove
    · cases h
  · cases h
    exact .abort _ _
  · cases h
    exact .count _ _ _
  · cases h
    exact .record _ _ _
  · cases h
    exact .callTogether _ _
  · split at h <;> cases h
    exact .tell _ _ ‹_›
  · split at h <;> cases h
    subst_vars
    exact .close _ _ _
  · cases h
    exact .collect _ _
  · cases h
    exact .remove _ _
  · cases h

theorem fits_opened (name : String) (body : List Action) (isCancelled : Bool) :
    (opened name body isCancelled).Fits :=
  ⟨rfl, rfl, rfl, rfl⟩

theorem notices_opened (name : String) (body : List Action) (isCancelled : Bool) (listener : Nat) :
    (opened name body isCancelled).notices listener = [] :=
  if_neg (Nat.not_lt_zero listener)

theorem Fits.acts (h : a.Fits) (hacts : Acts listeners act a a') : a'.Fits := by
  cases hacts with
  | enroll t told => exact h
  | move told hown hmove =>
    obtain ⟨hopen, hnone, hlisted, htold⟩ := h
    obtain ⟨houtcome, hjoined, hstate⟩ := Job.keeps_of_move hown hmove
    refine ⟨?_, houtcome.trans hnone, hjoined.trans hlisted, htold⟩
    rcases hstate with hsame | hrunning
    · exact (congrArg TaskState.isTerminal hsame).trans hopen
    · exact congrArg TaskState.isTerminal hrunning
  | abort t told => exact h
  | count t outcome told => exact h
  | record t outcome told =>
    obtain ⟨-, -, hlisted, htold⟩ := h
    exact ⟨⟨outcome, rfl, t.state_complete outcome⟩, hlisted, htold⟩
  | callTogether t told =>
    obtain ⟨hended, hlisted, htold⟩ := h
    have hzero : told = 0 := htold
    exact ⟨hended, hlisted, rfl, hzero ▸ Nat.zero_le listeners⟩
  | tell t completion hlt =>
    obtain ⟨hended, hlisted, hsame, -⟩ := h
    exact ⟨hended, hlisted, hsame, hlt⟩
  | close t completion told =>
    obtain ⟨hended, hlisted, -, -⟩ := h
    exact ⟨hended, hlisted⟩
  | collect t told => exact h
  | remove t told => exact ⟨h.1, rfl⟩

theorem Fits.isTerminal_of_end (h : a.Fits) {state : TaskState} (hend : a.end? = some state) :
    state.isTerminal = true := by
  obtain ⟨t, stage, told⟩ := a
  cases stage with
  | listed => cases hend
  | alive phase => cases hend
  | counted outcome =>
    cases hend
    exact TaskState.isTerminal_ofOutcome outcome
  | _ =>
    cases hend
    exact h.1.isTerminal

theorem fits_untokened : a.untokened.Fits ↔ a.Fits := by
  obtain ⟨t, stage, told⟩ := a
  cases stage <;> exact Iff.rfl

theorem Acts.reach_le (hacts : Acts listeners act a a') (hreach : a.reach ≤ listeners) :
    a'.reach ≤ listeners := by
  cases hacts with
  | callTogether t told => exact Nat.le_refl _
  | _ => exact hreach

/-- Where no listener is told, all know what they knew. -/
theorem Acts.notices (hacts : Acts listeners act a a') (hfits : a.Fits) (hact : act ≠ .tell) :
    a'.notices = a.notices := by
  have hnobody {b : Account} (hb : b.told = 0) : b.notices = fun _ => [] := by
    funext listener
    simp [Account.notices, hb]
  cases hacts with
  | move told hown hmove =>
    have htold : told = 0 := hfits.2.2.2
    rw [hnobody htold, hnobody htold]
  | record t outcome told =>
    have htold : told = 0 := hfits.2.2.2
    rw [hnobody htold, hnobody htold]
  | tell t completion hlt => exact absurd rfl hact
  | _ => rfl

/-- All that a step does to an account. -/
inductive Evolves (listeners : Nat) (a : Account) : Account → Prop
  | stay : Evolves listeners a a
  | cancel : Evolves listeners a a.cancel
  | act {act : Act} {a' : Account} (h : Acts listeners act a a') : Evolves listeners a a'

/-- A counted end stays what it is. -/
theorem Evolves.end (h : a.Evolves listeners a') {state : TaskState} (hend : a.end? = some state) :
    a'.end? = some state := by
  cases h with
  | stay => exact hend
  | cancel => exact hend
  | act hacts =>
    cases hacts with
    | enroll t told => cases hend
    | move told hown hmove => cases hend
    | abort t told => cases hend
    | count t outcome told => cases hend
    | record t outcome told => exact (congrArg some (t.state_complete outcome)).trans hend
    | _ => exact hend

/-- A listener who was there when the others were called together is called as well. -/
theorem Evolves.reach (h : a.Evolves listeners a') {listener : Nat} (hthere : listener < listeners)
    (hreach : a.isCalled = true → listener < a.reach) (hcalled : a'.isCalled = true) :
    listener < a'.reach := by
  cases h with
  | stay => exact hreach hcalled
  | cancel => exact hreach hcalled
  | act hacts =>
    cases hacts with
    | callTogether t told => exact hthere
    | tell t completion hlt => exact hreach rfl
    | close t completion told => exact hreach rfl
    | collect t told => exact hreach rfl
    | remove t told => exact hreach rfl
    | _ => cases hcalled

/-- While not all is told, something is left to do. -/
theorem exists_act (permitFree : Bool) (listeners : Nat) (hfits : a.Fits)
    (hend : a.end?.isSome = true) (hopen : a.isDone = false) :
    ∃ act a', a.act? permitFree listeners act = some a' := by
  obtain ⟨t, stage, told⟩ := a
  cases stage with
  | listed => cases hend
  | alive phase => cases hend
  | counted outcome => exact ⟨.record, _, rfl⟩
  | recorded => exact ⟨.callTogether, _, rfl⟩
  | telling completion audience =>
    have hle : told ≤ audience := hfits.2.2.2
    rcases Nat.lt_or_eq_of_le hle with hlt | heq
    · exact ⟨.tell, _, if_pos hlt⟩
    · exact ⟨.close, _, if_pos heq⟩
  | done => cases hopen
  | collected => cases hopen
  | removed => cases hopen

theorem Fits.outcome (h : a.Fits) {outcome : Except TaskError String}
    (houtcome : a.task.outcome = some outcome) :
    a.task.state = .ofOutcome outcome ∧ a.end? = some (.ofOutcome outcome) := by
  have hstate (hended : a.task.Ended) : a.task.state = .ofOutcome outcome := by
    obtain ⟨outcome', houtcome', hstate⟩ := hended
    obtain rfl := Option.some.inj (houtcome.symm.trans houtcome')
    exact hstate
  obtain ⟨t, stage, told⟩ := a
  have hopen (hnone : t.outcome = none) : False := by
    rw [show t.outcome = some outcome from houtcome] at hnone
    cases hnone
  cases stage with
  | listed => exact (hopen h.2.1).elim
  | alive phase => exact (hopen h.2.1).elim
  | counted outcome => exact (hopen h.2.1).elim
  | _ => exact ⟨hstate h.1, congrArg some (hstate h.1)⟩

theorem Fits.ended_of_told (h : a.Fits) (htold : 0 < a.told) : a.task.Ended := by
  obtain ⟨t, stage, told⟩ := a
  cases stage with
  | listed => exact absurd h.2.2.2 (Nat.ne_of_gt htold)
  | alive phase => exact absurd h.2.2.2 (Nat.ne_of_gt htold)
  | counted outcome => exact absurd h.2.2.2 (Nat.ne_of_gt htold)
  | _ => exact h.1

theorem Fits.joined_iff (h : a.Fits) : a.task.joined = true ↔ a.stage = .removed := by
  obtain ⟨t, stage, told⟩ := a
  have hopen (hjoined : t.joined = false) (hstage : stage ≠ .removed) :
      t.joined = true ↔ stage = .removed :=
    iff_of_false (by simp [hjoined]) hstage
  cases stage with
  | listed => exact hopen h.2.2.1 (by simp)
  | alive phase => exact hopen h.2.2.1 (by simp)
  | counted outcome => exact hopen h.2.2.1 (by simp)
  | recorded => exact hopen h.2.1 (by simp)
  | telling completion audience => exact hopen h.2.1 (by simp)
  | done => exact hopen h.2 (by simp)
  | collected => exact hopen h.2 (by simp)
  | removed => exact iff_of_true h.2 rfl

theorem isAdmitted_of_end (hend : a.end?.isSome = true) : a.isAdmitted = true := by
  obtain ⟨t, stage, told⟩ := a
  cases stage with
  | listed => cases hend
  | _ => rfl

theorem isCalled_of_isDone (hdone : a.isDone = true) : a.isCalled = true ∧ a.reach = a.told := by
  obtain ⟨t, stage, told⟩ := a
  cases stage with
  | done => exact ⟨rfl, rfl⟩
  | collected => exact ⟨rfl, rfl⟩
  | removed => exact ⟨rfl, rfl⟩
  | _ => cases hdone

theorem isCalled_of_open (hopen : a.end? = none) : a.isCalled = false := by
  obtain ⟨t, stage, told⟩ := a
  cases stage with
  | listed => rfl
  | alive phase => rfl
  | _ => cases hopen

end Account

end Linkage

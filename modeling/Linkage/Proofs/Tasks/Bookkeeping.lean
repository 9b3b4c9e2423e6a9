import Linkage.Proofs.Tasks.Entries

/-! The books of a scheduler are exact, in whatever order its tasks, its listeners and its users make
their entries. -/
namespace Linkage

namespace Ledger

variable {l l' : Ledger} {steps : List LedgerStep}

/-- The end of the task of this place is counted. -/
def ended (l : Ledger) (i : Nat) : Bool := (l.accounts[i]?.bind (·.end?)).isSome

/-- An account goes on, or it is new. -/
theorem evolves_of_step {step : LedgerStep} (h : l.step? step = some l') {i : Nat} {a' : Account}
    (ha' : l'.accounts[i]? = some a') :
    (∃ a, l.accounts[i]? = some a ∧ a.Evolves l.inboxes.length a')
      ∨ l.accounts[i]? = none ∧ ∃ name body, a' = .opened name body l.isCancelled := by
  cases step with
  | addListener =>
    obtain rfl := Option.some.inj h
    exact Or.inl ⟨a', ha', .stay⟩
  | submit name body =>
    obtain rfl := Option.some.inj h
    rcases Nat.lt_or_ge i l.accounts.length with hi | hi
    · rw [List.getElem?_append_left hi] at ha'
      exact Or.inl ⟨a', ha', .stay⟩
    · rw [List.getElem?_append_right hi] at ha'
      have hnew : a' = .opened name body l.isCancelled :=
        List.mem_singleton.mp (List.mem_of_getElem? ha')
      exact Or.inr ⟨List.getElem?_eq_none hi, name, body, hnew⟩
  | cancel k =>
    obtain rfl := Option.some.inj h
    rw [List.getElem?_modify] at ha'
    obtain ⟨a, ha, rfl⟩ := Option.map_eq_some_iff.mp ha'
    refine Or.inl ⟨a, ha, ?_⟩
    split
    · exact .cancel
    · exact .stay
  | cancelAll =>
    obtain rfl := Option.some.inj h
    rw [List.getElem?_map] at ha'
    obtain ⟨a, ha, rfl⟩ := Option.map_eq_some_iff.mp ha'
    exact Or.inl ⟨a, ha, .cancel⟩
  | act k act =>
    obtain ⟨a, b, ha, hacts, rfl⟩ := act_of_step h
    by_cases hk : k = i
    · subst hk
      rw [List.getElem?_set_self (List.getElem?_eq_some_iff.mp ha).1] at ha'
      obtain rfl := Option.some.inj ha'
      exact Or.inl ⟨a, ha, .act hacts⟩
    · rw [List.getElem?_set_ne hk] at ha'
      exact Or.inl ⟨a', ha', .stay⟩

theorem length_of_step {step : LedgerStep} (h : l.step? step = some l') :
    l.accounts.length ≤ l'.accounts.length ∧ l.inboxes.length ≤ l'.inboxes.length := by
  cases step with
  | addListener =>
    obtain rfl := Option.some.inj h
    exact ⟨Nat.le_refl _, List.length_append ▸ Nat.le_add_right _ _⟩
  | submit name body =>
    obtain rfl := Option.some.inj h
    exact ⟨List.length_append ▸ Nat.le_add_right _ _, Nat.le_refl _⟩
  | cancel k =>
    obtain rfl := Option.some.inj h
    exact ⟨(List.length_modify _ _ _).ge, Nat.le_refl _⟩
  | cancelAll =>
    obtain rfl := Option.some.inj h
    exact ⟨List.length_map _ |>.ge, Nat.le_refl _⟩
  | act k act =>
    obtain ⟨a, a', -, -, rfl⟩ := act_of_step h
    exact ⟨List.length_set.ge, (length_inboxes_enter l k a act).ge⟩

/-- The first end of a task is the last. -/
theorem end_of_run {i : Nat} {a : Account} (ha : l.accounts[i]? = some a) {state : TaskState}
    (hend : a.end? = some state) (hrun : l.run steps = some l') :
    ∃ a', l'.accounts[i]? = some a' ∧ a'.end? = some state := by
  induction steps generalizing l a with
  | nil => exact ⟨a, Option.some.inj hrun ▸ ha, hend⟩
  | cons step steps ih =>
    obtain ⟨next, hnext, hrest⟩ := run_cons hrun
    have hi : i < next.accounts.length :=
      Nat.lt_of_lt_of_le (List.getElem?_eq_some_iff.mp ha).1 (length_of_step hnext).1
    have hb := List.getElem?_eq_getElem hi
    rcases evolves_of_step hnext hb with ⟨a₀, ha₀, hevolves⟩ | ⟨hnone, -⟩
    · obtain rfl := Option.some.inj (ha.symm.trans ha₀)
      exact ih hb (hevolves.end hend) hrest
    · rw [ha] at hnone
      cases hnone

/-- A task ends in the step in which its end is counted, and in no other. -/
theorem ended_step {step : LedgerStep} (h : l.step? step = some l') (i : Nat) :
    (if l'.ended i then 1 else 0) = (if l.ended i then 1 else 0)
      + if step.completes i then 1 else 0 := by
  have hsame (hended : l'.ended i = l.ended i) (hcompletes : step.completes i = false) :
      (if l'.ended i then 1 else 0) = (if l.ended i then 1 else 0)
        + if step.completes i then 1 else 0 := by
    rw [hended, hcompletes]
    rfl
  cases step with
  | addListener => exact hsame (Option.some.inj h ▸ rfl) rfl
  | submit name body =>
    obtain rfl := Option.some.inj h
    refine hsame ?_ rfl
    rcases Nat.lt_or_ge i l.accounts.length with hi | hi
    · simp only [ended, List.getElem?_append_left hi]
    · simp only [ended, List.getElem?_append_right hi, List.getElem?_eq_none hi,
        List.getElem?_singleton]
      split <;> rfl
  | cancel k =>
    obtain rfl := Option.some.inj h
    refine hsame ?_ rfl
    simp only [ended, List.getElem?_modify]
    cases l.accounts[i]? with
    | none => rfl
    | some a => by_cases hk : k = i <;> simp [hk, Account.cancel, Account.end?]
  | cancelAll =>
    obtain rfl := Option.some.inj h
    refine hsame ?_ rfl
    simp only [ended, List.getElem?_map]
    cases l.accounts[i]? <;> rfl
  | act k act =>
    obtain ⟨a, a', ha, hacts, rfl⟩ := act_of_step h
    have hk' := (List.getElem?_eq_some_iff.mp ha).1
    by_cases hk : k = i
    · subst hk
      simp only [ended, List.getElem?_set_self hk', ha, Option.bind_some]
      cases hacts with
      | count t outcome told => simp [Account.end?, LedgerStep.completes]
      | _ => simp [Account.end?, LedgerStep.completes]
    · refine hsame ?_ ?_
      · simp only [ended, List.getElem?_set_ne hk]
      · cases act <;> simp [LedgerStep.completes, hk]

theorem ended_run (hrun : l.run steps = some l') (i : Nat) :
    (if l'.ended i then 1 else 0) = (if l.ended i then 1 else 0) + steps.countP (·.completes i) := by
  induction steps generalizing l with
  | nil =>
    obtain rfl := Option.some.inj hrun
    rfl
  | cons step steps ih =>
    obtain ⟨next, hnext, hrest⟩ := run_cons hrun
    rw [ih hrest, ended_step hnext, List.countP_cons]
    omega

/-- A listener who came before the end of a task is called when it is told. -/
theorem called_of_run {listener i : Nat} (hthere : listener < l.inboxes.length)
    (hreach : ∀ a, l.accounts[i]? = some a → a.isCalled = true → listener < a.reach)
    (hrun : l.run steps = some l') :
    ∀ a, l'.accounts[i]? = some a → a.isCalled = true → listener < a.reach := by
  induction steps generalizing l with
  | nil => exact Option.some.inj hrun ▸ hreach
  | cons step steps ih =>
    obtain ⟨next, hnext, hrest⟩ := run_cons hrun
    refine ih (Nat.lt_of_lt_of_le hthere (length_of_step hnext).2) ?_ hrest
    intro a' ha' hcalled
    rcases evolves_of_step hnext ha' with ⟨a, ha, hevolves⟩ | ⟨-, name, body, rfl⟩
    · exact hevolves.reach hthere (hreach a ha) hcalled
    · cases hcalled

/-- What the books say after some steps, and what they will say. -/
structure Exact (steps : List LedgerStep) (l : Ledger) : Prop where
  /-- A task completes once at most. -/
  once : ∀ i, steps.countP (·.completes i) = if l.ended i then 1 else 0
  /-- How it completed does not change. -/
  final : ∀ later l', l.run later = some l' → ∀ (i : Nat) a state, l.accounts[i]? = some a →
    a.end? = some state → ∃ a', l'.accounts[i]? = some a' ∧ a'.end? = some state
  /-- A listener who is there before a task completes is told once, when all are told: that it ended,
  and how. -/
  notified : ∀ listener < l.inboxes.length, ∀ i, l.ended i = false →
    ∀ later l', l.run later = some l' → ∀ a, l'.accounts[i]? = some a → a.isDone = true →
      l'.notices listener i = [a.task.completion] ∧ a.task.state.isTerminal = true
  /-- Nobody is told of a task twice, or before it has ended. -/
  atMost : ∀ listener i, l.notices listener i = [] ∨ ∃ a, l.accounts[i]? = some a
    ∧ l.notices listener i = [a.task.completion] ∧ a.task.state.isTerminal = true
  /-- Until all are told of a task that has completed, its worker can go on. -/
  progress : ∀ (i : Nat) a, l.accounts[i]? = some a → a.end?.isSome = true → a.isDone = false →
    ∃ act, (l.step? (.act i act)).isSome = true
  statistics : l.statistics = tally l.accounts
  /-- What is counted of a task is the end that is in its record. -/
  outcomes : ∀ a ∈ l.accounts, ∀ outcome, a.task.outcome = some outcome →
    a.task.state = .ofOutcome outcome ∧ a.end? = some (.ofOutcome outcome)
  finished_le : l.statistics.finished ≤ l.statistics.submitted
  finished : (∀ a ∈ l.accounts, a.end?.isSome = true) →
    l.statistics.finished = l.statistics.submitted ∧ l.statistics.submitted = l.accounts.length
  /-- Those tasks are listed that came and whose results were not collected, in the order in which
  they came. -/
  listed : l.statuses = (l.accounts.map (·.task)).filter (!·.joined)
  joined : ∀ a ∈ l.accounts, a.task.joined = true ↔ a.stage = .removed

theorem Sound.statuses (h : l.Sound) :
    l.statuses = (l.accounts.map (·.task)).filter (!·.joined) := by
  have hrecords : l.records = unjoined ((l.accounts.map (·.task)).map (·.joined)) := by
    rw [h.records, List.map_map]
    rfl
  rw [← filterMap_unjoined, ← hrecords]
  refine List.filterMap_congr fun i _ => ?_
  rw [List.getElem?_map]

theorem Sound.notified (h : l.Sound) {listener i : Nat} (hthere : listener < l.inboxes.length)
    (hopen : l.ended i = false) (hrun : l.run steps = some l') {a : Account}
    (ha : l'.accounts[i]? = some a) (hdone : a.isDone = true) :
    l'.notices listener i = [a.task.completion] ∧ a.task.state.isTerminal = true := by
  have huncalled (b : Account) (hb : l.accounts[i]? = some b) (hcalled : b.isCalled = true) :
      listener < b.reach := by
    have hend : b.end? = none := by simpa [ended, hb] using hopen
    rw [Account.isCalled_of_open hend] at hcalled
    cases hcalled
  obtain ⟨hcalled, hreach⟩ := Account.isCalled_of_isDone hdone
  have htold : listener < a.told := hreach ▸ called_of_run hthere huncalled hrun a ha hcalled
  have hl' := h.run hrun
  have hfits := hl'.fits a (List.mem_of_getElem? ha)
  refine ⟨?_, (hfits.ended_of_told (Nat.zero_lt_of_lt htold)).isTerminal⟩
  rw [hl'.notices, ha]
  exact if_pos htold

theorem Sound.atMost (h : l.Sound) (listener i : Nat) :
    l.notices listener i = [] ∨ ∃ a, l.accounts[i]? = some a
      ∧ l.notices listener i = [a.task.completion] ∧ a.task.state.isTerminal = true := by
  rw [h.notices]
  cases ha : l.accounts[i]? with
  | none => exact Or.inl rfl
  | some a =>
    rcases Nat.lt_or_ge listener a.told with htold | htold
    · have hfits := h.fits a (List.mem_of_getElem? ha)
      have hended := hfits.ended_of_told (Nat.zero_lt_of_lt htold)
      exact Or.inr ⟨a, rfl, if_pos htold, hended.isTerminal⟩
    · exact Or.inl (if_neg (Nat.not_lt.mpr htold))

theorem Sound.progress (h : l.Sound) {i : Nat} {a : Account} (ha : l.accounts[i]? = some a)
    (hend : a.end?.isSome = true) (hopen : a.isDone = false) :
    ∃ act, (l.step? (.act i act)).isSome = true := by
  have hfits := h.fits a (List.mem_of_getElem? ha)
  obtain ⟨act, a', hact⟩ := Account.exists_act l.permitFree l.inboxes.length hfits hend hopen
  exact ⟨act, by simp [step?, ha, hact]⟩

theorem Sound.exact (h : l.Sound)
    (honce : ∀ i, steps.countP (·.completes i) = if l.ended i then 1 else 0) : l.Exact steps where
  once := honce
  final _ _ hrun _ _ _ ha hend := end_of_run ha hend hrun
  notified _ hthere _ hopen _ _ hrun _ ha hdone := h.notified hthere hopen hrun ha hdone
  atMost := h.atMost
  progress _ _ ha hend hopen := h.progress ha hend hopen
  statistics := h.statistics
  outcomes a ha _ houtcome := (h.fits a ha).outcome houtcome
  finished_le := by
    rw [h.statistics, finished_tally h.fits]
    exact List.countP_mono_left fun a _ hend => Account.isAdmitted_of_end hend
  finished hall := by
    have hfinished : l.accounts.countP (·.end?.isSome) = l.accounts.length :=
      List.countP_eq_length.mpr hall
    have hsubmitted : l.accounts.countP (·.isAdmitted) = l.accounts.length :=
      List.countP_eq_length.mpr fun a ha => Account.isAdmitted_of_end (hall a ha)
    rw [h.statistics, finished_tally h.fits]
    exact ⟨hfinished.trans hsubmitted.symm, hsubmitted⟩
  listed := h.statuses
  joined a ha := (h.fits a ha).joined_iff

theorem exact_of_start {workers : Nat} (hrun : (start workers).run steps = some l) :
    l.Exact steps := by
  refine ((sound_start workers).run hrun).exact fun i => ?_
  have hended := ended_run hrun i
  rw [show (start workers).ended i = false from rfl] at hended
  simpa using hended.symm

/-- With any number of workers and listeners, in whatever order tasks come, are cancelled, end, are
entered into the books and collected: the books are exact after every entry. Those that a scheduler
shows, whatever is done to it, are among these. -/
theorem bookkeeping_exact (workers : Nat) :
    (∀ steps l, (start workers).run steps = some l → l.Exact steps)
      ∧ ∀ listeners s, Relation.ReflTransGen Scheduler.Does (.ofWorkers workers) s →
        ∃ steps l, (start workers).run steps = some l ∧ l.inboxes.length = listeners
          ∧ l.statistics = s.statistics ∧ l.statuses = s.listed
          ∧ ∀ inbox ∈ l.inboxes, inbox.map (·.2) = s.completions := by
  refine ⟨fun _ _ hrun => exact_of_start hrun, fun listeners s hdoes => ?_⟩
  obtain ⟨steps, hrun⟩ := Pool.reaches_ofScheduler hdoes
  obtain ⟨l₀, hstart, hlength, h₀⟩ := Mirrors.start workers listeners
  obtain ⟨l, hreaches, hlength', h⟩ := h₀.run hrun
  obtain ⟨entries, hentries⟩ := hstart.trans hreaches
  refine ⟨entries, l, hentries, hlength'.trans hlength, h.statistics, ?_, h.inboxes⟩
  rw [h.sound.statuses, h.tasks]
  rfl

/-- One worker: `a` breaks down, `b` is cancelled while it waits, and `c` is taken off the worker. One
listener comes first, one while `a` ends, and one while `b` does. -/
def busy : List LedgerStep :=
  [.addListener, .submit "a" [], .act 0 .enroll, .submit "b" [], .act 0 (.move .grant),
    .act 0 (.move .look), .act 0 (.move .start), .act 1 .enroll,
    .act 0 (.move (.finish (.panicked none))), .act 0 (.move .judge), .act 0 .count,
    .addListener, .act 0 .record, .cancel 1, .act 0 .callTogether, .act 0 .tell,
    .act 1 (.move .quit), .act 1 .count, .addListener, .act 0 .tell, .act 0 .close, .act 0 .collect,
    .act 1 .record, .act 1 .callTogether, .act 0 .remove, .act 1 .tell, .submit "c" [],
    .act 1 .tell, .act 2 .enroll, .act 1 .tell, .act 1 .close, .act 2 (.move .grant),
    .act 2 (.move .look), .act 2 (.move .start), .act 2 .abort, .act 2 .count]

theorem bookkeeping_exact_busy :
    (∃ l, (start 1).run busy = some l ∧ l.statistics = ⟨3, 0, 1, 2⟩
      ∧ l.statuses.map (·.state) = [.cancelled, .running]
      ∧ l.inboxes.map (·.map (·.1)) = [[0, 1], [0, 1], [1]] ∧ l.Exact busy)
      ∧ ∃ steps l, (start 1).run steps = some l ∧ l.inboxes.length = 2
        ∧ l.statistics = ((Scheduler.ofWorkers 1).submit "a" [.finish "made"]).settle.statistics := by
  obtain ⟨hexact, hshown⟩ := bookkeeping_exact 1
  constructor
  · exact ⟨_, rfl, by decide, by decide, by decide, hexact busy _ rfl⟩
  · obtain ⟨steps, l, hrun, hlisteners, hstatistics, -⟩ :=
      hshown 2 _ ((Scheduler.does_settle _).head (.submit _ "a" [.finish "made"]))
    exact ⟨steps, l, hrun, hlisteners, hstatistics⟩

end Ledger
end Linkage

import Linkage.Proofs.Tasks.Account

/-! The books of a scheduler: its counters, the records of its tasks, and what its listeners are
told. They are written one entry at a time, while others read them or write their own. -/
namespace Linkage

/-- What the counters say when they agree with the accounts. -/
def tally (accounts : List Account) : SchedulerStatistics where
  submitted := accounts.countP (·.isAdmitted)
  succeeded := accounts.countP (·.end? = some .success)
  failed := accounts.countP (·.end? = some .error)
  cancelled := accounts.countP (·.end? = some .cancelled)

section Tally

variable {accounts : List Account} {i : Nat} {a : Account}

theorem tally_set_of_same (h : accounts[i]? = some a) (a' : Account)
    (hadmitted : a'.isAdmitted = a.isAdmitted) (hend : a'.end? = a.end?) :
    tally (accounts.set i a') = tally accounts := by
  have hcount (p : Account → Bool) (hp : p a' = p a) :
      (accounts.set i a').countP p = accounts.countP p := by
    have hadd := countP_set_add p h a'
    rw [hp] at hadd
    exact Nat.add_right_cancel hadd
  unfold tally
  rw [hcount _ hadmitted, hcount _ (by rw [hend]), hcount _ (by rw [hend]),
    hcount _ (by rw [hend])]

theorem tally_set_of_end (h : accounts[i]? = some a) (a' : Account)
    (hadmitted : a'.isAdmitted = a.isAdmitted) (hopen : a.end? = none) {state : TaskState}
    (hend : a'.end? = some state) (hterminal : state.isTerminal = true) :
    tally (accounts.set i a') = (tally accounts).count state := by
  have hsubmitted := countP_set_add (·.isAdmitted) h a'
  have hcount (state : TaskState) := countP_set_add (·.end? = some state) h a'
  simp only [hadmitted, hopen, hend] at hsubmitted hcount
  have hsucceeded := hcount .success
  have hfailed := hcount .error
  have hcancelled := hcount .cancelled
  unfold tally
  cases state with
  | waiting => cases hterminal
  | running => cases hterminal
  | _ =>
    simp at hsubmitted hsucceeded hfailed hcancelled
    simp [SchedulerStatistics.count, hsubmitted, hsucceeded, hfailed, hcancelled]

theorem tally_set_of_admitted (h : accounts[i]? = some a) (a' : Account)
    (hnew : a.isAdmitted = false) (hadmitted : a'.isAdmitted = true) (hend : a'.end? = a.end?) :
    tally (accounts.set i a')
      = { tally accounts with submitted := (tally accounts).submitted + 1 } := by
  have hsubmitted := countP_set_add (·.isAdmitted) h a'
  have hcount (state : TaskState) := countP_set_add (·.end? = some state) h a'
  simp only [hnew, hadmitted, Bool.false_eq_true, if_true, if_false, Nat.add_zero] at hsubmitted
  simp only [hend] at hcount
  unfold tally
  rw [hsubmitted, Nat.add_right_cancel (hcount .success), Nat.add_right_cancel (hcount .error),
    Nat.add_right_cancel (hcount .cancelled)]

theorem tally_append_opened (accounts : List Account) (name : String) (body : List Action)
    (isCancelled : Bool) :
    tally (accounts ++ [.opened name body isCancelled]) = tally accounts := by
  simp [tally, Account.opened, Account.isAdmitted, Account.end?]

/-- Every counted end is one of the three, and of a task that was counted when it came. -/
theorem finished_tally (hfits : ∀ a ∈ accounts, a.Fits) :
    (tally accounts).finished = accounts.countP (·.end?.isSome) := by
  induction accounts with
  | nil => rfl
  | cons a accounts ih =>
    have hrest := ih fun a ha => hfits a (List.mem_cons_of_mem _ ha)
    have hterminal (state : TaskState) (hend : a.end? = some state) :
        state.isTerminal = true := (hfits a List.mem_cons_self).isTerminal_of_end hend
    simp only [SchedulerStatistics.finished, tally, List.countP_cons] at hrest ⊢
    cases hend : a.end? with
    | none => simpa using hrest
    | some state =>
      cases state with
      | waiting => cases hterminal _ hend
      | running => cases hterminal _ hend
      | _ =>
        simp
        omega

end Tally

/-- The places of the tasks that are not joined, where it is known of each task if it is. -/
def unjoined (joined : List Bool) : List Nat :=
  (List.range joined.length).filter fun i => joined[i]? = some false

section Unjoined

variable {joined : List Bool} {i : Nat}

theorem unjoined_concat (joined : List Bool) (last : Bool) :
    unjoined (joined ++ [last]) = unjoined joined ++ if last then [] else [joined.length] := by
  unfold unjoined
  rw [List.length_append, List.length_singleton, List.range_succ, List.filter_append]
  congr 1
  · refine List.filter_congr fun i hi => ?_
    rw [List.getElem?_append_left (List.mem_range.mp hi)]
  · cases last <;> simp

theorem unjoined_set (joined : List Bool) (i : Nat) :
    unjoined (joined.set i true) = (unjoined joined).erase i := by
  have hnodup : (unjoined joined).Nodup := List.nodup_range.filter _
  rw [hnodup.erase_eq_filter]
  unfold unjoined
  rw [List.length_set, List.filter_filter]
  refine List.filter_congr fun k hk => ?_
  have hk' := List.mem_range.mp hk
  by_cases hki : k = i
  · subst hki
    simp [hk']
  · rw [List.getElem?_set_ne (Ne.symm hki)]
    simp [hki]

/-- The tasks at these places are those that are not joined. -/
theorem filterMap_unjoined (tasks : List Task) :
    (unjoined (tasks.map (·.joined))).filterMap (tasks[·]?) = tasks.filter (!·.joined) := by
  induction tasks using List.reverseRecOn with
  | nil => rfl
  | append_singleton tasks t ih =>
    have hfront : (unjoined (tasks.map (·.joined))).filterMap ((tasks ++ [t])[·]?)
        = tasks.filter (!·.joined) := by
      rw [← ih]
      refine List.filterMap_congr fun i hi => List.getElem?_append_left ?_
      simpa using List.mem_range.mp (List.mem_of_mem_filter hi)
    rw [List.map_append, List.map_singleton, unjoined_concat, List.filterMap_append, hfront,
      List.filter_append]
    cases hjoined : t.joined <;> simp [hjoined]

end Unjoined

/-- The books of a scheduler. -/
structure Ledger where
  workers : Nat
  accounts : List Account := []
  /-- The places of the tasks that have a record. -/
  records : List Nat := []
  isCancelled : Bool := false
  statistics : SchedulerStatistics := {}
  /-- What each listener was told, and of which task. -/
  inboxes : List (List (Nat × Completion)) := []

/-- A step of anybody. Tasks are known by their places. -/
inductive LedgerStep where
  | addListener
  | submit (name : String) (body : List Action)
  | cancel (i : Nat)
  | cancelAll
  | act (i : Nat) (act : Act)

/-- The end of a task is counted, which is the first that is done when it completes. -/
def LedgerStep.completes (step : LedgerStep) (i : Nat) : Bool :=
  match step with
  | .act k .count => k = i
  | _ => false

namespace Ledger

def start (workers : Nat) : Ledger := { workers := max workers 1 }

def permitFree (l : Ledger) : Bool :=
  l.accounts.countP (·.holdsPermit) < l.workers

/-- What an act writes outside of the account that it is done on. -/
def enter (l : Ledger) (i : Nat) (a : Account) : Act → Ledger
  | .enroll => { l with statistics := { l.statistics with submitted := l.statistics.submitted + 1 } }
  | .count =>
    match a.stage with
    | .alive (.settled outcome) => { l with statistics := l.statistics.count (.ofOutcome outcome) }
    | _ => l
  | .tell =>
    match a.stage with
    | .telling completion _ =>
      { l with inboxes := l.inboxes.modify a.told (· ++ [(i, completion)]) }
    | _ => l
  | .remove => { l with records := l.records.erase i }
  | _ => l

/-- A step that can be made, and what comes of it. -/
def step? (l : Ledger) : LedgerStep → Option Ledger
  | .addListener => some { l with inboxes := l.inboxes ++ [[]] }
  | .submit name body =>
    some { l with
      accounts := l.accounts ++ [.opened name body l.isCancelled]
      records := l.records ++ [l.accounts.length] }
  | .cancel i => some { l with accounts := l.accounts.modify i (·.cancel) }
  | .cancelAll => some { l with isCancelled := true, accounts := l.accounts.map (·.cancel) }
  | .act i act => do
    let a ← l.accounts[i]?
    let a' ← a.act? l.permitFree l.inboxes.length act
    some { l.enter i a act with accounts := l.accounts.set i a' }

/-- Steps one after the other, each of which can be made. -/
def run (l : Ledger) : List LedgerStep → Option Ledger
  | [] => some l
  | step :: steps => (l.step? step).bind (·.run steps)

/-- What can be told of the tasks that have a record. -/
def statuses (l : Ledger) : List Task := l.records.filterMap fun i => l.accounts[i]?.map (·.task)

/-- What the listener of a place was told of the task of a place. -/
def notices (l : Ledger) (listener i : Nat) : List Completion :=
  ((l.inboxes.getD listener []).filter (·.1 = i)).map (·.2)

/-- What every step keeps: all books agree with the accounts. -/
structure Sound (l : Ledger) : Prop where
  fits : ∀ a ∈ l.accounts, a.Fits
  reach : ∀ a ∈ l.accounts, a.reach ≤ l.inboxes.length
  statistics : l.statistics = tally l.accounts
  records : l.records = unjoined (l.accounts.map (·.task.joined))
  notices : ∀ listener i, l.notices listener i
    = (l.accounts[i]?.map (·.notices listener)).getD []

variable {l l' : Ledger}

theorem sound_start (workers : Nat) : (start workers).Sound where
  fits _ h := absurd h List.not_mem_nil
  reach _ h := absurd h List.not_mem_nil
  statistics := rfl
  records := rfl
  notices _ _ := rfl

theorem act_of_step {i : Nat} {act : Act} (h : l.step? (.act i act) = some l') :
    ∃ a a', l.accounts[i]? = some a ∧ Account.Acts l.inboxes.length act a a'
      ∧ l' = { l.enter i a act with accounts := l.accounts.set i a' } := by
  obtain ⟨a, ha, hacted⟩ := Option.bind_eq_some_iff.mp h
  obtain ⟨a', ha', hl'⟩ := Option.bind_eq_some_iff.mp hacted
  exact ⟨a, a', ha, Account.acts_of_act ha', (Option.some.inj hl').symm⟩

/-- The tokens are no part of the books. -/
theorem Sound.congr (h : l.Sound)
    (haccounts : l'.accounts.map (·.untokened) = l.accounts.map (·.untokened))
    (hrecords : l'.records = l.records) (hstatistics : l'.statistics = l.statistics)
    (hinboxes : l'.inboxes = l.inboxes) : l'.Sound := by
  have hmem {a : Account} (ha : a ∈ l'.accounts) :
      ∃ b ∈ l.accounts, b.untokened = a.untokened :=
    List.mem_map.mp (haccounts ▸ List.mem_map_of_mem ha)
  have hmap {β : Type} (f : Account → β) (hf : ∀ a, f a.untokened = f a) :
      l'.accounts.map f = l.accounts.map f := by
    have hsame := congrArg (List.map f) haccounts
    simpa [Function.comp_def, hf] using hsame
  have htally (accounts : List Account) : tally (accounts.map (·.untokened)) = tally accounts := by
    simp only [tally, List.countP_map]
    rfl
  refine ⟨?_, ?_, ?_, ?_, ?_⟩
  · intro a ha
    obtain ⟨b, hb, hsame⟩ := hmem ha
    rw [← Account.fits_untokened, ← hsame]
    exact Account.fits_untokened.mpr (h.fits b hb)
  · intro a ha
    obtain ⟨b, hb, hsame⟩ := hmem ha
    have hreach : b.untokened.reach = a.untokened.reach := congrArg Account.reach hsame
    change a.untokened.reach ≤ l'.inboxes.length
    rw [hinboxes, ← hreach]
    exact h.reach b hb
  · rw [hstatistics, h.statistics, ← htally l'.accounts, haccounts, htally]
  · rw [hrecords, h.records, hmap _ fun _ => rfl]
  · intro listener i
    have hsame := congrArg (·[i]?) (hmap (·.notices listener) fun _ => rfl)
    simp only [List.getElem?_map] at hsame
    rw [hsame, ← h.notices listener i, Ledger.notices, hinboxes]
    rfl

theorem Sound.addListener (h : l.Sound) : Sound { l with inboxes := l.inboxes ++ [[]] } := by
  refine ⟨h.fits, ?_, h.statistics, h.records, ?_⟩
  · intro a ha
    rw [List.length_append]
    exact (h.reach a ha).trans (Nat.le_add_right _ _)
  · intro listener i
    rw [← h.notices listener i, Ledger.notices, Ledger.notices, getD_concat_default]

theorem Sound.submit (h : l.Sound) (name : String) (body : List Action) :
    Sound { l with
      accounts := l.accounts ++ [.opened name body l.isCancelled]
      records := l.records ++ [l.accounts.length] } := by
  refine ⟨?_, ?_, ?_, ?_, ?_⟩
  · intro a ha
    rcases List.mem_append.mp ha with ha | ha
    · exact h.fits a ha
    · rw [List.mem_singleton.mp ha]
      exact Account.fits_opened _ _ _
  · intro a ha
    rcases List.mem_append.mp ha with ha | ha
    · exact h.reach a ha
    · rw [List.mem_singleton.mp ha]
      exact Nat.zero_le _
  · exact h.statistics.trans (tally_append_opened _ _ _ _).symm
  · simp [h.records, unjoined_concat, Account.opened]
  · intro listener i
    let opened := Account.opened name body l.isCancelled
    have hnothing : (l.accounts.map (·.notices listener)).getD i []
        = ((l.accounts ++ [opened]).map (·.notices listener)).getD i [] := by
      rw [List.map_append, List.map_singleton, Account.notices_opened, getD_concat_default]
    simp only [List.getD_eq_getElem?_getD, List.getElem?_map] at hnothing
    exact (h.notices listener i).trans hnothing

/-- What an act enters elsewhere is what it does to the account. -/
theorem Sound.statistics_enter (h : l.Sound) {i : Nat} {a a' : Account}
    (ha : l.accounts[i]? = some a) {listeners : Nat} {act : Act}
    (hacts : Account.Acts listeners act a a') :
    (l.enter i a act).statistics = tally (l.accounts.set i a') := by
  cases hacts with
  | enroll t told =>
    refine Eq.trans ?_ (Eq.symm (tally_set_of_admitted ha _ rfl rfl rfl))
    rw [← h.statistics]
    rfl
  | count t outcome told =>
    have hterminal := TaskState.isTerminal_ofOutcome outcome
    refine Eq.trans ?_ (Eq.symm (tally_set_of_end ha ⟨t, .counted outcome, told⟩ rfl rfl rfl hterminal))
    rw [← h.statistics]
    rfl
  | record t outcome told =>
    have hend : some (t.complete outcome).state = some (.ofOutcome outcome) :=
      congrArg some (t.state_complete outcome)
    exact h.statistics.trans (Eq.symm (tally_set_of_same ha _ rfl hend))
  | _ => exact h.statistics.trans (Eq.symm (tally_set_of_same ha _ rfl rfl))

theorem Sound.records_enter (h : l.Sound) {i : Nat} {a a' : Account}
    (ha : l.accounts[i]? = some a) {listeners : Nat} {act : Act}
    (hacts : Account.Acts listeners act a a') :
    (l.enter i a act).records = unjoined ((l.accounts.set i a').map (·.task.joined)) := by
  have hsame (hjoined : a'.task.joined = a.task.joined) :
      l.records = unjoined ((l.accounts.set i a').map (·.task.joined)) := by
    rw [h.records, map_set_of_same _ ha hjoined]
  cases hacts with
  | remove t told =>
    rw [List.map_set, unjoined_set, ← h.records]
    rfl
  | move told hown hmove => exact hsame (Job.keeps_of_move hown hmove).2.1
  | _ => exact hsame rfl

/-- Of one task more, one listener knows. -/
theorem notices_tell (l : Ledger) {listener : Nat} (hlistener : listener < l.inboxes.length) (i : Nat)
    (completion : Completion) (listener' k : Nat) :
    notices { l with inboxes := l.inboxes.modify listener (· ++ [(i, completion)]) } listener' k
      = l.notices listener' k
        ++ if listener' = listener ∧ k = i then [completion] else [] := by
  unfold notices
  by_cases hsame : listener' = listener
  · subst hsame
    have hinbox : (l.inboxes.modify listener' (· ++ [(i, completion)])).getD listener' []
        = l.inboxes.getD listener' [] ++ [(i, completion)] := by
      simp [List.getD_eq_getElem?_getD, hlistener]
    rw [hinbox, List.filter_append, List.map_append]
    by_cases hk : k = i
    · simp [hk]
    · simp [hk, Ne.symm hk]
  · have hinbox : (l.inboxes.modify listener (· ++ [(i, completion)])).getD listener' []
        = l.inboxes.getD listener' [] := by
      simp [List.getD_eq_getElem?_getD, Ne.symm hsame]
    rw [hinbox, if_neg fun hboth => hsame hboth.1, List.append_nil]

theorem Sound.notices_enter (h : l.Sound) {i : Nat} {a a' : Account}
    (ha : l.accounts[i]? = some a) {act : Act} (hacts : Account.Acts l.inboxes.length act a a')
    (listener k : Nat) : (l.enter i a act).notices listener k
      = ((l.accounts.set i a')[k]?.map (·.notices listener)).getD [] := by
  have hi := (List.getElem?_eq_some_iff.mp ha).1
  have hmem := List.mem_of_getElem? ha
  by_cases hact : act = .tell
  · subst hact
    cases hacts with
    | @tell t completion audience told hlt =>
      -- only the next listener hears of it, and only of this task
      have hlistener : told < l.inboxes.length := Nat.lt_of_lt_of_le hlt (h.reach _ hmem)
      have hsame : completion = t.completion := (h.fits _ hmem).2.2.1
      refine (notices_tell l hlistener i completion listener k).trans ?_
      rw [h.notices]
      by_cases hk : k = i
      · subst hk
        rw [ha, List.getElem?_set_self hi]
        simp only [Option.map_some, Option.getD_some, Account.notices, hsame, and_true]
        by_cases hnext : listener = told
        · rw [if_neg (by omega), if_pos hnext, if_pos (by omega), List.nil_append]
        · rw [if_neg hnext, List.append_nil]
          exact if_congr (by omega) rfl rfl
      · rw [if_neg fun hboth => hk hboth.2, List.append_nil, List.getElem?_set_ne (Ne.symm hk)]
  · have hinboxes : (l.enter i a act).inboxes = l.inboxes := by
      cases hacts with
      | tell t completion hlt => exact absurd rfl hact
      | _ => rfl
    have hnotices := hacts.notices (h.fits a hmem) hact
    rw [Ledger.notices, hinboxes, ← Ledger.notices, h.notices]
    by_cases hk : k = i
    · subst hk
      rw [ha, List.getElem?_set_self hi, Option.map_some, Option.map_some, hnotices]
    · rw [List.getElem?_set_ne (Ne.symm hk)]

theorem length_inboxes_enter (l : Ledger) (i : Nat) (a : Account) (act : Act) :
    (l.enter i a act).inboxes.length = l.inboxes.length := by
  unfold enter
  split
  · rfl
  · split <;> rfl
  · split
    · exact List.length_modify _ _ _
    · rfl
  · rfl
  · rfl

theorem Sound.act (h : l.Sound) {i : Nat} {a a' : Account} (ha : l.accounts[i]? = some a)
    {act : Act} (hacts : Account.Acts l.inboxes.length act a a') :
    Sound { l.enter i a act with accounts := l.accounts.set i a' } := by
  have hmem := List.mem_of_getElem? ha
  have hfits := h.fits a hmem
  refine ⟨?_, ?_, h.statistics_enter ha hacts, h.records_enter ha hacts,
    h.notices_enter ha hacts⟩
  · intro b hb
    rcases List.mem_or_eq_of_mem_set hb with hb | rfl
    · exact h.fits b hb
    · exact hfits.acts hacts
  · intro b hb
    rw [length_inboxes_enter]
    rcases List.mem_or_eq_of_mem_set hb with hb | rfl
    · exact h.reach b hb
    · exact hacts.reach_le (h.reach a hmem)

theorem Sound.step (h : l.Sound) {step : LedgerStep} (hstep : l.step? step = some l') :
    l'.Sound := by
  cases step with
  | addListener => exact Option.some.inj hstep ▸ h.addListener
  | submit name body => exact Option.some.inj hstep ▸ h.submit name body
  | cancel i =>
    obtain rfl := Option.some.inj hstep
    refine h.congr ?_ rfl rfl rfl
    refine List.ext_getElem? fun k => ?_
    simp only [List.getElem?_map, List.getElem?_modify]
    cases l.accounts[k]? with
    | none => rfl
    | some a => by_cases hk : i = k <;> simp [hk, Account.untokened, Account.cancel]
  | cancelAll =>
    obtain rfl := Option.some.inj hstep
    refine h.congr ?_ rfl rfl rfl
    simp [Account.untokened, Account.cancel]
  | act i act =>
    obtain ⟨a, a', ha, hacts, rfl⟩ := act_of_step hstep
    exact h.act ha hacts

variable {steps : List LedgerStep}

theorem run_cons {step : LedgerStep} (h : l.run (step :: steps) = some l') :
    ∃ next, l.step? step = some next ∧ next.run steps = some l' :=
  Option.bind_eq_some_iff.mp h

theorem run_append {before after : List LedgerStep} (h : l.run before = some l') :
    l.run (before ++ after) = l'.run after := by
  induction before generalizing l with
  | nil =>
    obtain rfl := Option.some.inj h
    rfl
  | cons step before ih =>
    obtain ⟨next, hnext, hrest⟩ := run_cons h
    rw [List.cons_append, run, hnext, Option.bind_some, ih hrest]

theorem Sound.run (h : l.Sound) (hrun : l.run steps = some l') : l'.Sound := by
  induction steps generalizing l with
  | nil => exact Option.some.inj hrun ▸ h
  | cons step steps ih =>
    obtain ⟨next, hnext, hrest⟩ := run_cons hrun
    exact ih (h.step hnext) hrest

end Ledger
end Linkage

import Linkage.Files.Cleanup
import Mathlib.Data.List.Sort
import Mathlib.Tactic

/-! What a cleanup makes of each file. It tries the files that were not used for longest, and no more
of them than it takes to come within the quota. -/
namespace Linkage

theorem LockTable.removeUnlocked_cases {ε σ : Type} (t : LockTable) (remove : Place → Except ε σ)
    (place : Place) :
    (t.isLocked place = true ∧ t.removeUnlocked remove place = .ok none)
      ∨ (t.isLocked place = false ∧ ∃ disk, remove place = .ok disk ∧
        t.removeUnlocked remove place = .ok (some disk))
      ∨ (t.isLocked place = false ∧ ∃ fault, remove place = .error fault ∧
        t.removeUnlocked remove place = .error fault) := by
  unfold LockTable.removeUnlocked
  cases hlocked : t.isLocked place with
  | true => exact .inl ⟨rfl, rfl⟩
  | false =>
    right
    cases hremove : remove place with
    | ok disk => exact .inl ⟨rfl, disk, rfl, rfl⟩
    | error fault => exact .inr ⟨rfl, fault, rfl, rfl⟩

namespace Cleanup

variable {ε σ : Type}

/-- What becomes of a file. -/
inductive Fate where
  | removed
  | locked
  | failed
  | untried
  deriving DecidableEq

/-- The files that meet a fate, in their order. -/
def filesOf (fate : Fate) (fates : List (UsedFile × Fate)) : List UsedFile :=
  (fates.filter (·.2 = fate)).map (·.1)

@[simp] theorem filesOf_nil (fate : Fate) : filesOf fate [] = [] := rfl

@[simp] theorem filesOf_cons_self (fate : Fate) (file : UsedFile) (fates : List (UsedFile × Fate)) :
    filesOf fate ((file, fate) :: fates) = file :: filesOf fate fates := by
  simp [filesOf]

@[simp] theorem filesOf_cons_of_ne {fate other : Fate} (h : other ≠ fate) (file : UsedFile)
    (fates : List (UsedFile × Fate)) : filesOf fate ((file, other) :: fates) = filesOf fate fates := by
  simp [filesOf, h]

theorem mem_filesOf {fate : Fate} {file : UsedFile} {fates : List (UsedFile × Fate)} :
    file ∈ filesOf fate fates ↔ (file, fate) ∈ fates := by
  simp [filesOf]

theorem filesOf_untried {fate : Fate} (h : fate ≠ .untried) (files : List UsedFile) :
    filesOf fate (files.map (·, .untried)) = [] := by
  induction files with
  | nil => rfl
  | cons file files ih => rw [List.map_cons, filesOf_cons_of_ne h.symm, ih]

theorem filesOf_eq_map {fate : Fate} {fates : List (UsedFile × Fate)}
    (h : ∀ entry ∈ fates, entry.2 = fate) : filesOf fate fates = fates.map (·.1) := by
  rw [filesOf, List.filter_eq_self.mpr fun entry hentry => decide_eq_true (h entry hentry)]

/-! ## Sizes -/

@[simp] theorem totalSize_nil : totalSize [] = 0 := rfl

@[simp] theorem totalSize_cons (file : UsedFile) (files : List UsedFile) :
    totalSize (file :: files) = file.size + totalSize files := rfl

/-- The bytes of files all together, however many these are. -/
def bytesOf (files : List UsedFile) : Nat := (files.map (·.size.toNat)).sum

@[simp] theorem bytesOf_nil : bytesOf [] = 0 := rfl

@[simp] theorem bytesOf_cons (file : UsedFile) (files : List UsedFile) :
    bytesOf (file :: files) = file.size.toNat + bytesOf files := rfl

theorem toNat_totalSize {files : List UsedFile} (h : bytesOf files < 2 ^ 64) :
    (totalSize files).toNat = bytesOf files := by
  induction files with
  | nil => rfl
  | cons file files ih =>
    rw [bytesOf_cons] at h
    rw [totalSize_cons, UInt64.toNat_add, ih (by omega), bytesOf_cons, Nat.mod_eq_of_lt h]

theorem bytesOf_perm {files others : List UsedFile} (h : files.Perm others) :
    bytesOf files = bytesOf others :=
  (h.map _).sum_eq

theorem bytesOf_filesOf_le (fate : Fate) (fates : List (UsedFile × Fate)) :
    bytesOf (filesOf fate fates) ≤ bytesOf (fates.map (·.1)) := by
  have hsublist : (filesOf fate fates).Sublist (fates.map (·.1)) := List.filter_sublist.map _
  exact (hsublist.map _).sum_le_sum fun _ _ => Nat.zero_le _

theorem toNat_without (used size : UInt64) :
    (without used size).toNat = used.toNat - size.toNat := by
  unfold without
  split
  · next h => exact (Nat.sub_eq_zero_of_le (UInt64.le_iff_toNat_le.mp h)).symm
  · next h => exact UInt64.toNat_sub_of_le _ _ (UInt64.le_of_lt (UInt64.not_le.mp h))

/-! ## What happens on the disk -/

/-- A file meets its fate. What is removed, or cannot be, is not locked, and only what is removed
changes the disk. -/
inductive Meets (remove : σ → Place → Except ε σ) (locks : LockTable) (disk : σ) :
    UsedFile × Fate → σ → Prop where
  | removed {file : UsedFile} {next : σ} : locks.isLocked file.place = false →
      remove disk file.place = .ok next → Meets remove locks disk (file, .removed) next
  | locked {file : UsedFile} : locks.isLocked file.place = true →
      Meets remove locks disk (file, .locked) disk
  | failed {file : UsedFile} {fault : ε} : locks.isLocked file.place = false →
      remove disk file.place = .error fault → Meets remove locks disk (file, .failed) disk
  | untried {file : UsedFile} : Meets remove locks disk (file, .untried) disk

/-- Files meet their fates one after the other. -/
inductive Happens (remove : σ → Place → Except ε σ) (locks : LockTable) :
    σ → List (UsedFile × Fate) → σ → Prop where
  | nil {disk : σ} : Happens remove locks disk [] disk
  | cons {disk next last : σ} {entry : UsedFile × Fate} {fates : List (UsedFile × Fate)} :
      Meets remove locks disk entry next → Happens remove locks next fates last →
      Happens remove locks disk (entry :: fates) last

variable {remove : σ → Place → Except ε σ} {locks : LockTable}

theorem happens_untried (files : List UsedFile) (disk : σ) :
    Happens remove locks disk (files.map (·, .untried)) disk := by
  induction files with
  | nil => exact .nil
  | cons file files ih => exact .cons .untried ih

theorem Happens.meets {fates : List (UsedFile × Fate)} {disk last : σ}
    (h : Happens remove locks disk fates last) :
    ∀ entry ∈ fates, ∃ before after, Meets remove locks before entry after := by
  induction h with
  | nil => exact fun entry hentry => absurd hentry List.not_mem_nil
  | @cons disk next last entry fates hmeets _ ih =>
    intro other hother
    rcases List.mem_cons.mp hother with rfl | hother
    · exact ⟨disk, next, hmeets⟩
    · exact ih other hother

theorem Happens.unlocked {fates : List (UsedFile × Fate)} {disk last : σ}
    (h : Happens remove locks disk fates last) {file : UsedFile}
    (hfile : file ∈ filesOf .removed fates) : locks.isLocked file.place = false := by
  obtain ⟨before, after, hmeets⟩ := h.meets _ (mem_filesOf.mp hfile)
  cases hmeets with
  | removed hunlocked _ => exact hunlocked

theorem Happens.eq_untried {fates : List (UsedFile × Fate)} {disk last : σ}
    (h : Happens remove locks disk fates last) {entry : UsedFile × Fate} (hentry : entry ∈ fates)
    (hkept : entry.2 ≠ .removed) (hunlocked : locks.isLocked entry.1.place = false)
    (hable : entry.2 ≠ .failed) : entry.2 = .untried := by
  obtain ⟨before, after, hmeets⟩ := h.meets _ hentry
  cases hmeets with
  | removed => exact absurd rfl hkept
  | locked hlocked => exact absurd (hlocked.symm.trans hunlocked) (by decide)
  | failed => exact absurd rfl hable
  | untried => rfl

/-! ## What the quota asks for -/

/-- A file is tried as long as more bytes than the quota are used, and after that none is. -/
inductive Spends (quota : Nat) : (used : Nat) → List (UsedFile × Fate) → Prop where
  | nil {used : Nat} : Spends quota used []
  | removed {used : Nat} {file : UsedFile} {fates : List (UsedFile × Fate)} : quota < used →
      Spends quota (used - file.size.toNat) fates → Spends quota used ((file, .removed) :: fates)
  | spared {used : Nat} {file : UsedFile} {fate : Fate} {fates : List (UsedFile × Fate)} :
      fate = .locked ∨ fate = .failed → quota < used → Spends quota used fates →
      Spends quota used ((file, fate) :: fates)
  | untried {used : Nat} {files : List UsedFile} : used ≤ quota →
      Spends quota used (files.map (·, .untried))

namespace Spends

variable {quota used : Nat} {fates : List (UsedFile × Fate)}

theorem tried {file : UsedFile} {fate : Fate} (hfate : fate ≠ .untried) (hover : quota < used)
    (h : Spends quota (used - bytesOf (filesOf .removed [(file, fate)])) fates) :
    Spends quota used ((file, fate) :: fates) := by
  cases fate with
  | removed => exact .removed hover h
  | locked => exact .spared (.inl rfl) hover h
  | failed => exact .spared (.inr rfl) hover h
  | untried => exact absurd rfl hfate

theorem eq_untried (h : Spends quota used fates) (hused : used ≤ quota) :
    ∀ entry ∈ fates, entry.2 = .untried := by
  cases h with
  | nil => exact fun entry hentry => absurd hentry List.not_mem_nil
  | removed hover _ => omega
  | spared _ hover _ => omega
  | untried _ =>
    intro entry hentry
    obtain ⟨file, -, rfl⟩ := List.mem_map.mp hentry
    rfl

theorem over_before_removal (h : Spends quota used fates) {before after : List (UsedFile × Fate)}
    {file : UsedFile} (hsplit : fates = before ++ (file, .removed) :: after) :
    quota < used - bytesOf (filesOf .removed before) := by
  induction h generalizing before with
  | nil => simp at hsplit
  | @removed used first fates hover hrest ih =>
    cases before with
    | nil => exact hover
    | cons entry before =>
      obtain ⟨rfl, htail⟩ := List.cons.inj hsplit
      have hover' := ih htail
      rw [filesOf_cons_self, bytesOf_cons]
      omega
  | @spared used first fate fates hfate hover hrest ih =>
    have hne : fate ≠ .removed := by
      rcases hfate with rfl | rfl <;> decide
    cases before with
    | nil => exact absurd (congrArg Prod.snd (List.cons.inj hsplit).1) hne
    | cons entry before =>
      obtain ⟨rfl, htail⟩ := List.cons.inj hsplit
      rw [filesOf_cons_of_ne hne]
      exact ih htail
  | untried _ =>
    have hmem : (file, Fate.removed) ∈ before ++ (file, .removed) :: after :=
      List.mem_append_right _ List.mem_cons_self
    rw [← hsplit] at hmem
    simp at hmem

theorem within_or_all_tried (h : Spends quota used fates) :
    used - bytesOf (filesOf .removed fates) ≤ quota ∨ ∀ entry ∈ fates, entry.2 ≠ .untried := by
  induction h with
  | nil => exact .inr fun entry hentry => absurd hentry List.not_mem_nil
  | removed _ _ ih =>
    rw [filesOf_cons_self, bytesOf_cons, List.forall_mem_cons]
    rcases ih with ih | ih
    · exact .inl (by omega)
    · exact .inr ⟨nofun, ih⟩
  | @spared used file fate fates hfate _ _ ih =>
    have hfates : fate ≠ .removed ∧ fate ≠ .untried := by
      rcases hfate with rfl | rfl <;> decide
    rw [filesOf_cons_of_ne hfates.1, List.forall_mem_cons]
    rcases ih with ih | ih
    · exact .inl ih
    · exact .inr ⟨hfates.2, ih⟩
  | untried hused => exact .inl (by omega)

/-- No file is tried after one that is not. -/
theorem untried_last (h : Spends quota used fates) :
    fates.Pairwise fun a b => a.2 = .untried → b.2 = .untried := by
  induction h with
  | nil => exact List.Pairwise.nil
  | removed _ _ ih =>
    refine List.pairwise_cons.mpr ⟨fun entry _ huntried => ?_, ih⟩
    cases huntried
  | spared hfate _ _ ih =>
    refine List.pairwise_cons.mpr ⟨fun entry _ huntried => ?_, ih⟩
    obtain rfl : _ = Fate.untried := huntried
    rcases hfate with hfate | hfate <;> cases hfate
  | untried hused =>
    refine List.pairwise_map.mpr (List.pairwise_of_forall fun _ _ _ => rfl)

end Spends

variable {quota : UInt64}

/-- The report after files have met their fates. -/
def Report.after (r : Report) (fates : List (UsedFile × Fate)) : Report :=
  { r with
    removed := r.removed + (filesOf .removed fates).length
    freed := r.freed + totalSize (filesOf .removed fates)
    skipped := r.skipped + (filesOf .locked fates).length }

theorem Report.after_untried (r : Report) (files : List UsedFile) :
    r.after (files.map (·, .untried)) = r := by
  simp [Report.after, filesOf_untried]

theorem Report.after_cons (r : Report) (entry : UsedFile × Fate)
    (fates : List (UsedFile × Fate)) : r.after (entry :: fates) = (r.after [entry]).after fates := by
  obtain ⟨file, fate⟩ := entry
  cases fate <;> simp [Report.after, UInt64.add_assoc] <;> omega

theorem removeOldest_of_le {used : UInt64} (h : used ≤ quota) (files : List UsedFile)
    (report : Report) (disk : σ) :
    removeOldest remove locks quota used files report disk = (report, disk) := by
  cases files with
  | nil => rfl
  | cons file files => exact if_pos h

/-- As long as more than the quota is used the next file is tried. -/
theorem removeOldest_cons {used : UInt64} (h : quota < used) (file : UsedFile)
    (files : List UsedFile) (report : Report) (disk : σ) :
    ∃ fate next left, fate ≠ .untried ∧ Meets remove locks disk (file, fate) next
      ∧ left.toNat = used.toNat - bytesOf (filesOf .removed [(file, fate)])
      ∧ removeOldest remove locks quota used (file :: files) report disk
        = removeOldest remove locks quota left files (report.after [(file, fate)]) next := by
  rw [removeOldest, if_neg (UInt64.not_le.mpr h)]
  rcases locks.removeUnlocked_cases (remove disk) file.place with
    ⟨hlocked, hanswer⟩ | ⟨hunlocked, next, hremove, hanswer⟩ | ⟨hunlocked, fault, hremove, hanswer⟩
  · rw [hanswer]
    exact ⟨.locked, disk, used, nofun, .locked hlocked, rfl, by simp [Report.after]⟩
  · rw [hanswer]
    exact ⟨.removed, next, without used file.size, nofun, .removed hunlocked hremove,
      toNat_without used file.size, by simp [Report.after]⟩
  · rw [hanswer]
    exact ⟨.failed, disk, used, nofun, .failed hunlocked hremove, rfl, by simp [Report.after]⟩

theorem removeOldest_spends (used : UInt64) (files : List UsedFile) (report : Report) (disk : σ) :
    ∃ fates, fates.map (·.1) = files
      ∧ Happens remove locks disk fates (removeOldest remove locks quota used files report disk).2
      ∧ Spends quota.toNat used.toNat fates
      ∧ (removeOldest remove locks quota used files report disk).1 = report.after fates := by
  induction files generalizing used report disk with
  | nil => exact ⟨[], rfl, .nil, .nil, (Report.after_untried report []).symm⟩
  | cons file files ih =>
    by_cases hused : used ≤ quota
    · have huntried := Report.after_untried report (file :: files)
      rw [removeOldest_of_le hused]
      refine ⟨(file :: files).map (·, .untried), ?_, happens_untried _ disk,
        .untried (UInt64.le_iff_toNat_le.mp hused), huntried.symm⟩
      rw [List.map_map]
      exact List.map_id _
    · have hover : quota < used := UInt64.not_le.mp hused
      obtain ⟨fate, next, left, htried, hmeets, hleft, hstep⟩ :=
        removeOldest_cons hover file files report disk
      obtain ⟨fates, hfiles, hhappens, hspends, hreport⟩ :=
        ih left (report.after [(file, fate)]) next
      rw [hleft] at hspends
      rw [hstep]
      have hafter := Report.after_cons report (file, fate) fates
      refine ⟨(file, fate) :: fates, ?_, .cons hmeets hhappens,
        .tried htried (UInt64.lt_iff_toNat_lt.mp hover) hspends, ?_⟩
      · rw [List.map_cons, hfiles]
      · exact hreport.trans hafter.symm

theorem pairwise_lastUsed (files : List UsedFile) :
    (files.mergeSort fun a b => a.lastUsed ≤ b.lastUsed).Pairwise
      fun a b => a.lastUsed ≤ b.lastUsed := by
  refine List.Pairwise.imp of_decide_eq_true (List.pairwise_mergeSort ?_ ?_ files)
  · intro a b c hab hbc
    simp only [decide_eq_true_eq] at *
    omega
  · intro a b
    simp only [Bool.or_eq_true, decide_eq_true_eq]
    omega

theorem bringWithin_eq (files : List UsedFile) (disk : σ) :
    bringWithin remove locks quota files disk
      = removeOldest remove locks quota (totalSize files)
        (files.mergeSort fun a b => a.lastUsed ≤ b.lastUsed)
        { scanned := files.length, total := totalSize files } disk := by
  unfold bringWithin
  by_cases hwithin : totalSize files ≤ quota
  · rw [if_pos hwithin, removeOldest_of_le hwithin]
  · exact if_neg hwithin

/-- Files that are in the order in which they were last used are tried in just that order. -/
theorem bringWithin_of_sorted {files : List UsedFile}
    (h : files.Pairwise fun a b => a.lastUsed ≤ b.lastUsed) (disk : σ) :
    bringWithin remove locks quota files disk
      = removeOldest remove locks quota (totalSize files) files
        { scanned := files.length, total := totalSize files } disk := by
  rw [bringWithin_eq, List.mergeSort_of_pairwise (h.imp decide_eq_true)]

/-- In the order in which they were last used the files meet fates that the quota asks for. -/
theorem bringWithin_spends (remove : σ → Place → Except ε σ) (locks : LockTable)
    (quota : UInt64) (files : List UsedFile) (disk : σ) :
    ∃ fates, (fates.map (·.1)).Perm files
      ∧ fates.Pairwise (fun a b => a.1.lastUsed ≤ b.1.lastUsed)
      ∧ Happens remove locks disk fates (bringWithin remove locks quota files disk).2
      ∧ Spends quota.toNat (totalSize files).toNat fates
      ∧ (bringWithin remove locks quota files disk).1
        = Report.after { scanned := files.length, total := totalSize files } fates := by
  rw [bringWithin_eq]
  obtain ⟨fates, hfates, hhappens, hspends, hreport⟩ := removeOldest_spends (totalSize files)
    (files.mergeSort fun a b => a.lastUsed ≤ b.lastUsed)
    { scanned := files.length, total := totalSize files } disk
  refine ⟨fates, ?_, ?_, hhappens, hspends, hreport⟩
  · rw [hfates]
    exact List.mergeSort_perm files _
  · have hsorted := pairwise_lastUsed files
    rw [← hfates, List.pairwise_map] at hsorted
    exact hsorted

/-- A cleanup keeps to what it is for: each file meets one fate, in the order in which they were last
used. No locked file is removed, and no file at all if the total is within the quota; in front of each
removal more than the quota is used; a file that is kept, is not locked and can be removed was last used
no earlier than any that is removed; and at the end the quota is kept, or there is no file that was not
removed, locked or impossible to remove. What is counted are all bytes of the files. -/
structure JustEnough (locks : LockTable) (quota : UInt64) (files : List UsedFile)
    (fates : List (UsedFile × Fate)) (report : Report) : Prop where
  accounted : (fates.map (·.1)).Perm files
  oldestFirst : fates.Pairwise fun a b => a.1.lastUsed ≤ b.1.lastUsed
  unlocked : ∀ file ∈ filesOf .removed fates, locks.isLocked file.place = false
  untouched : bytesOf files ≤ quota.toNat → ∀ entry ∈ fates, entry.2 = .untried
  needed : ∀ before file after, fates = before ++ (file, .removed) :: after →
    quota.toNat < bytesOf files - bytesOf (filesOf .removed before)
  oldest : ∀ file ∈ filesOf .removed fates, ∀ entry ∈ fates, entry.2 ≠ .removed →
    locks.isLocked entry.1.place = false → entry.2 ≠ .failed → file.lastUsed ≤ entry.1.lastUsed
  enough : report.total.toNat - report.freed.toNat ≤ quota.toNat ∨
    ∀ entry ∈ fates, entry.2 = .removed ∨ entry.2 = .locked ∨ entry.2 = .failed
  scanned : report.scanned = files.length
  total : report.total.toNat = bytesOf files
  removed : report.removed = (filesOf .removed fates).length
  freed : report.freed.toNat = bytesOf (filesOf .removed fates)
  freed_le : report.freed ≤ report.total
  skipped : report.skipped = (filesOf .locked fates).length

theorem Spends.lastUsed_le {quota used : Nat} {fates : List (UsedFile × Fate)}
    (h : Spends quota used fates)
    (hsorted : fates.Pairwise fun a b => a.1.lastUsed ≤ b.1.lastUsed) {file other : UsedFile}
    (hremoved : (file, .removed) ∈ fates) (hother : (other, .untried) ∈ fates) :
    file.lastUsed ≤ other.lastUsed := by
  let Ordered (a b : UsedFile × Fate) : Prop :=
    a.2 = .removed → b.2 = .untried → a.1.lastUsed ≤ b.1.lastUsed
  have hself : ∀ a ∈ fates, Ordered a a := fun a _ _ _ => Int.le_refl _
  have hforward : fates.Pairwise Ordered := hsorted.imp fun hle _ _ => hle
  -- behind a file that is not tried none is removed
  have hbackward : fates.Pairwise (flip Ordered) := h.untried_last.imp fun huntried hb ha => by
    cases hb.symm.trans (huntried ha)
  exact hforward.forall_of_forall_of_flip hself hbackward hremoved hother rfl rfl

theorem justEnough_of_spends {files : List UsedFile} (hfits : bytesOf files < 2 ^ 64)
    {fates : List (UsedFile × Fate)} {disk last : σ} (hfiles : (fates.map (·.1)).Perm files)
    (hsorted : fates.Pairwise fun a b => a.1.lastUsed ≤ b.1.lastUsed)
    (hhappens : Happens remove locks disk fates last)
    (hspends : Spends quota.toNat (totalSize files).toNat fates) :
    JustEnough locks quota files fates
      (Report.after { scanned := files.length, total := totalSize files } fates) := by
  let report := Report.after { scanned := files.length, total := totalSize files } fates
  have htotal : (totalSize files).toNat = bytesOf files := toNat_totalSize hfits
  have hle : bytesOf (filesOf .removed fates) ≤ bytesOf files :=
    (bytesOf_filesOf_le .removed fates).trans_eq (bytesOf_perm hfiles)
  have hfreed : report.freed.toNat = bytesOf (filesOf .removed fates) := by
    have hsum : report.freed = totalSize (filesOf .removed fates) := UInt64.zero_add _
    rw [hsum, toNat_totalSize (hle.trans_lt hfits)]
  have hfreedLe : report.freed ≤ report.total := by
    rw [UInt64.le_iff_toNat_le, hfreed]
    exact hle.trans_eq htotal.symm
  rw [htotal] at hspends
  refine ⟨hfiles, hsorted, fun file => hhappens.unlocked, hspends.eq_untried,
    fun before file after => hspends.over_before_removal, ?_, ?_, rfl, htotal, Nat.zero_add _,
    hfreed, hfreedLe, Nat.zero_add _⟩
  · intro file hfile entry hentry hkept hunlocked hable
    have huntried : entry.2 = .untried := hhappens.eq_untried hentry hkept hunlocked hable
    exact hspends.lastUsed_le hsorted (mem_filesOf.mp hfile) (huntried ▸ hentry)
  · rw [hfreed, show report.total.toNat = _ from htotal]
    refine hspends.within_or_all_tried.imp_right fun htried entry hentry => ?_
    have hne : entry.2 ≠ .untried := htried entry hentry
    cases hfate : entry.2 with
    | removed => exact .inl rfl
    | locked => exact .inr (.inl rfl)
    | failed => exact .inr (.inr rfl)
    | untried => exact absurd hfate hne

/-- Whatever files there are, if 64 bits hold the number of their bytes, and whichever of them are
locked and whichever cannot be removed, a cleanup removes just enough of them, those first that were
not used for longest, and what happens on the disk is what it reports. -/
theorem cleanup_removes_just_enough (remove : σ → Place → Except ε σ) (locks : LockTable)
    (quota : UInt64) {files : List UsedFile} (hfits : bytesOf files < 2 ^ 64) (disk : σ) :
    ∃ fates, Happens remove locks disk fates (bringWithin remove locks quota files disk).2
      ∧ JustEnough locks quota files fates (bringWithin remove locks quota files disk).1 := by
  obtain ⟨fates, hfiles, hsorted, hhappens, hspends, hreport⟩ :=
    bringWithin_spends remove locks quota files disk
  refine ⟨fates, hhappens, ?_⟩
  rw [hreport]
  exact justEnough_of_spends hfits hfiles hsorted hhappens hspends

/-- A disk that is known by what was removed from it, and that does not give up one of its files. -/
def removeButStuck (gone : List Place) (place : Place) : Except Unit (List Place) :=
  if place = .here ["stuck"] then .error () else .ok (place :: gone)

/-- Of the three files that were not used for longest one cannot be removed and one is locked. -/
def usedFiles : List UsedFile := [⟨.here ["stuck"], 1, 0⟩, ⟨.here ["held"], 5, 1⟩,
  ⟨.here ["old"], 3, 2⟩, ⟨.here ["new"], 4, 9⟩]

def heldLocks : LockTable := .lock {} (.here ["held"])

theorem cleanup_removes_just_enough_usedFiles :
    bringWithin removeButStuck heldLocks 10 usedFiles []
      = ({ scanned := 4, total := 13, removed := 1, freed := 3, skipped := 1 }, [.here ["old"]])
    ∧ bytesOf usedFiles < 2 ^ 64
    ∧ ∃ fates, Happens removeButStuck heldLocks [] fates
        (bringWithin removeButStuck heldLocks 10 usedFiles []).2
      ∧ JustEnough heldLocks 10 usedFiles fates
        (bringWithin removeButStuck heldLocks 10 usedFiles []).1 :=
  ⟨bringWithin_of_sorted (by decide) [], by decide,
    cleanup_removes_just_enough removeButStuck heldLocks 10 (by decide) []⟩

/-- A disk that gives up every file. -/
def removeAny (_ : Unit) (_ : Place) : Except Unit Unit := .ok ()

/-- Four of the largest files that a file system takes, and a small one between them. -/
def hugeFiles : List UsedFile :=
  let huge (name : String) (lastUsed : Int) : UsedFile :=
    ⟨.here [name], 0x7FFFFFFFFFFFFFFF, lastUsed⟩
  [huge "a" 0, huge "b" 1, ⟨.here ["c"], 3, 2⟩, huge "d" 3, huge "e" 4]

/-- Where 64 bits do not hold the number of bytes, the total and what is freed wrap around: a
cleanup ends with huge files left that nothing keeps from being removed, and does not report what it
freed. -/
theorem cleanup_wraps_around :
    (bringWithin removeAny {} 0 hugeFiles ()).1
      = { scanned := 5, total := 0xFFFFFFFFFFFFFFFF, removed := 3, freed := 1 }
    ∧ ¬ ∃ fates, Happens removeAny {} () fates (bringWithin removeAny {} 0 hugeFiles ()).2
      ∧ (fates.map (·.1)).Perm hugeFiles
      ∧ ((bringWithin removeAny {} 0 hugeFiles ()).1.total.toNat
          - (bringWithin removeAny {} 0 hugeFiles ()).1.freed.toNat ≤ 0 ∨
        ∀ entry ∈ fates, entry.2 = .removed ∨ entry.2 = .locked ∨ entry.2 = .failed)
      ∧ (bringWithin removeAny {} 0 hugeFiles ()).1.freed.toNat
        = bytesOf (filesOf .removed fates) := by
  have hreport : (bringWithin removeAny {} 0 hugeFiles ()).1
      = { scanned := 5, total := 0xFFFFFFFFFFFFFFFF, removed := 3, freed := 1 } := by
    rw [bringWithin_of_sorted (by decide)]
    decide
  refine ⟨hreport, ?_⟩
  rintro ⟨fates, hhappens, hfiles, henough, hfreed⟩
  rw [hreport] at henough hfreed
  have htried := henough.resolve_left (by decide)
  have hremoved : ∀ entry ∈ fates, entry.2 = .removed := by
    intro entry hentry
    obtain ⟨before, after, hmeets⟩ := hhappens.meets entry hentry
    cases hmeets with
    | removed => rfl
    | locked hlocked => exact absurd hlocked (by simp [LockTable.isLocked, LockTable.contains])
    | failed _ hfailed => cases hfailed
    | untried => rcases htried _ hentry with h | h | h <;> cases h
  rw [filesOf_eq_map hremoved, bytesOf_perm hfiles] at hfreed
  exact absurd hfreed (by decide)

/-! ## The files of a tree -/

theorem removeAt_eq_ok {tree next : FileTree} {place : Place}
    (h : tree.removeAt place = .ok next) :
    ∃ names, place = .here names ∧ next = tree.removeFile names := by
  unfold FileTree.removeAt at h
  split at h
  · cases h
  · cases place with
    | root names => cases h
    | here names =>
      simp only at h
      split at h
      · cases h
      · split at h
        · cases h
        · cases h
        · exact ⟨names, rfl, (Except.ok.inj h).symm⟩

/-- What was removed is gone from a tree, and all else still stands. -/
theorem Happens.mem_entries_iff {tree last : FileTree} {fates : List (UsedFile × Fate)}
    (h : Happens FileTree.removeAt locks tree fates last) (names : List String)
    (entry : FileEntry) : (names, entry) ∈ last.entries ↔
      (names, entry) ∈ tree.entries ∧ ∀ file ∈ filesOf .removed fates, file.place ≠ .here names := by
  induction h with
  | nil => simp
  | @cons disk next last fate fates hmeets _ ih =>
    rw [ih]
    cases hmeets with
    | @removed file next _ hremove =>
      obtain ⟨removed, hplace, rfl⟩ := removeAt_eq_ok hremove
      have hother : file.place ≠ .here names ↔ names ≠ removed := by
        rw [hplace, ne_eq, ne_eq, Place.here.injEq, eq_comm]
      have hentries : (names, entry) ∈ (disk.removeFile removed).entries ↔
          (names, entry) ∈ disk.entries ∧ file.place ≠ .here names := by
        rw [hother, FileTree.removeFile, List.mem_filter, decide_eq_true_eq]
      rw [hentries, filesOf_cons_self, List.forall_mem_cons, and_assoc]
    | locked _ => rw [filesOf_cons_of_ne (by decide)]
    | failed _ _ => rw [filesOf_cons_of_ne (by decide)]
    | untried => rw [filesOf_cons_of_ne (by decide)]

/-- A run keeps to what a cleanup is for, by the files below its root if 64 bits hold the number of
their bytes, and takes away from the tree what it removes and nothing else. -/
theorem run_justEnough {tree last : FileTree} {times : List (String × Nat)} {root : String}
    {quota : Nat} {report : Report}
    (hrun : run tree times locks root quota = .ok (report, last)) :
    ∃ files fates, scan tree times root = .ok files
      ∧ (bytesOf files < 2 ^ 64 → JustEnough locks (.ofNat quota) files fates report)
      ∧ ∀ names entry, (names, entry) ∈ last.entries ↔ (names, entry) ∈ tree.entries ∧
        ∀ file ∈ filesOf .removed fates, file.place ≠ .here names := by
  unfold run at hrun
  cases hscan : scan tree times root with
  | error missing =>
    rw [hscan] at hrun
    cases hrun
  | ok files =>
    rw [hscan] at hrun
    have hanswer : bringWithin FileTree.removeAt locks (.ofNat quota) files tree = (report, last) :=
      Except.ok.inj hrun
    obtain ⟨fates, hfiles, hsorted, hhappens, hspends, hreport⟩ :=
      bringWithin_spends FileTree.removeAt locks (.ofNat quota) files tree
    rw [hanswer] at hhappens hreport
    obtain rfl : report = _ := hreport
    exact ⟨files, fates, rfl,
      fun hfits => justEnough_of_spends hfits hfiles hsorted hhappens hspends,
      hhappens.mem_entries_iff⟩

end Cleanup

end Linkage

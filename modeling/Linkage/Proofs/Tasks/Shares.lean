import Linkage.Proofs.Data.Ordering
import Linkage.Tasks.Progress

/-! Progress that any number of callers report: the greatest share stays, in whatever order they
come. -/
namespace Linkage
namespace Progress
open Binary64

/-! ## The range -/

/-- The pattern of a double from +0 to 1. -/
def IsShare (bits : UInt64) : Prop :=
  ∃ f : Float, f.toBits = bits ∧
    ∃ units exponent, form f = .finite false units exponent ∧ (units : ℚ) * 2 ^ exponent ≤ 1

theorem clamp_le_one (bits : UInt64) : clamp bits ≤ one := by
  unfold clamp
  split
  case isTrue => decide
  case isFalse =>
    split
    case isTrue => exact UInt64.le_refl _
    case isFalse h => exact UInt64.not_lt.mp h

theorem toNat_le_top {bits : UInt64} (h : bits ≤ one) : bits.toNat ≤ top :=
  (UInt64.le_iff_toNat_le.mp h).trans (by decide)

/-- Fewer units than there are in 1 are not more than 1. -/
theorem units_le_one {units k : Nat} {e : Int} (hunits : units ≤ 2 ^ k) (he : e ≤ -k) :
    (units : ℚ) * 2 ^ e ≤ 1 := by
  have hcast : (units : ℚ) ≤ 2 ^ k := by exact_mod_cast hunits
  calc (units : ℚ) * 2 ^ e ≤ 2 ^ k * 2 ^ (-k : Int) :=
        mul_le_mul hcast (zpow_le_zpow_right₀ (by norm_num) he) (by positivity) (by positivity)
    _ = 1 := by rw [zpow_neg, zpow_natCast, mul_inv_cancel₀ (by positivity)]

theorem isShare_of_le_one {bits : UInt64} (h : bits ≤ one) : IsShare bits := by
  refine ⟨.ofBits bits, toBits_ofBits_of_le (toNat_le_top h), ?_⟩
  have hle : bits.toNat ≤ 1023 * 2 ^ 52 := UInt64.le_iff_toNat_le.mp h
  unfold form
  rw [toBits_ofBits_of_le (toNat_le_top h)]
  generalize bits.toNat = n at hle ⊢
  have hsign : n >>> 63 = 0 := by omega
  have hfinite : n / 2 ^ 52 % 2048 ≠ 2047 := by omega
  simp only [hsign, Nat.zero_ne_one, decide_false, Nat.shiftRight_eq_div_pow, Nat.shiftLeft_eq,
    one_mul, if_neg hfinite]
  split
  case isTrue => exact ⟨_, _, rfl, units_le_one (k := 52) (by omega) (by omega)⟩
  case isFalse =>
    -- 1 itself has the largest exponent, and its units are fewer by one bit than they could be.
    refine ⟨_, _, rfl, ?_⟩
    by_cases hone : n / 2 ^ 52 = 1023
    · exact units_le_one (k := 52) (by omega) (by omega)
    · exact units_le_one (k := 53) (by omega) (by omega)

/-- What becomes of a double that is reported. What is not a number is not greater than 0. -/
def brought (f : Float) : Float := if 0 < f then min f 1 else 0

/-- Patterns are brought into the range as the doubles are whose patterns they are. -/
theorem clamp_eq (bits : UInt64) : clamp bits = (brought (.ofBits bits)).toBits := by
  have hinfinity : bits ≤ infinity ↔ bits.toNat ≤ top := UInt64.le_iff_toNat_le
  have hmin : min (Float.ofBits bits) 1 =
      if Float.ofBits bits ≤ .ofBits one then .ofBits bits else .ofBits one := rfl
  unfold clamp brought
  split
  case isTrue hbeyond =>
    rw [if_neg]
    · rfl
    · rw [zero_lt_ofBits_iff, ← hinfinity]
      exact fun h => UInt64.not_le.mpr hbeyond h.2
  case isFalse hwithin =>
    have htop : bits.toNat ≤ top := hinfinity.mp (UInt64.not_lt.mp hwithin)
    by_cases hzero : bits = 0
    · subst hzero
      decide +kernel
    · have hpositive : 0 < bits.toNat := by
        rwa [Nat.pos_iff_ne_zero, ← UInt64.toNat_zero, UInt64.toNat_inj.ne]
      rw [if_pos (zero_lt_ofBits_iff.mpr ⟨hpositive, htop⟩), hmin]
      simp only [ofBits_le_ofBits_iff htop (show one.toNat ≤ top by decide)]
      split
      case isTrue hmore => rw [if_neg (UInt64.not_le.mpr hmore)]; rfl
      case isFalse hless => rw [if_pos (UInt64.not_lt.mp hless), toBits_ofBits_of_le htop]

/-! ## Bounds -/

theorem max_le_iff_le {a b c : UInt64} : max a b ≤ c ↔ a ≤ c ∧ b ≤ c := by
  have hmax : max a b = if a ≤ b then b else a := rfl
  rw [hmax]
  split
  case isTrue hab => exact ⟨fun h => ⟨UInt64.le_trans hab h, h⟩, And.right⟩
  case isFalse hab =>
    have hba : b ≤ a := UInt64.le_of_lt (UInt64.not_le.mp hab)
    exact ⟨fun h => ⟨h, UInt64.le_trans hba h⟩, And.left⟩

theorem eq_of_bounds {a b : UInt64} (h : ∀ k, a ≤ k ↔ b ≤ k) : a = b :=
  UInt64.le_antisymm ((h b).mpr (UInt64.le_refl b)) ((h a).mp (UInt64.le_refl a))

theorem setFraction_le_iff {p : Progress} {bits k : UInt64} :
    (p.setFraction bits).fraction ≤ k ↔ p.fraction ≤ k ∧ clamp bits ≤ k := max_le_iff_le

/-- One call after the other goes up to the share that is within the same bounds as they all are. -/
theorem foldl_setFraction_le_iff {args : List UInt64} {p : Progress} {k : UInt64} :
    (args.foldl setFraction p).fraction ≤ k ↔ p.fraction ≤ k ∧ ∀ x ∈ args, clamp x ≤ k := by
  induction args generalizing p with
  | nil => simp
  | cons x args ih => rw [List.foldl_cons, ih, setFraction_le_iff, List.forall_mem_cons, and_assoc]

theorem fraction_foldl_setFraction (args : List UInt64) (p : Progress) :
    (args.foldl setFraction p).fraction = p.fraction ∨
      ∃ x ∈ args, (args.foldl setFraction p).fraction = clamp x := by
  induction args generalizing p with
  | nil => exact .inl rfl
  | cons x args ih =>
    obtain hstays | ⟨y, hy, hgoes⟩ := ih (p.setFraction x)
    · have hmax : (p.setFraction x).fraction =
          if p.fraction ≤ clamp x then clamp x else p.fraction := rfl
      rw [List.foldl_cons, hstays, hmax]
      split
      case isTrue => exact .inr ⟨x, List.mem_cons_self, rfl⟩
      case isFalse => exact .inl rfl
    · exact .inr ⟨y, List.mem_cons_of_mem x hy, hgoes⟩

theorem text_foldl_setFraction {args : List UInt64} {p : Progress} :
    (args.foldl setFraction p).text = p.text := by
  induction args generalizing p with
  | nil => rfl
  | cons x args ih => rw [List.foldl_cons, ih]; rfl

/-- The greatest of the doubles that are reported, each brought into the range, and 0 if none is. -/
structure IsLargest (args : List UInt64) (bits : UInt64) : Prop where
  attained : (args = [] ∧ bits = 0) ∨ ∃ x ∈ args, bits = (brought (.ofBits x)).toBits
  upper : ∀ x ∈ args, brought (.ofBits x) ≤ .ofBits bits

theorem le_of_le_one {a b : UInt64} (hab : a ≤ b) (hb : b ≤ one) : Float.ofBits a ≤ .ofBits b :=
  (ofBits_le_ofBits_iff (toNat_le_top (UInt64.le_trans hab hb)) (toNat_le_top hb)).mpr hab

theorem foldl_setFraction_le_one (args : List UInt64) :
    (args.foldl setFraction {}).fraction ≤ one :=
  foldl_setFraction_le_iff.mpr ⟨UInt64.zero_le, fun x _ => clamp_le_one x⟩

theorem isLargest_foldl (args : List UInt64) :
    IsLargest args (args.foldl setFraction {}).fraction := by
  obtain ⟨-, hupper⟩ := foldl_setFraction_le_iff.mp
    (UInt64.le_refl (args.foldl setFraction {}).fraction)
  constructor
  · simp only [← clamp_eq]
    obtain hzero | hgoes := fraction_foldl_setFraction args {}
    · cases args with
      | nil => exact .inl ⟨rfl, rfl⟩
      | cons x args =>
        rw [hzero] at hupper
        have hx : clamp x ≤ 0 := hupper x List.mem_cons_self
        exact .inr ⟨x, List.mem_cons_self, hzero.trans (UInt64.le_antisymm UInt64.zero_le hx)⟩
    · exact .inr hgoes
  · intro x hx
    have hbrought : brought (.ofBits x) = .ofBits (clamp x) := by
      rw [clamp_eq, Float.ofBits_toBits]
    rw [hbrought]
    exact le_of_le_one (hupper x hx) (foldl_setFraction_le_one args)

attribute [ext] Progress

/-- The same shares lead to the same progress, in whatever order and however often they come. -/
theorem foldl_setFraction_congr {args others : List UInt64} (h : ∀ x, x ∈ args ↔ x ∈ others)
    (p : Progress) : args.foldl setFraction p = others.foldl setFraction p := by
  ext1
  · exact eq_of_bounds fun k => by simp only [foldl_setFraction_le_iff, h]
  · rw [text_foldl_setFraction, text_foldl_setFraction]

end Progress

/-! ## Callers -/

/-- A caller that reports shares one after the other: those that are ahead, and one that is brought
into the range and not stored yet. -/
structure Reporter where
  ahead : List UInt64
  ready : Option UInt64 := none
  deriving DecidableEq, Repr

/-- The progress of a task, and its callers between two steps. -/
structure Reports where
  progress : Progress := {}
  reporters : List Reporter
  deriving DecidableEq, Repr

namespace Reporter

/-- One step of a caller: it stores the share that is ready, or else brings the next one into the
range on its own. -/
def step (p : Progress) : Reporter → Progress × Reporter
  | ⟨ahead, some bits⟩ => ({ p with fraction := max p.fraction bits }, ⟨ahead, none⟩)
  | ⟨bits :: ahead, none⟩ => (p, ⟨ahead, some (Progress.clamp bits)⟩)
  | ⟨[], none⟩ => (p, ⟨[], none⟩)

/-- All that a caller is to store is within a bound. -/
def Within (k : UInt64) (r : Reporter) : Prop :=
  (∀ bits ∈ r.ready, bits ≤ k) ∧ ∀ bits ∈ r.ahead, Progress.clamp bits ≤ k

/-- The steps that a caller has ahead of it. -/
def left (r : Reporter) : Nat := 2 * r.ahead.length + r.ready.toList.length

theorem left_eq_zero_iff {r : Reporter} : r.left = 0 ↔ r.ahead = [] ∧ r.ready = none := by
  simp [left]

variable (p : Progress) (r : Reporter)

theorem within_step_iff (k : UInt64) :
    ((r.step p).1.fraction ≤ k ∧ (r.step p).2.Within k) ↔ p.fraction ≤ k ∧ r.Within k := by
  fun_cases step p r <;> simp [Within, Progress.max_le_iff_le, and_assoc]

theorem fraction_le_step : p.fraction ≤ (r.step p).1.fraction := by
  fun_cases step p r with
  | case1 => exact (Progress.max_le_iff_le.mp (UInt64.le_refl _)).1
  | case2 => exact UInt64.le_refl _
  | case3 => exact UInt64.le_refl _

theorem text_step : (r.step p).1.text = p.text := by
  fun_cases step p r <;> rfl

theorem left_step : (r.step p).2.left = r.left - 1 := by
  fun_cases step p r with
  | case1 => rfl
  | case2 => simp only [left, List.length_cons, Option.toList]; rfl
  | case3 => rfl

end Reporter

namespace Reports

def start (callers : List (List UInt64)) : Reports := { reporters := callers.map ({ ahead := · }) }

/-- A step of the caller at a position; where there is none, nothing happens. -/
def step (s : Reports) (i : Nat) : Reports :=
  match s.reporters[i]? with
  | some r =>
    { progress := (r.step s.progress).1, reporters := s.reporters.set i (r.step s.progress).2 }
  | none => s

def run (s : Reports) (schedule : List Nat) : Reports := schedule.foldl step s

/-- All calls have returned. -/
def IsDone (s : Reports) : Prop := ∀ r ∈ s.reporters, r.ahead = [] ∧ r.ready = none

instance (s : Reports) : Decidable s.IsDone :=
  inferInstanceAs (Decidable (∀ r ∈ s.reporters, r.ahead = [] ∧ r.ready = none))

/-- Where there is a caller, a step is that of this caller, and the others stay as they are. -/
theorem step_of_getElem? {s : Reports} {i : Nat} {r : Reporter} (h : s.reporters[i]? = some r) :
    (s.step i).progress = (r.step s.progress).1 ∧ ∃ rest, s.reporters.Perm (r :: rest) ∧
      (s.step i).reporters.Perm ((r.step s.progress).2 :: rest) := by
  obtain ⟨hi, rfl⟩ := List.getElem?_eq_some_iff.mp h
  rw [step, h]
  exact ⟨rfl, s.reporters.eraseIdx i, (List.getElem_cons_eraseIdx_perm hi).symm,
    List.set_perm_cons_eraseIdx hi _⟩

theorem step_of_getElem?_eq_none {s : Reports} {i : Nat} (h : s.reporters[i]? = none) :
    s.step i = s := by
  rw [step, h]

/-- What is stored and all that is to be stored is within a bound. -/
def Within (k : UInt64) (s : Reports) : Prop :=
  s.progress.fraction ≤ k ∧ ∀ r ∈ s.reporters, r.Within k

theorem within_step_iff (s : Reports) (i : Nat) (k : UInt64) : (s.step i).Within k ↔ s.Within k := by
  cases hr : s.reporters[i]? with
  | none => rw [step_of_getElem?_eq_none hr]
  | some r =>
    obtain ⟨hprogress, rest, hbefore, hafter⟩ := step_of_getElem? hr
    simp only [Within, hbefore.mem_iff, hafter.mem_iff, hprogress, List.forall_mem_cons, ← and_assoc,
      Reporter.within_step_iff]

theorem within_run_iff (s : Reports) (schedule : List Nat) (k : UInt64) :
    (s.run schedule).Within k ↔ s.Within k := by
  induction schedule generalizing s with
  | nil => rfl
  | cons i schedule ih => exact (ih (s.step i)).trans (s.within_step_iff i k)

theorem fraction_le_step (s : Reports) (i : Nat) :
    s.progress.fraction ≤ (s.step i).progress.fraction := by
  cases hr : s.reporters[i]? with
  | none => rw [step_of_getElem?_eq_none hr]; exact UInt64.le_refl _
  | some r => rw [(step_of_getElem? hr).1]; exact r.fraction_le_step s.progress

theorem fraction_le_run (s : Reports) (schedule : List Nat) :
    s.progress.fraction ≤ (s.run schedule).progress.fraction := by
  induction schedule generalizing s with
  | nil => exact UInt64.le_refl _
  | cons i schedule ih => exact UInt64.le_trans (s.fraction_le_step i) (ih (s.step i))

theorem text_step (s : Reports) (i : Nat) : (s.step i).progress.text = s.progress.text := by
  cases hr : s.reporters[i]? with
  | none => rw [step_of_getElem?_eq_none hr]
  | some r => rw [(step_of_getElem? hr).1, r.text_step]

theorem text_run (s : Reports) (schedule : List Nat) :
    (s.run schedule).progress.text = s.progress.text := by
  induction schedule generalizing s with
  | nil => rfl
  | cons i schedule ih => exact (ih (s.step i)).trans (s.text_step i)

/-! ## The end -/

/-- The steps that all callers have ahead of them. -/
def left (s : Reports) : Nat := (s.reporters.map Reporter.left).sum

/-- While a call has not returned, there is a caller whose step brings the end nearer. -/
theorem exists_left_step_lt {s : Reports} (h : ¬ s.IsDone) : ∃ i, (s.step i).left < s.left := by
  simp only [IsDone, not_forall] at h
  obtain ⟨r, hr, hleft⟩ := h
  obtain ⟨i, hi⟩ := List.mem_iff_getElem?.mp hr
  obtain ⟨-, rest, hbefore, hafter⟩ := step_of_getElem? hi
  refine ⟨i, ?_⟩
  rw [← Reporter.left_eq_zero_iff] at hleft
  rw [left, left, (hbefore.map _).sum_eq, (hafter.map _).sum_eq, List.map_cons, List.map_cons,
    List.sum_cons, List.sum_cons, r.left_step]
  omega

/-- All calls can return, whatever has happened so far. -/
theorem exists_run_isDone (s : Reports) : ∃ schedule, (s.run schedule).IsDone := by
  induction hn : s.left using Nat.strong_induction_on generalizing s with
  | _ n ih =>
    by_cases hdone : s.IsDone
    · exact ⟨[], hdone⟩
    · obtain ⟨i, hi⟩ := exists_left_step_lt hdone
      obtain ⟨schedule, hschedule⟩ := ih _ (hn ▸ hi) (s.step i) rfl
      exact ⟨i :: schedule, hschedule⟩

theorem within_start_iff {callers : List (List UInt64)} {k : UInt64} :
    (start callers).Within k ↔ ∀ x ∈ callers.flatten, Progress.clamp x ≤ k := by
  simp only [start, Within, Reporter.Within, UInt64.zero_le, true_and, List.forall_mem_map,
    Option.mem_def, reduceCtorEq, false_implies, implies_true, List.mem_flatten]
  exact ⟨fun h x ⟨c, hc, hx⟩ => h c hc x hx, fun h c hc x hx => h x ⟨c, hc, hx⟩⟩

theorem IsDone.within_iff {s : Reports} (h : s.IsDone) {k : UInt64} :
    s.Within k ↔ s.progress.fraction ≤ k := by
  refine and_iff_left fun r hr => ?_
  obtain ⟨hahead, hready⟩ := h r hr
  simp [Reporter.Within, hahead, hready]

/-- When all calls have returned, progress is where the calls lead one after the other. -/
theorem IsDone.progress_eq {callers : List (List UInt64)} {schedule : List Nat}
    (h : ((start callers).run schedule).IsDone) :
    ((start callers).run schedule).progress = callers.flatten.foldl Progress.setFraction {} := by
  ext1
  · refine Progress.eq_of_bounds fun k => ?_
    rw [← h.within_iff, within_run_iff, within_start_iff, Progress.foldl_setFraction_le_iff,
      and_iff_right UInt64.zero_le]
  · rw [text_run, Progress.text_foldl_setFraction]
    rfl

theorem fraction_run_le_one (callers : List (List UInt64)) (schedule : List Nat) :
    ((start callers).run schedule).progress.fraction ≤ Progress.one := by
  refine (((start callers).within_run_iff schedule Progress.one).mpr ?_).1
  exact within_start_iff.mpr fun x _ => Progress.clamp_le_one x

/-- Whatever doubles callers report and however their steps mix, what is stored is a double from +0
to 1 and never decreases, and all calls can return. When they have, it is the greatest double that
was reported, each brought into the range: the calls one after the other lead to the same progress,
and so do other callers and other steps, if in any order they report the same. -/
theorem run_joins (callers : List (List UInt64)) (schedule : List Nat) :
    let s := (start callers).run schedule
    Progress.IsShare s.progress.fraction ∧
    (∀ later, s.progress.fraction ≤ (s.run later).progress.fraction ∧
      Float.ofBits s.progress.fraction ≤ .ofBits (s.run later).progress.fraction) ∧
    (∃ later, (s.run later).IsDone) ∧
    (s.IsDone → Progress.IsLargest callers.flatten s.progress.fraction ∧
      s.progress = callers.flatten.foldl Progress.setFraction {} ∧
      ∀ others order, others.flatten.Perm callers.flatten → ((start others).run order).IsDone →
        ((start others).run order).progress = s.progress) := by
  intro s
  refine ⟨Progress.isShare_of_le_one (fraction_run_le_one callers schedule), fun later => ?_,
    s.exists_run_isDone, fun hdone => ?_⟩
  · have hle := s.fraction_le_run later
    have hone : (s.run later).progress.fraction ≤ Progress.one := by
      have := fraction_run_le_one callers (schedule ++ later)
      rwa [run, List.foldl_append] at this
    exact ⟨hle, Progress.le_of_le_one hle hone⟩
  · have heq := hdone.progress_eq
    refine ⟨heq ▸ Progress.isLargest_foldl _, heq, fun others order hperm hothers => ?_⟩
    rw [hothers.progress_eq, heq]
    exact Progress.foldl_setFraction_congr (fun _ => hperm.mem_iff) {}

/-- What is not a number and a half, -0 and the smallest number, and minus infinity and 2. -/
def mixed : List (List UInt64) :=
  [[0x7FF8000000000001, 0x3FE0000000000000], [0x8000000000000000, 1],
    [0xFFF0000000000000, 0x4000000000000000]]

/-- Three callers that take turns come as far as one that reports all in the opposite order. -/
theorem run_joins_mixed :
    let s := (start mixed).run [0, 1, 2, 1, 0, 0, 2, 1, 0, 1, 2, 2]
    s.IsDone ∧ s.progress.fraction = Progress.one ∧
      ((start [mixed.flatten.reverse]).run (List.replicate 12 0)).progress = s.progress := by
  intro s
  have hdone : s.IsDone := by decide +kernel
  obtain ⟨-, -, -, hjoins⟩ := run_joins mixed [0, 1, 2, 1, 0, 0, 2, 1, 0, 1, 2, 2]
  obtain ⟨-, -, hsame⟩ := hjoins hdone
  have hperm : [mixed.flatten.reverse].flatten.Perm mixed.flatten := by
    rw [List.flatten_singleton]
    exact List.reverse_perm _
  exact ⟨hdone, by decide +kernel, hsame _ _ hperm (by decide +kernel)⟩

end Reports
end Linkage

import Linkage.Proofs.Data.Nearest
import Linkage.Proofs.Data.Decimal
import Linkage.Proofs.Text.Blank
import Linkage.Settings.Verifier

/-! Which texts are intervals, and which of these are too long to be kept. -/
namespace Linkage
namespace Quantity
open Binary64

/-! ## Doubles as nanoseconds -/

/-- The whole part of a number of units has more than 64 bits if the number is 2^64 or more. -/
theorem size_le_div_iff {m : Nat} {e : Int} {scaled : Nat × Nat}
    (h : scaled = if e < 0 then (m, 1 <<< e.natAbs) else (m <<< e.natAbs, 1)) :
    UInt64.size ≤ scaled.1 / scaled.2 ↔ (2 : ℚ) ^ 64 ≤ m * 2 ^ e := by
  subst h
  by_cases hdown : e < 0
  · obtain ⟨k, rfl⟩ : ∃ k : Nat, e = -k := ⟨e.natAbs, by omega⟩
    have hpow : (0 : ℚ) < 2 ^ k := by positivity
    simp only [if_pos hdown, Int.natAbs_neg, Int.natAbs_natCast, Nat.shiftLeft_eq, one_mul]
    rw [Nat.le_div_iff_mul_le (by positivity), zpow_neg, zpow_natCast, ← div_eq_mul_inv,
      le_div_iff₀ hpow, show UInt64.size = 2 ^ 64 from rfl]
    exact_mod_cast Iff.rfl
  · obtain ⟨k, rfl⟩ := Int.eq_ofNat_of_zero_le (not_lt.mp hdown)
    simp only [if_neg hdown, Int.natAbs_natCast, Nat.shiftLeft_eq, Nat.div_one]
    rw [zpow_natCast, show UInt64.size = 2 ^ 64 from rfl]
    exact_mod_cast Iff.rfl

/-- A double that is no less than zero cannot be kept as nanoseconds if it is 2^64 or more. -/
theorem nanoseconds?_eq_none_iff {f : Float} (h : IsMagnitude f.toModel.unpack) :
    nanoseconds? f = none ↔ AtLeast (2 ^ 64) f.toModel.unpack := by
  rw [nanoseconds?, form_eq]
  generalize f.toModel.unpack = u at h
  match u, h with
  | .infinity .positive, _ => exact iff_of_true rfl trivial
  | .zero .negative, _ => exact iff_of_false nofun (by norm_num [AtLeast])
  | .zero .positive, _ =>
    refine iff_of_false ?_ (by norm_num [AtLeast])
    simp [formOf, isNegative]
  | .finite .positive m e _, _ =>
    rw [AtLeast, ← size_le_div_iff rfl]
    simp only [formOf, isNegative, ite_eq_right_iff, reduceCtorEq, imp_false, not_lt]

/-- A product with a whole number is 2^64 or more if it is, before it is rounded, no less than
halfway between 2^64 and the double below. -/
theorem atLeast_mul_iff {f : Float} {k : Nat} (hf : IsMagnitude f.toModel.unpack) (hk : 0 < k)
    (hwhole : IsWhole (Float.ofNat k).toModel.unpack k) :
    IsMagnitude (f * Float.ofNat k).toModel.unpack ∧
      (AtLeast (2 ^ 64) (f * Float.ofNat k).toModel.unpack ↔
        AtLeast ((2 ^ 64 - 2 ^ 10) / k) f.toModel.unpack) := by
  obtain ⟨n, e, hn, hunpack, hbits, hvalue⟩ := hwhole
  have hproduct : (f * Float.ofNat k).toModel.unpack = (Float.Model.pack
      (Float.Model.UnpackedFloat.mul .binary64 f.toModel.unpack
        (.finite .positive n e hn))).unpack := hunpack ▸ rfl
  rw [hproduct]
  have hkpos : (0 : ℚ) < k := by exact_mod_cast hk
  have hbound : (0 : ℚ) < (2 ^ 64 - 2 ^ 10) / k := div_pos (by norm_num) hkpos
  generalize f.toModel.unpack = u at hf
  match u, hf with
  | .infinity .positive, _ =>
    have hinfinite : (Float.Model.pack (Float.Model.UnpackedFloat.mul .binary64
        (.infinity .positive) (.finite .positive n e hn))).unpack = .infinity .positive := by
      simp only [Float.Model.UnpackedFloat.mul]
      rfl
    rw [hinfinite]
    exact ⟨trivial, iff_of_true trivial trivial⟩
  | .zero sign, _ =>
    have hzero : (Float.Model.pack (Float.Model.UnpackedFloat.mul .binary64
        (.zero sign) (.finite .positive n e hn))).unpack = .zero sign := by
      simp only [Float.Model.UnpackedFloat.mul]
      cases sign <;> rfl
    rw [hzero]
    exact ⟨trivial, iff_of_false (by norm_num [AtLeast]) (not_le.mpr hbound)⟩
  | .finite .positive m f hm, _ =>
    obtain ⟨hmagnitude, hnearest⟩ := isNearest_mul (e := f) (f := e) hm hn
      (hbits.trans (Nat.le_mul_of_pos_left _ hm))
    refine ⟨hmagnitude, ?_⟩
    have hlimit := @hnearest (2 ^ 53) 11 (2 ^ 64) (by norm_num) le_rfl (by norm_num)
      (by norm_num) (by norm_num) (zpow_le_zpow_right₀ (by norm_num) (by norm_num))
    refine hlimit.trans ?_
    rw [hvalue, AtLeast, div_le_iff₀ hkpos, rounds_iff_of_even (by norm_num)]
    generalize (m : ℚ) * 2 ^ f * k = product
    constructor
    all_goals
      intro h
      norm_num at h ⊢
      linarith

/-- So many units of so many seconds are too long to be kept. They are 2^64 seconds or more after
they were rounded twice, from a decimal number to a double and then from the product with the seconds
of the unit; each bound lies halfway between two doubles, and belongs to the upper one for seconds. -/
def Overlong (seconds : Nat) (value : ℚ) : Prop :=
  match seconds with
  | 1 => 18446744073709550592 ≤ value
  | 60 => 307445734561825824 < value
  | _ => 10248191152060861 < 2 * value

theorem timeUnit?_seconds {unit : String} {seconds : Nat} (h : timeUnit? unit = some seconds) :
    seconds = 1 ∨ seconds = 60 ∨ seconds = 3600 := by
  unfold timeUnit? at h
  split at h <;> simp at h <;> omega

/-- The seconds of a decimal number of units cannot be kept if they are too long. -/
theorem nanoseconds?_eq_none_iff_overlong {d : Decimal.Float} {seconds : Nat}
    (hd : d.negative = false) (hseconds : seconds = 1 ∨ seconds = 60 ∨ seconds = 3600) :
    nanoseconds? (ofDecimal d * Float.ofNat seconds) = none ↔
      Overlong seconds (d.digits * 10 ^ d.exponent) := by
  obtain ⟨hmagnitude, hnearest⟩ := isNearest_ofDecimal hd
  have hwhole : IsWhole (Float.ofNat seconds).toModel.unpack seconds := by
    obtain rfl | rfl | rfl := hseconds <;> exact isWhole_sound (by decide +kernel)
  have hpos : 0 < seconds := by omega
  obtain ⟨hproduct, hbound⟩ := atLeast_mul_iff hmagnitude hpos hwhole
  rw [nanoseconds?_eq_none_iff hproduct, hbound]
  generalize (d.digits : ℚ) * 10 ^ d.exponent = value at hnearest
  have htop (bound : ℚ) (h : bound ≤ 2 ^ 64) : bound ≤ 2 ^ (1024 : Int) :=
    h.trans (by
      rw [← zpow_natCast]
      exact zpow_le_zpow_right₀ (by norm_num) (by norm_num))
  obtain rfl | rfl | rfl := hseconds
  · have hlimit := @hnearest (2 ^ 53) 11 ((2 ^ 64 - 2 ^ 10) / (1 : ℕ)) (by norm_num) le_rfl
      (by norm_num) (by norm_num) (by norm_num) (htop _ (by norm_num))
    refine hlimit.trans ((rounds_iff_of_even (by norm_num)).trans ?_)
    simp only [Overlong]
    constructor <;> intro h <;> norm_num at h ⊢ <;> linarith
  · have hlimit := @hnearest 4803839602528529 6 ((2 ^ 64 - 2 ^ 10) / (60 : ℕ)) (by norm_num)
      (by norm_num) (by norm_num) (by norm_num) (by norm_num) (htop _ (by norm_num))
    refine hlimit.trans ((rounds_iff_of_odd (by norm_num)).trans ?_)
    simp only [Overlong]
    constructor <;> intro h <;> norm_num at h ⊢ <;> linarith
  · have hlimit := @hnearest 5124095576030431 0 ((2 ^ 64 - 2 ^ 10) / (3600 : ℕ)) (by norm_num)
      (by norm_num) (by norm_num) (by norm_num) (by norm_num) (htop _ (by norm_num))
    refine hlimit.trans ((rounds_iff_of_odd (by norm_num)).trans ?_)
    simp only [Overlong]
    constructor <;> intro h <;> norm_num at h ⊢ <;> linarith

/-! ## Texts of intervals -/

/-- Digits, with at most one point among them, write a number. -/
inductive WritesNumber : List Char → ℚ → Prop
  | whole {digits : List Char} (hne : digits ≠ []) (hdigits : ∀ c ∈ digits, isAsciiDigit c = true) :
    WritesNumber digits (Nat.ofDigitChars 10 digits 0)
  | fraction {whole fraction : List Char} (hne : whole ++ fraction ≠ [])
      (hdigits : ∀ c ∈ whole ++ fraction, isAsciiDigit c = true) :
    WritesNumber (whole ++ '.' :: fraction)
      (Nat.ofDigitChars 10 (whole ++ fraction) 0 / 10 ^ fraction.length)

/-- A text is a number and a unit of time of so many seconds, in any case and with white space
around the text and before the unit. -/
def WritesInterval (text : String) (value : ℚ) (seconds : Nat) : Prop :=
  ∃ number unit, (lowerCase (trim text)).toList = number ++ unit ∧ WritesNumber number value ∧
    timeUnit? (trim (String.ofList unit)) = some seconds

theorem span_digits {digits rest : List Char} (hdigits : ∀ c ∈ digits, isAsciiDigit c = true)
    (hrest : ∀ c ∈ rest.head?, isAsciiDigit c = false) :
    (digits ++ rest).span isAsciiDigit = (digits, rest) := by
  rw [List.span_eq_takeWhile_dropWhile, List.takeWhile_append_of_pos hdigits,
    List.dropWhile_append_of_pos hdigits]
  cases rest with
  | nil => simp
  | cons c rest =>
    have hc : isAsciiDigit c = false := hrest c rfl
    simp [hc]

theorem not_isAsciiDigit_of_isBlank {c : Char} (h : isBlank c = true) : isAsciiDigit c = false := by
  rw [← Bool.not_eq_true]
  intro hdigit
  simp only [isAsciiDigit, isBlank, Bool.and_eq_true, Bool.or_eq_true, decide_eq_true_eq,
    Char.le_def, UInt32.le_iff_toNat_le] at h hdigit
  have hlow : 48 ≤ c.toNat := hdigit.1
  have hhigh : c.toNat ≤ 57 := hdigit.2
  omega

theorem initial_of_timeUnit {unit : String} {seconds : Nat} (h : timeUnit? unit = some seconds) :
    ∀ c ∈ unit.toList.head?, c = 's' ∨ c = 'm' ∨ c = 'h' := by
  unfold timeUnit? at h
  split at h <;> simp at h ⊢

/-- A unit begins with a letter or with white space. -/
theorem head_of_timeUnit {unit : List Char} {seconds : Nat}
    (h : timeUnit? (trim (String.ofList unit)) = some seconds) :
    ∀ c ∈ unit.head?, isAsciiDigit c = false ∧ c ≠ '.' := by
  obtain ⟨before, after, hunit, hblank⟩ := exists_eq_trim unit
  rw [trim, String.toList_ofList] at h
  generalize trimEnd (trimStart unit) = name at h hunit
  have hofBlank (c : Char) (hc : isBlank c = true) : isAsciiDigit c = false ∧ c ≠ '.' :=
    ⟨not_isAsciiDigit_of_isBlank hc, fun hpoint => absurd (hpoint ▸ hc) (by decide)⟩
  have hname : ∀ c ∈ name.head?, isAsciiDigit c = false ∧ c ≠ '.' := by
    intro c hc
    obtain rfl | rfl | rfl := initial_of_timeUnit h c (by rwa [String.toList_ofList])
    all_goals exact ⟨rfl, by decide⟩
  subst hunit
  cases before with
  | cons c before =>
    intro c' hc'
    obtain rfl : c = c' := by simpa using hc'
    exact hofBlank c (hblank c (by simp))
  | nil =>
    cases name with
    | cons c name => exact hname
    | nil =>
      intro c hc
      exact hofBlank c (hblank c (List.mem_of_mem_head? hc))

/-- The number of an interval ends where its unit begins. -/
theorem splitNumber_append {number unit : List Char} {value : ℚ} (h : WritesNumber number value)
    (hunit : ∀ c ∈ unit.head?, isAsciiDigit c = false ∧ c ≠ '.') :
    splitNumber (number ++ unit) = (number, unit) := by
  have hend : ∀ c ∈ unit.head?, isAsciiDigit c = false := fun c hc => (hunit c hc).1
  cases h with
  | whole hne hdigits =>
    rw [splitNumber, span_digits hdigits hend]
    cases unit with
    | nil => rfl
    | cons c unit =>
      have hpoint : c ≠ '.' := (hunit c rfl).2
      dsimp only
      split
      case h_1 heq => exact absurd (List.cons.inj heq).1 hpoint
      case h_2 => rfl
  | @fraction whole fraction hne hdigits =>
    have hwhole : ∀ c ∈ whole, isAsciiDigit c = true := fun c hc =>
      hdigits c (List.mem_append_left _ hc)
    have hfraction : ∀ c ∈ fraction, isAsciiDigit c = true := fun c hc =>
      hdigits c (List.mem_append_right _ hc)
    rw [splitNumber, List.append_assoc, List.cons_append,
      span_digits hwhole (by simp [isAsciiDigit])]
    simp only [span_digits hfraction hend]

theorem sign_of_writes {number : List Char} {value : ℚ} (h : WritesNumber number value) :
    Decimal.sign number = (false, number) := by
  have hhead : ∀ c ∈ number.head?, isAsciiDigit c = true ∨ c = '.' := by
    cases h with
    | whole hne hdigits => exact fun c hc => .inl (hdigits c (List.mem_of_mem_head? hc))
    | @fraction whole fraction hne hdigits =>
      cases whole with
      | nil => exact fun c hc => .inr (Option.some.inj hc).symm
      | cons c whole =>
        intro c' hc'
        obtain rfl : c = c' := Option.some.inj hc'
        exact .inl (hdigits c (by simp))
  unfold Decimal.sign
  split
  · exact absurd (hhead '-' rfl) (by decide)
  · exact absurd (hhead '+' rfl) (by decide)
  · rfl

/-- A number is read as what it writes. -/
theorem float?_of_writes {number : List Char} {value : ℚ} (h : WritesNumber number value) :
    ∃ d, Decimal.float? number = some d ∧ d.negative = false ∧
      (d.digits : ℚ) * 10 ^ d.exponent = value := by
  have hsign := sign_of_writes h
  cases h with
  | whole hne hdigits =>
    have hspan := @span_digits number [] hdigits nofun
    rw [List.append_nil] at hspan
    have hread := Decimal.digits?_eq_some_iff.mpr ⟨hne, hdigits, rfl⟩
    refine ⟨⟨false, Nat.ofDigitChars 10 number 0, 0⟩, ?_, rfl, by simp⟩
    simp only [Decimal.float?, hsign, hspan, List.append_nil, hread]
    rfl
  | @fraction whole fraction hne hdigits =>
    have hwhole : ∀ c ∈ whole, isAsciiDigit c = true := fun c hc =>
      hdigits c (List.mem_append_left _ hc)
    have hfraction := @span_digits fraction [] (fun c hc =>
      hdigits c (List.mem_append_right _ hc)) nofun
    rw [List.append_nil] at hfraction
    have hread := Decimal.digits?_eq_some_iff.mpr ⟨hne, hdigits, rfl⟩
    refine ⟨⟨false, Nat.ofDigitChars 10 (whole ++ fraction) 0, -fraction.length⟩, ?_, rfl, ?_⟩
    · have hspan : (whole ++ '.' :: fraction).span isAsciiDigit = (whole, '.' :: fraction) :=
        span_digits hwhole (by simp [isAsciiDigit])
      simp only [Decimal.float?, hsign, hspan, hfraction, hread]
      simp
    · rw [zpow_neg, zpow_natCast, div_eq_mul_inv]

/-- What is split from a text is a number if it can be read. -/
theorem writes_of_splitNumber {cs number unit : List Char} {d : Decimal.Float}
    (hsplit : splitNumber cs = (number, unit)) (hread : Decimal.float? number = some d) :
    cs = number ++ unit ∧ ∃ value, WritesNumber number value := by
  have hspan (cs : List Char) : ∃ digits rest, cs.span isAsciiDigit = (digits, rest) ∧
      cs = digits ++ rest ∧ ∀ c ∈ digits, isAsciiDigit c = true :=
    ⟨_, _, List.span_eq_takeWhile_dropWhile _ _, List.takeWhile_append_dropWhile.symm,
      fun _ hc => List.mem_takeWhile_imp hc⟩
  obtain ⟨whole, rest, hstart, rfl, hwhole⟩ := hspan cs
  rw [splitNumber, hstart] at hsplit
  dsimp only at hsplit
  split at hsplit
  case h_1 rest =>
    obtain ⟨fraction, rest, hend, rfl, hfraction⟩ := hspan rest
    rw [hend] at hsplit
    obtain ⟨rfl, rfl⟩ := Prod.mk.inj hsplit
    refine ⟨by simp, _, .fraction ?_ ?_⟩
    · -- a point by itself is no number
      intro hnil
      obtain ⟨rfl, rfl⟩ := List.append_eq_nil_iff.mp hnil
      exact absurd hread (by simp [show Decimal.float? ['.'] = none by decide])
    · intro c hc
      exact (List.mem_append.mp hc).elim (hwhole c) (hfraction c)
  case h_2 =>
    obtain ⟨rfl, rfl⟩ := Prod.mk.inj hsplit
    refine ⟨rfl, _, .whole ?_ hwhole⟩
    rintro rfl
    exact absurd hread (by simp [show Decimal.float? [] = none by decide])

theorem writes_of_number? {cs : List Char} {found : Float} {unit : String}
    (h : number? cs = some (found, unit)) :
    ∃ number rest, cs = number ++ rest ∧ (∃ value, WritesNumber number value) ∧
      trim (String.ofList rest) = unit := by
  rw [number?] at h
  cases hsplit : splitNumber cs with
  | mk number rest =>
    simp only [hsplit, Option.bind_eq_bind, Option.bind_eq_some_iff, Option.pure_def] at h
    obtain ⟨d, hread, hfound⟩ := h
    obtain ⟨hcs, hwrites⟩ := writes_of_splitNumber hsplit hread
    exact ⟨number, rest, hcs, hwrites, (Prod.mk.inj (Option.some.inj hfound)).2⟩

/-! ## Intervals -/

/-- An interval is read if its text writes one that is not too long. -/
theorem interval_of_writes {text : String} {value : ℚ} {seconds : Nat}
    (h : WritesInterval text value seconds) :
    (Overlong seconds value ∧ interval text = .error .overlong) ∨
      (¬Overlong seconds value ∧ ∃ n, interval text = .ok n) := by
  obtain ⟨number, unit, htext, hnumber, hunit⟩ := h
  obtain ⟨d, hread, hsign, hvalue⟩ := float?_of_writes hnumber
  have hsplit := splitNumber_append hnumber (head_of_timeUnit hunit)
  have hfound : number? (lowerCase (trim text)).toList =
      some (ofDecimal d, trim (String.ofList unit)) := by
    rw [number?, htext, hsplit]
    simp [hread]
  have hlong := nanoseconds?_eq_none_iff_overlong hsign (timeUnit?_seconds hunit)
  rw [hvalue] at hlong
  delta interval
  simp only [hfound, hunit]
  cases hread : nanoseconds? (ofDecimal d * Float.ofNat seconds) with
  | none => exact .inl ⟨hlong.mp hread, rfl⟩
  | some n => exact .inr ⟨fun hover => by simp [hlong.mpr hover] at hread, n, rfl⟩

/-- Any other text is refused. -/
theorem interval_of_not_writes {text : String}
    (h : ¬∃ value seconds, WritesInterval text value seconds) :
    interval text = .error (.badInterval text) := by
  delta interval
  cases hnumber : number? (lowerCase (trim text)).toList with
  | none => rfl
  | some found =>
    obtain ⟨value, unit⟩ := found
    cases hunit : timeUnit? unit with
    | none => simp [hunit]
    | some seconds =>
      refine absurd ?_ h
      obtain ⟨number, rest, hcs, ⟨value, hwrites⟩, rfl⟩ := writes_of_number? hnumber
      exact ⟨value, seconds, number, rest, hcs, hwrites, hunit⟩

/-- The text writes an interval that is too long. -/
def WritesOverlong (text : String) : Prop :=
  ∃ value seconds, WritesInterval text value seconds ∧ Overlong seconds value

theorem interval_eq_overlong_iff {text : String} :
    interval text = .error .overlong ↔ WritesOverlong text := by
  constructor
  · intro h
    by_cases hwrites : ∃ value seconds, WritesInterval text value seconds
    · obtain ⟨value, seconds, hwrites⟩ := hwrites
      obtain ⟨hover, -⟩ | ⟨-, n, hn⟩ := interval_of_writes hwrites
      · exact ⟨value, seconds, hwrites, hover⟩
      · rw [h] at hn
        cases hn
    · have hbad := interval_of_not_writes hwrites
      rw [h] at hbad
      cases hbad
  · rintro ⟨value, seconds, hwrites, hover⟩
    obtain ⟨-, h⟩ | ⟨hno, -⟩ := interval_of_writes hwrites
    · exact h
    · exact absurd hover hno

theorem interval_eq_badInterval_iff {text : String} :
    interval text = .error (.badInterval text) ↔
      ¬∃ value seconds, WritesInterval text value seconds := by
  refine ⟨?_, interval_of_not_writes⟩
  rintro h ⟨value, seconds, hwrites⟩
  obtain ⟨-, hother⟩ | ⟨-, n, hother⟩ := interval_of_writes hwrites
  all_goals
    rw [h] at hother
    cases hother

theorem exists_interval_eq_ok_iff {text : String} :
    (∃ n, interval text = .ok n) ↔
      ∃ value seconds, WritesInterval text value seconds ∧ ¬Overlong seconds value := by
  constructor
  · rintro ⟨n, h⟩
    by_cases hwrites : ∃ value seconds, WritesInterval text value seconds
    · obtain ⟨value, seconds, hwrites⟩ := hwrites
      obtain ⟨-, hover⟩ | ⟨hno, -⟩ := interval_of_writes hwrites
      · rw [h] at hover
        cases hover
      · exact ⟨value, seconds, hwrites, hno⟩
    · have hbad := interval_of_not_writes hwrites
      rw [h] at hbad
      cases hbad
  · rintro ⟨value, seconds, hwrites, hno⟩
    obtain ⟨hover, -⟩ | ⟨-, h⟩ := interval_of_writes hwrites
    · exact absurd hover hno
    · exact h

end Quantity

namespace Settings

/-- The reading of a setting ends in a breakdown. -/
def Crashes {α : Type} (r : Except SettingsFault α) : Prop :=
  ∃ fault, r = .error fault ∧ fault.isCrash = true

variable {α β : Type}

@[simp] theorem not_crashes_ok (a : α) : ¬Crashes (.ok a) := nofun

@[simp] theorem crashes_error_iff {fault : SettingsFault} :
    Crashes (.error fault : Except SettingsFault α) ↔ fault.isCrash = true := by
  constructor
  · rintro ⟨_, ⟨⟩, h⟩
    exact h
  · exact fun h => ⟨fault, rfl, h⟩

theorem crashes_bind_iff {r : Except SettingsFault α} {f : α → Except SettingsFault β} :
    Crashes (r >>= f) ↔ Crashes r ∨ ∃ a, r = .ok a ∧ Crashes (f a) := by
  cases r with
  | error fault =>
    have hbind : (.error fault : Except SettingsFault α) >>= f = .error fault := rfl
    simp [hbind]
  | ok a =>
    have hbind : (.ok a : Except SettingsFault α) >>= f = f a := rfl
    simp [hbind]

/-- Reading a setting breaks down if its text is there and reading that breaks down. -/
theorem crashes_read?_iff {s : Settings} {area key : String}
    {read : String → Except SettingsFault α} :
    Crashes (s.read? area key read) ↔
      ∃ text, s.value? area key = some text ∧ Crashes (read text) := by
  rw [read?]
  cases s.value? area key with
  | none => simp
  | some text =>
    cases hread : read text with
    | error fault => simp [hread]
    | ok a => simp [hread]

theorem not_crashes_number? (s : Settings) (area key : String) :
    ¬Crashes (s.number? area key) := by
  rw [number?, crashes_read?_iff]
  rintro ⟨text, -, h⟩
  split at h
  · exact not_crashes_ok _ h
  · simp [SettingsFault.isCrash] at h

/-- No entry of a list breaks it down if none does by itself. -/
theorem not_crashes_mapM {f : α → Except SettingsFault β} (h : ∀ a, ¬Crashes (f a))
    (items : List α) : ¬Crashes (items.mapM f) := by
  induction items with
  | nil => exact not_crashes_ok []
  | cons a items ih =>
    rw [List.mapM_cons, crashes_bind_iff]
    rintro (hhead | ⟨b, -, hrest⟩)
    · exact h a hhead
    · rw [crashes_bind_iff] at hrest
      obtain htail | ⟨bs, -, hbs⟩ := hrest
      · exact ih htail
      · exact not_crashes_ok _ hbs

theorem not_crashes_list (s : Settings) (area key : String) : ¬Crashes (s.list area key) := by
  rw [list, crashes_bind_iff, crashes_read?_iff]
  rintro (⟨text, -, h⟩ | ⟨texts, -, h⟩)
  · split at h
    · exact not_crashes_ok _ h
    · split at h
      · refine not_crashes_mapM ?_ _ h
        intro item hitem
        split at hitem
        · exact not_crashes_ok _ hitem
        · simp [SettingsFault.isCrash] at hitem
      · simp [SettingsFault.isCrash] at h
  · exact not_crashes_ok _ h

end Settings

namespace VerifierSettings
open Settings

/-- What is read before the interval is in order. -/
structure EarlierRead (s : Settings) : Prop where
  workers : ∃ n, s.number? "verifier" "workers" = .ok n
  externalPrefixes : ∃ texts, s.list "verifier" "external-prefixes" = .ok texts
  ignoredProblems : ∃ texts, s.list "verifier" "ignored-problems" = .ok texts
  pluginCapacity : ∃ n, s.number? "cache" "plugin-capacity" = .ok n
  hostCapacity : ∃ n, s.number? "cache" "host-capacity" = .ok n
  quota : ∃ n, quantity s "disk-quota" Quantity.size .badQuota = .ok n

theorem not_crashes_quota (s : Settings) :
    ¬Crashes (quantity s "disk-quota" Quantity.size .badQuota) := by
  rw [quantity, crashes_read?_iff]
  rintro ⟨text, -, h⟩
  cases hsize : Quantity.size text with
  | error fault => simp [hsize, Except.mapError, SettingsFault.isCrash] at h
  | ok n => simp [hsize, Except.mapError] at h

theorem crashes_interval_iff {s : Settings} :
    Crashes (quantity s "cleanup-interval" Quantity.interval .badInterval) ↔
      ∃ text, s.value? "cache" "cleanup-interval" = some text ∧ Quantity.WritesOverlong text := by
  rw [quantity, crashes_read?_iff]
  have hcrash (text : String) :
      Crashes ((Quantity.interval text).mapError (SettingsFault.badInterval text)) ↔
        Quantity.interval text = .error .overlong := by
    cases Quantity.interval text with
    | error fault => cases fault <;> simp [Except.mapError, SettingsFault.isCrash]
    | ok n => simp [Except.mapError]
  exact exists_congr fun text => and_congr_right fun _ =>
    (hcrash text).trans Quantity.interval_eq_overlong_iff

theorem crashes_readAll_iff {s : Settings} :
    Crashes (readAll s) ↔ EarlierRead s ∧
      ∃ text, s.value? "cache" "cleanup-interval" = some text ∧ Quantity.WritesOverlong text := by
  rw [← crashes_interval_iff]
  simp only [readAll, crashes_bind_iff, not_crashes_number?, not_crashes_list, not_crashes_quota,
    false_or]
  constructor
  · rintro ⟨workers, hworkers, prefixes, hprefixes, ignored, hignored, plugin, hplugin, host,
      hhost, quota, hquota, hinterval | ⟨interval, -, h⟩⟩
    · exact ⟨⟨⟨_, hworkers⟩, ⟨_, hprefixes⟩, ⟨_, hignored⟩, ⟨_, hplugin⟩, ⟨_, hhost⟩,
        ⟨_, hquota⟩⟩, hinterval⟩
    · exact absurd h (not_crashes_ok _)
  · rintro ⟨⟨⟨workers, hworkers⟩, ⟨prefixes, hprefixes⟩, ⟨ignored, hignored⟩,
      ⟨plugin, hplugin⟩, ⟨host, hhost⟩, ⟨quota, hquota⟩⟩, hinterval⟩
    exact ⟨workers, hworkers, prefixes, hprefixes, ignored, hignored, plugin, hplugin, host,
      hhost, quota, hquota, .inl hinterval⟩

theorem isCrash_of_fault? {v : VerifierSettings} {fault : SettingsFault}
    (h : v.fault? = some fault) : fault.isCrash = false := by
  unfold fault? at h
  split_ifs at h <;> cases h <;> rfl

/-- Settings for a run break down with the reading of them. -/
theorem ofSettings_crash_iff {s : Settings} :
    (∃ fault, ofSettings s = .error fault ∧ fault.isCrash = true) ↔ Crashes (readAll s) := by
  rw [ofSettings]
  cases hread : readAll s with
  | error fault =>
    rw [crashes_error_iff]
    constructor
    · rintro ⟨_, ⟨⟩, h⟩
      exact h
    · exact fun h => ⟨.setting fault, rfl, h⟩
  | ok v =>
    refine iff_of_false ?_ (not_crashes_ok v)
    rintro ⟨fault, herror, hcrash⟩
    cases hfound : v.fault? with
    | none => simp [Except.mapError, bind, Except.bind, hfound] at herror
    | some found =>
      obtain rfl : Fault.unusable found = fault := by
        simpa [Except.mapError, bind, Except.bind, hfound] using herror
      exact absurd hcrash (by simp [Fault.isCrash, isCrash_of_fault? hfound])

/-- Every text is an interval, is none, or is one that is too long. Settings for a run break down
with an interval of the last kind alone, unless what is read before it is refused. -/
theorem ofSettings_crash_iff_overlong (text : String) (s : Settings) :
    ((∃ n, Quantity.interval text = .ok n) ↔ ∃ value seconds,
      Quantity.WritesInterval text value seconds ∧ ¬Quantity.Overlong seconds value) ∧
    (Quantity.interval text = .error (.badInterval text) ↔
      ¬∃ value seconds, Quantity.WritesInterval text value seconds) ∧
    (Quantity.interval text = .error .overlong ↔ Quantity.WritesOverlong text) ∧
    ((∃ fault, ofSettings s = .error fault ∧ fault.isCrash = true) ↔
      EarlierRead s ∧ ∃ found, s.value? "cache" "cleanup-interval" = some found ∧
        Quantity.WritesOverlong found) := by
  refine ⟨?_, ?_, ?_, ?_⟩
  · exact Quantity.exists_interval_eq_ok_iff
  · exact Quantity.interval_eq_badInterval_iff
  · exact Quantity.interval_eq_overlong_iff
  · exact ofSettings_crash_iff.trans crashes_readAll_iff

/-- Seconds that a word just cannot count are neither kept nor refused, and a run breaks down. -/
theorem ofSettings_crash_two_pow_64 :
    let text := "18446744073709551616"
    Quantity.interval text = .error .overlong ∧
      ofSettings { table := [("cache", [("cleanup-interval", text)])] } =
        .error (.setting (.badInterval text .overlong)) ∧
      Fault.isCrash (.setting (.badInterval text .overlong)) = true := by
  refine ⟨?_, ?_, rfl⟩
  · decide +kernel
  · rfl

end VerifierSettings
end Linkage

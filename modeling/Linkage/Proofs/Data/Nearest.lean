import Linkage.Proofs.Data.Rounding

/-! Doubles are nearest to the numbers that they are made of: products, quotients, whole numbers and
decimal numbers. -/
namespace Linkage.Binary64
open Float.Model Float.Model.UnpackedFloat

/-! ## The nearest double -/

/-- A double is what a number is rounded to: it reaches a bound that is no more than so many units,
and more than one less, if the number is rounded to these units or to more. -/
def IsNearest (u : UnpackedFloat) (x : ℚ) : Prop :=
  IsMagnitude u ∧ ∀ {units : Nat} {exponent : Int} {bound : ℚ}, 2 ^ 52 < units → units ≤ 2 ^ 53 →
    -1074 ≤ exponent → ((units : ℚ) - 1) * 2 ^ exponent < bound → bound ≤ units * 2 ^ exponent →
    bound ≤ 2 ^ (1024 : Int) → (AtLeast bound u ↔ Rounds units (x / 2 ^ exponent))

/-- Powers of two are at least twice as large as those with a smaller exponent. -/
theorem two_mul_zpow_le {t t' : Int} (h : t < t') : 2 * (2 : ℚ) ^ t ≤ 2 ^ t' := by
  rw [mul_comm, ← zpow_add_one₀ (by norm_num)]
  exact zpow_le_zpow_right₀ (by norm_num) h

section
variable {r units : Nat} {t exponent : Int} {x bound : ℚ}

/-- A number that is kept in smaller units than a bound is below the bound. -/
theorem IsRounded.below (h : IsRounded r t x) (hlt : t < exponent) (hunits : 2 ^ 52 < units)
    (hbelow : ((units : ℚ) - 1) * 2 ^ exponent < bound) :
    r * 2 ^ t < bound ∧ ¬Rounds units (x / 2 ^ exponent) := by
  have hp : (0 : ℚ) < 2 ^ t := by positivity
  have hq : (0 : ℚ) < 2 ^ exponent := by positivity
  have hscale := two_mul_zpow_le hlt
  have hmore : (2 : ℚ) ^ 52 + 1 ≤ units := by exact_mod_cast hunits
  have hr : (r : ℚ) ≤ 2 ^ 53 := by exact_mod_cast h.le
  have hx : x ≤ (2 ^ 53 + 1 / 2) * 2 ^ t := by
    rw [← div_le_iff₀ hp]
    by_contra hno
    have hnext := (h.le_iff (2 ^ 53 + 1)).mpr (.inl (by push_cast; linarith))
    have := h.le
    omega
  have hquarter : x / 2 ^ exponent ≤ 2 ^ 52 + 1 / 4 := by
    rw [div_le_iff₀ hq]
    nlinarith
  refine ⟨?_, ?_⟩
  · nlinarith
  · rintro (hup | ⟨hup, -⟩) <;> linarith

/-- A number that is kept in larger units than a bound is above the bound. -/
theorem IsRounded.above (h : IsRounded r t x) (hgt : exponent < t) (hsmallest : -1074 ≤ exponent)
    (hunits : units ≤ 2 ^ 53) (habove : bound ≤ units * 2 ^ exponent) :
    bound ≤ r * 2 ^ t ∧ Rounds units (x / 2 ^ exponent) := by
  have hq : (0 : ℚ) < 2 ^ exponent := by positivity
  have hscale := two_mul_zpow_le hgt
  have hless : (units : ℚ) ≤ 2 ^ 53 := by exact_mod_cast hunits
  have hr : (2 : ℚ) ^ 52 ≤ r := by exact_mod_cast h.le_of_full (by omega)
  have hx := h.full (by omega)
  have hall : (2 : ℚ) ^ 53 ≤ x / 2 ^ exponent := by
    rw [le_div_iff₀ hq]
    nlinarith
  refine ⟨?_, .inl ?_⟩
  · nlinarith
  · linarith

/-- In the units of a bound, a number is rounded to so many or to more if it reaches the bound. -/
theorem IsRounded.reaches_iff (h : IsRounded r t x)
    (hbelow : ((units : ℚ) - 1) * 2 ^ t < bound) (habove : bound ≤ units * 2 ^ t) :
    bound ≤ r * 2 ^ t ↔ Rounds units (x / 2 ^ t) := by
  rw [← h.le_iff]
  constructor
  · intro hreach
    have hless : (units : ℚ) - 1 < r :=
      lt_of_mul_lt_mul_right (hbelow.trans_le hreach) (by positivity)
    have hcast : (units : ℚ) < (r + 1 : ℕ) := by
      push_cast
      linarith
    exact Nat.lt_succ_iff.mp (by exact_mod_cast hcast)
  · intro hle
    have hcast : (units : ℚ) ≤ r := by exact_mod_cast hle
    exact habove.trans (by gcongr)

end

/-- A number of units, and what is known of a part of one more, make the nearest double. -/
theorem isNearest_roundWithAccuracy {m : Nat} {e : Int} {acc : Accuracy} {y : ℚ}
    (hy : Locates (.ofMantissaAndAccuracy m acc) y)
    (he : e ≤ Format.binary64.targetExponent (totalExponent m e)) :
    IsNearest (Float.Model.pack (roundWithAccuracy Format.binary64 .positive m e acc)).unpack
      (y * 2 ^ e) := by
  obtain ⟨r, t, heq, hrounded⟩ := exists_carried hy he
  rw [heq]
  have hzero : (0 : ℚ) ≤ 2 ^ (1024 : Int) := by positivity
  refine ⟨(hrounded.atLeast_iff hzero).1, ?_⟩
  intro units exponent bound hunits hunits' hexponent hbelow habove hbound
  rw [(hrounded.atLeast_iff hbound).2]
  obtain hlt | rfl | hgt := lt_trichotomy t exponent
  · obtain ⟨hless, hdown⟩ := hrounded.below hlt hunits hbelow
    exact iff_of_false (not_le.mpr hless) hdown
  · exact hrounded.reaches_iff hbelow habove
  · obtain ⟨hmore, hup⟩ := hrounded.above hgt hexponent hunits' habove
    exact iff_of_true hmore hup

/-! ## Products and quotients -/

section
variable {m n : Nat} {e f : Int} (hm : 0 < m) (hn : 0 < n)

theorem isNearest_mul (hbits : 2 ^ 52 ≤ m * n) :
    IsNearest (Float.Model.pack (UnpackedFloat.mul Format.binary64 (.finite .positive m e hm)
      (.finite .positive n f hn))).unpack (m * 2 ^ e * (n * 2 ^ f)) := by
  have hlog : 52 ≤ (m * n).log2 := (Nat.le_log2 (Nat.mul_pos hm hn).ne').mpr hbits
  have hnearest := isNearest_roundWithAccuracy (locates_exact (m * n)) (e := e + f) (by
    rw [targetExponent_eq]
    omega)
  have hx : ((m * n : ℕ) : ℚ) * 2 ^ (e + f) = m * 2 ^ e * (n * 2 ^ f) := by
    rw [zpow_add₀ (by norm_num)]
    push_cast
    ring
  rw [← hx]
  exact hnearest

/-- A quotient has enough bits to be rounded, unless its units are the smallest. -/
theorem divCore_bits (hm : 0 < m) (hn : 0 < n) :
    let (q, t, _) := divCore Format.binary64 m e n f
    t ≤ e - f ∧ (t ≤ -1074 ∨ 2 ^ 52 ≤ q) := by
  simp only [divCore]
  obtain ⟨t, ht⟩ : ∃ t, t = min (e - f) (Format.binary64.targetExponent
    (totalExponent m e - totalExponent n f)) := ⟨_, rfl⟩
  rw [← ht]
  refine ⟨by omega, ?_⟩
  by_cases hmin : t ≤ -1074
  · exact .inl hmin
  refine .inr ?_
  have hshift : n.log2 + 53 ≤ m.log2 + (e - f - t).toNat := by
    simp only [Format.targetExponent, totalExponent, Format.mantissaBits, Format.minExponent] at ht
    norm_num at ht
    omega
  rw [Nat.le_div_iff_mul_le hn, Nat.shiftLeft_eq]
  calc 2 ^ 52 * n ≤ 2 ^ 52 * 2 ^ (n.log2 + 1) := Nat.mul_le_mul_left _ Nat.lt_log2_self.le
    _ = 2 ^ (n.log2 + 53) := by rw [← Nat.pow_add]; congr 1; omega
    _ ≤ 2 ^ (m.log2 + (e - f - t).toNat) := Nat.pow_le_pow_right (by decide) hshift
    _ = 2 ^ m.log2 * 2 ^ (e - f - t).toNat := Nat.pow_add ..
    _ ≤ m * 2 ^ (e - f - t).toNat := Nat.mul_le_mul_right _ (Nat.log2_self_le hm.ne')

theorem isNearest_div :
    IsNearest (Float.Model.pack (UnpackedFloat.div Format.binary64 (.finite .positive m e hm)
      (.finite .positive n f hn))).unpack (m * 2 ^ e / (n * 2 ^ f)) := by
  obtain ⟨t, ht⟩ : ∃ t, t = min (e - f) (Format.binary64.targetExponent
    (totalExponent m e - totalExponent n f)) := ⟨_, rfl⟩
  have hbits := divCore_bits (e := e) (f := f) hm hn
  simp only [divCore, ← ht] at hbits
  obtain ⟨hle, hbits⟩ := hbits
  obtain ⟨shifted, hshifted⟩ : ∃ k, k = m <<< (e - f - t).toNat := ⟨_, rfl⟩
  rw [← hshifted] at hbits
  have hnearest := isNearest_roundWithAccuracy
    (locates_fraction (Nat.mod_lt shifted hn) (shifted / n)) (e := t) (by
      rw [targetExponent_eq]
      obtain hmin | hbits := hbits
      · omega
      · have : 52 ≤ (shifted / n).log2 := (Nat.le_log2 (by omega)).mpr hbits
        omega)
  have hx : (((shifted / n : ℕ) : ℚ) + ((shifted % n : ℕ) : ℚ) / n) * 2 ^ t =
      m * 2 ^ e / (n * 2 ^ f) := by
    have hn' : (n : ℚ) ≠ 0 := by exact_mod_cast hn.ne'
    have hdivision : (n : ℚ) * (shifted / n : ℕ) + (shifted % n : ℕ) = shifted := by
      exact_mod_cast Nat.div_add_mod shifted n
    have hvalue : (shifted : ℚ) * 2 ^ t * 2 ^ f = m * 2 ^ e := by
      rw [hshifted, Nat.shiftLeft_eq, Nat.cast_mul, Nat.cast_pow, ← zpow_natCast, mul_assoc,
        mul_assoc, Nat.cast_ofNat, ← zpow_add₀ (by norm_num), ← zpow_add₀ (by norm_num)]
      congr 2
      omega
    rw [eq_div_iff (by positivity), ← hvalue, ← hdivision]
    field_simp
  rw [← hx]
  simp only [UnpackedFloat.div, divCore, ← ht, ← hshifted]
  exact hnearest

end

/-! ## Whole numbers and decimal numbers -/

/-- An unpacked number is a whole number, and its units take all bits of a double. -/
def IsWhole (u : UnpackedFloat) (n : Nat) : Prop :=
  ∃ m e, ∃ hm : 0 < m, u = .finite .positive m e hm ∧ 2 ^ 52 ≤ m ∧ (m : ℚ) * 2 ^ e = n

/-- Shifted up to its first bit, a whole number takes all bits of a double. -/
theorem shifted_bits {n : Nat} (hpos : 0 < n) (hlog : n.log2 ≤ 52) :
    2 ^ 52 ≤ n <<< (52 - n.log2) ∧ n <<< (52 - n.log2) < 2 ^ 53 := by
  rw [Nat.shiftLeft_eq]
  constructor
  · calc 2 ^ 52 = 2 ^ n.log2 * 2 ^ (52 - n.log2) := by rw [← Nat.pow_add]; congr 1; omega
      _ ≤ n * 2 ^ (52 - n.log2) := Nat.mul_le_mul_right _ (Nat.log2_self_le hpos.ne')
  · calc n * 2 ^ (52 - n.log2) < 2 ^ (n.log2 + 1) * 2 ^ (52 - n.log2) :=
          Nat.mul_lt_mul_of_pos_right Nat.lt_log2_self (by positivity)
      _ = 2 ^ 53 := by rw [← Nat.pow_add]; congr 1; omega

/-- Whole numbers of fewer than 54 bits are doubles. -/
theorem isWhole_ofNat {n : Nat} (hpos : 0 < n) (hn : n < 2 ^ 53) :
    IsWhole (Float.Model.ofNat n).unpack n := by
  have hlog : n.log2 ≤ 52 := Nat.lt_succ_iff.mp ((Nat.log2_lt hpos.ne').mpr hn)
  obtain ⟨m, hm⟩ : ∃ m, m = n <<< (52 - n.log2) := ⟨_, rfl⟩
  obtain ⟨e, he⟩ : ∃ e : Int, e = n.log2 - 52 := ⟨_, rfl⟩
  obtain ⟨hlow, hhigh⟩ := shifted_bits hpos hlog
  rw [← hm] at hlow hhigh
  have hmpos : 0 < m := by omega
  have hmlog : m.log2 = 52 := (Nat.log2_eq_iff hmpos.ne').mpr ⟨hlow, hhigh⟩
  have htarget : Format.binary64.targetExponent (totalExponent m e) = e := by
    rw [targetExponent_eq, hmlog]
    omega
  have hround : UnpackedFloat.ofNat Format.binary64 n = .finite .positive m e hmpos := by
    have hdecrease : decreaseExponent n 0
        (Format.binary64.targetExponent (totalExponent n 0)) = (m, e) := by
      rw [targetExponent_eq, decreaseExponent, hm, he]
      have : (0 - max ((n.log2 : Int) + 0 - 52) (-1074)).toNat = 52 - n.log2 := by omega
      rw [this]
      congr 1
      omega
    have hkept : (shiftToTargetExponent Format.binary64 m e .exact).1.roundedMantissa = m := by
      rw [shiftToTargetExponent_carried hhigh.le (by omega), if_pos hhigh]
      rfl
    have hcompare : compare (n : Int) 0 = .gt := Int.compare_eq_gt.mpr (by omega)
    simp only [UnpackedFloat.ofNat, UnpackedFloat.ofInt, UnpackedFloat.normalize, hcompare,
      UnpackedFloat.round, Int.toNat_natCast, hdecrease]
    rw [roundWithAccuracy_eq hkept.symm hhigh.le htarget.ge, htarget, carried, dif_neg hmpos.ne',
      if_pos hhigh]
  refine ⟨m, e, hmpos, ?_, hlow, ?_⟩
  · rw [Float.Model.ofNat, hround]
    exact unpack_pack_normal hmpos hlow hhigh (by omega) (by omega)
  · rw [hm, he, Nat.shiftLeft_eq, Nat.cast_mul, Nat.cast_pow, Nat.cast_ofNat, mul_assoc,
      ← zpow_natCast, ← zpow_add₀ (by norm_num), Nat.cast_sub hlog]
    norm_num

/-- Whether an unpacked number is a whole number, as it is seen from its parts. -/
def isWhole (u : UnpackedFloat) (n : Nat) : Bool :=
  match u with
  | .finite .positive m e _ => 2 ^ 52 ≤ m && m <<< e.toNat == n <<< (-e).toNat
  | _ => false

theorem isWhole_sound {u : UnpackedFloat} {n : Nat} (h : isWhole u n = true) : IsWhole u n := by
  unfold isWhole at h
  split at h
  case h_2 => cases h
  case h_1 m e hm =>
    rw [Bool.and_eq_true, decide_eq_true_eq, beq_iff_eq] at h
    obtain ⟨hlow, hvalue⟩ := h
    refine ⟨m, e, hm, rfl, hlow, ?_⟩
    rw [Nat.shiftLeft_eq, Nat.shiftLeft_eq] at hvalue
    have hcast : ((m * 2 ^ e.toNat : ℕ) : ℚ) = (n * 2 ^ (-e).toNat : ℕ) := by exact_mod_cast hvalue
    push_cast at hcast
    have hpow : (2 : ℚ) ^ e * 2 ^ (-e).toNat = 2 ^ e.toNat := by
      rw [← zpow_natCast, ← zpow_natCast, ← zpow_add₀ (by norm_num)]
      congr 1
      omega
    have hne : (2 : ℚ) ^ (-e).toNat ≠ 0 := by positivity
    apply mul_right_cancel₀ hne
    rw [mul_assoc, hpow, hcast]

/-- The powers of ten that are kept are what they should be. -/
theorem isWhole_power {k : Nat} (hk : k < 23) :
    IsWhole Float.exactlyRepresentablePowersOfTen[k].toModel.unpack (10 ^ k) := by
  have hall : ∀ k : Fin 23, isWhole
      Float.exactlyRepresentablePowersOfTen[k.val].toModel.unpack (10 ^ k.val) = true := by
    decide +kernel
  exact isWhole_sound (hall ⟨k, hk⟩)

theorem isNearest_mul_whole {u v : UnpackedFloat} {m n : Nat} (hu : IsWhole u m)
    (hv : IsWhole v n) :
    IsNearest (Float.Model.pack (UnpackedFloat.mul Format.binary64 u v)).unpack (m * n) := by
  obtain ⟨m', e, hm, rfl, hbits, hvalue⟩ := hu
  obtain ⟨n', f, hn, rfl, -, hvalue'⟩ := hv
  rw [← hvalue, ← hvalue']
  exact isNearest_mul hm hn (hbits.trans (Nat.le_mul_of_pos_right _ hn))

theorem isNearest_div_whole {u v : UnpackedFloat} {m n : Nat} (hu : IsWhole u m)
    (hv : IsWhole v n) :
    IsNearest (Float.Model.pack (UnpackedFloat.div Format.binary64 u v)).unpack (m / n) := by
  obtain ⟨m', e, hm, rfl, -, hvalue⟩ := hu
  obtain ⟨n', f, hn, rfl, -, hvalue'⟩ := hv
  rw [← hvalue, ← hvalue']
  exact isNearest_div hm hn

/-- Digits with an exponent of ten become the nearest double, unless the exponent is so small or so
large that no power of ten is computed for it. -/
theorem isNearest_ofScientific_model {m : Nat} {e : Int} (hm : 0 < m) (hmin : -(2048 + m.log2) ≤ e)
    (hmax : e ≤ 2048) : IsNearest (Float.Model.ofScientific m e).unpack (m * 10 ^ e) := by
  have hlarge : ¬ e > 2 ^ Format.binary64.exponentBits := by
    norm_num
    omega
  have hsmall : ¬ e < -((2 ^ Format.binary64.exponentBits : Int) + m.log2) := by
    norm_num
    omega
  rw [Float.Model.ofScientific, UnpackedFloat.ofScientific, dif_neg hm.ne', if_neg hlarge,
    if_neg hsmall]
  split
  case isTrue hup =>
    have hbits : 2 ^ 52 ≤ m <<< Format.binary64.mantissaBits * 10 ^ e.toNat := by
      have : 2 ^ 52 ≤ m <<< Format.binary64.mantissaBits := by
        rw [Nat.shiftLeft_eq]
        calc 2 ^ 52 ≤ 1 * 2 ^ 53 := by decide
          _ ≤ m * 2 ^ 53 := Nat.mul_le_mul_right _ hm
      exact this.trans (Nat.le_mul_of_pos_right _ (Nat.pow_pos (by decide)))
    have hx : ((m <<< Format.binary64.mantissaBits : ℕ) : ℚ) *
        2 ^ (-(Format.binary64.mantissaBits : Int)) * ((10 ^ e.toNat : ℕ) * 2 ^ (0 : Int)) =
        m * 10 ^ e := by
      obtain ⟨k, rfl⟩ := Int.eq_ofNat_of_zero_le hup
      rw [Nat.shiftLeft_eq]
      push_cast
      rw [zpow_neg, zpow_natCast]
      field_simp
      simp
    rw [← hx]
    exact isNearest_mul _ _ hbits
  case isFalse hdown =>
    have hx : (m : ℚ) * 2 ^ (0 : Int) / ((10 ^ (-e).toNat : ℕ) * 2 ^ (0 : Int)) = m * 10 ^ e := by
      obtain ⟨k, hk⟩ := Int.eq_ofNat_of_zero_le (show 0 ≤ -e by omega)
      obtain rfl : e = -k := by omega
      simp [div_eq_mul_inv]
    rw [← hx]
    exact isNearest_div _ _

theorem isNearest_ofScientific {m : Nat} {e : Int} (hm : 0 < m) (hmin : -(2048 + m.log2) ≤ e)
    (hmax : e ≤ 2048) :
    IsNearest (Float.ofScientific m (e < 0) e.natAbs).toModel.unpack (m * 10 ^ e) := by
  by_cases hfast : m < 2 ^ 53 ∧ e.natAbs ≤ 22
  · have hword : m.toUInt64.toNat = m := by
      have : m % 2 ^ 64 = m := Nat.mod_eq_of_lt (hfast.1.trans (by decide))
      simpa using this
    have hwhole : IsWhole m.toUInt64.toFloat.toModel.unpack m := by
      have : IsWhole (Float.Model.ofNat m.toUInt64.toNat).unpack m := by
        rw [hword]
        exact isWhole_ofNat hm hfast.1
      exact this
    have hpower := isWhole_power (Nat.lt_succ_iff.mpr hfast.2)
    rw [Float.ofScientific, dif_pos hfast]
    by_cases hdown : e < 0
    · have hx : (m : ℚ) / (10 ^ e.natAbs : ℕ) = m * 10 ^ e := by
        obtain ⟨k, hk⟩ := Int.eq_ofNat_of_zero_le (show 0 ≤ -e by omega)
        obtain rfl : e = -k := by omega
        simp [div_eq_mul_inv]
      rw [← hx, if_pos (by simpa using hdown)]
      exact isNearest_div_whole hwhole hpower
    · have hx : (m : ℚ) * (10 ^ e.natAbs : ℕ) = m * 10 ^ e := by
        obtain ⟨k, rfl⟩ := Int.eq_ofNat_of_zero_le (not_lt.mp hdown)
        simp
      rw [← hx, if_neg (by simpa using hdown)]
      exact isNearest_mul_whole hwhole hpower
  · have hexponent :
        (if decide (e < 0) then Int.negOfNat e.natAbs else Int.ofNat e.natAbs) = e := by
      by_cases hdown : e < 0
      · simp only [hdown, decide_true, if_true, Int.negOfNat_eq, Int.ofNat_eq_natCast]
        omega
      · simp only [hdown, decide_false, Bool.false_eq_true, if_false]
        exact Int.natAbs_of_nonneg (not_lt.mp hdown)
    rw [Float.ofScientific, dif_neg hfast]
    simp only [hexponent]
    exact isNearest_ofScientific_model hm hmin hmax

/-- Numbers much smaller than all doubles become zero. -/
theorem isNearest_zero {x : ℚ} (hx : x ≤ 2 ^ (-1030 : Int)) : IsNearest (.zero .positive) x := by
  refine ⟨trivial, fun {units exponent bound} hunits _ hexponent hbelow _ _ => ?_⟩
  have hq : (0 : ℚ) < 2 ^ exponent := by positivity
  have hmore : ((2 ^ 52 + 1 : ℕ) : ℚ) ≤ units := by exact_mod_cast hunits
  push_cast at hmore
  have hsmall : x / 2 ^ exponent ≤ 2 ^ 52 := by
    rw [div_le_iff₀ hq]
    calc x ≤ 2 ^ (-1030 : Int) := hx
      _ ≤ 2 ^ (52 + exponent) := zpow_le_zpow_right₀ (by norm_num) (by omega)
      _ = 2 ^ 52 * 2 ^ exponent := by rw [zpow_add₀ (by norm_num), zpow_ofNat]
  refine iff_of_false ?_ ?_
  · have : (0 : ℚ) < (units - 1) * 2 ^ exponent := mul_pos (by linarith only [hmore]) hq
    exact not_le.mpr (this.trans hbelow)
  · rintro (hup | ⟨hup, -⟩) <;> linarith only [hup, hsmall, hmore]

/-- Numbers much larger than all doubles become infinite. -/
theorem isNearest_infinity {x : ℚ} (hx : 2 ^ (1025 : Int) ≤ x) :
    IsNearest (.infinity .positive) x := by
  refine ⟨trivial, fun {units exponent bound} hunits _ _ hbelow _ hbound =>
    iff_of_true trivial (.inl ?_)⟩
  have hq : (0 : ℚ) < 2 ^ exponent := by positivity
  have hmore : ((2 ^ 52 + 1 : ℕ) : ℚ) ≤ units := by exact_mod_cast hunits
  push_cast at hmore
  have hlarge : (units : ℚ) ≤ x / 2 ^ exponent := by
    rw [le_div_iff₀ hq]
    calc (units : ℚ) * 2 ^ exponent ≤ 2 * ((units - 1) * 2 ^ exponent) := by nlinarith
      _ ≤ 2 * 2 ^ (1024 : Int) := by
        gcongr
        exact (hbelow.trans_le hbound).le
      _ = 2 ^ (1025 : Int) := by
        rw [show (1025 : Int) = 1024 + 1 by norm_num, zpow_add_one₀ (by norm_num), mul_comm]
      _ ≤ x := hx
  linarith

/-- How many digits a number has bounds it from both sides. -/
theorem bounds_of_length {n : Nat} (hn : 0 < n) :
    (10 : ℚ) ^ (((toString n).length : Int) - 1) ≤ n ∧ (n : ℚ) < 10 ^ ((toString n).length : Int) ∧
      (toString n).length ≤ n.log2 + 1 := by
  have hlength (k : Nat) (hk : 0 < k) : (toString n).length ≤ k ↔ n < 10 ^ k :=
    Nat.length_repr_le_iff hk
  have hpos : 0 < (toString n).length := Nat.length_repr_pos
  obtain ⟨k, hk⟩ : ∃ k, (toString n).length = k + 1 := ⟨_, (Nat.succ_pred_eq_of_pos hpos).symm⟩
  refine ⟨?_, ?_, ?_⟩
  · have hle : 10 ^ k ≤ n := by
      obtain rfl | hk' := Nat.eq_zero_or_pos k
      · exact hn
      · exact not_lt.mp fun h => by have := (hlength k hk').mpr h; omega
    have hcast : ((10 ^ k : ℕ) : ℚ) ≤ n := by exact_mod_cast hle
    rw [hk]
    simpa using hcast
  · have hcast : (n : ℚ) < (10 ^ (toString n).length : ℕ) := by
      exact_mod_cast (hlength _ hpos).mp le_rfl
    rw [zpow_natCast]
    exact_mod_cast hcast
  · refine (hlength _ (Nat.succ_pos _)).mpr ?_
    exact Nat.lt_log2_self.trans_le (Nat.pow_le_pow_left (by decide) _)

/-- A power of ten is no smaller than that of two with an exponent three times as large. -/
theorem two_zpow_le_ten_zpow {n : Int} {k : Nat} (h : n ≤ 3 * k) :
    (2 : ℚ) ^ n ≤ 10 ^ (k : Int) := by
  calc (2 : ℚ) ^ n ≤ 2 ^ ((3 * k : ℕ) : Int) := zpow_le_zpow_right₀ (by norm_num) (by omega)
    _ = 8 ^ k := by
      rw [zpow_natCast, pow_mul]
      norm_num
    _ ≤ 10 ^ k := pow_le_pow_left₀ (by norm_num) (by norm_num) k
    _ = 10 ^ (k : Int) := (zpow_natCast _ _).symm

/-- The double that is made of a decimal number is the nearest one. -/
theorem isNearest_ofDecimal {d : Decimal.Float} (h : d.negative = false) :
    IsNearest (ofDecimal d).toModel.unpack (d.digits * 10 ^ d.exponent) := by
  have hten : (2 : ℚ) ^ (1025 : Int) ≤ 10 ^ (400 : Int) := @two_zpow_le_ten_zpow _ 400 (by decide)
  have htenth : (10 : ℚ) ^ (-401 : Int) ≤ 2 ^ (-1030 : Int) := by
    rw [zpow_neg, zpow_neg]
    exact inv_anti₀ (by positivity) (@two_zpow_le_ten_zpow _ 401 (by decide))
  unfold ofDecimal
  simp only [h, Bool.false_eq_true, if_false]
  by_cases hzero : d.digits = 0
  · simp only [hzero, decide_true, Bool.true_or, if_true]
    exact isNearest_zero (by simp)
  obtain ⟨hlow, hhigh, hlog⟩ := bounds_of_length (Nat.pos_of_ne_zero hzero)
  have hpow : (0 : ℚ) < 10 ^ d.exponent := by positivity
  by_cases hsmall : ((toString d.digits).length : Int) + d.exponent < -400
  · rw [if_pos (Bool.or_eq_true_iff.mpr (.inr (decide_eq_true hsmall)))]
    refine isNearest_zero (le_trans ?_ htenth)
    calc (d.digits : ℚ) * 10 ^ d.exponent
        ≤ 10 ^ ((toString d.digits).length : Int) * 10 ^ d.exponent := by gcongr
      _ = 10 ^ (((toString d.digits).length : Int) + d.exponent) :=
        (zpow_add₀ (by norm_num) _ _).symm
      _ ≤ 10 ^ (-401 : Int) := zpow_le_zpow_right₀ (by norm_num) (by omega)
  have hcomputed : ¬ (decide (d.digits = 0) ||
      decide (((toString d.digits).length : Int) + d.exponent < -400)) = true := by
    rw [Bool.or_eq_true, decide_eq_true_eq, decide_eq_true_eq]
    exact not_or.mpr ⟨hzero, hsmall⟩
  rw [if_neg hcomputed]
  by_cases hlarge : ((toString d.digits).length : Int) + d.exponent > 400
  · rw [if_pos hlarge]
    refine isNearest_infinity (hten.trans ?_)
    calc (10 : ℚ) ^ (400 : Int)
        ≤ 10 ^ (((toString d.digits).length : Int) - 1 + d.exponent) :=
          zpow_le_zpow_right₀ (by norm_num) (by omega)
      _ = 10 ^ (((toString d.digits).length : Int) - 1) * 10 ^ d.exponent :=
        zpow_add₀ (by norm_num) _ _
      _ ≤ d.digits * 10 ^ d.exponent := by gcongr
  · rw [if_neg hlarge]
    exact isNearest_ofScientific (Nat.pos_of_ne_zero hzero) (by omega) (by omega)

end Linkage.Binary64

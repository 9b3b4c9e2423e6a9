import Mathlib
import Linkage.Data.Binary64

/-! Rounding to the units of a double, and what of a number is stored. -/
namespace Linkage.Binary64
open Float.Model Float.Model.UnpackedFloat

/-! ## Rounding to a whole number of units -/

/-- A number of units is rounded to `k` units or to more: halfway it goes to the even neighbour. -/
def Rounds (k : Nat) (x : ℚ) : Prop := 2 * (k : ℚ) - 1 < 2 * x ∨ (2 * x = 2 * k - 1 ∧ k % 2 = 0)

theorem rounds_iff_of_even {k : Nat} {x : ℚ} (hk : k % 2 = 0) :
    Rounds k x ↔ 2 * (k : ℚ) - 1 ≤ 2 * x := by
  rw [Rounds, le_iff_lt_or_eq, @eq_comm _ (2 * x), and_iff_left hk]

theorem rounds_iff_of_odd {k : Nat} {x : ℚ} (hk : k % 2 = 1) :
    Rounds k x ↔ 2 * (k : ℚ) - 1 < 2 * x := by
  rw [Rounds, or_iff_left]
  rintro ⟨-, heven⟩
  omega

/-- The half units that a mantissa and its round bit count. -/
def halves (em : ExtendedMantissa) : Nat := 2 * em.mantissa + em.roundBit.toNat

/-- A number is between the half units that are counted and the next one, or it is their number. -/
def Locates (em : ExtendedMantissa) (x : ℚ) : Prop :=
  if em.stickyBit then (halves em : ℚ) < 2 * x ∧ 2 * x < halves em + 1 else 2 * x = halves em

/-- Which way a number is rounded depends on its half units, and on whether it is more than them. -/
theorem Locates.rounds_iff {em : ExtendedMantissa} {x : ℚ} (h : Locates em x) (k : Nat) :
    Rounds k x ↔ 2 * k ≤ halves em ∨
      (2 * k = halves em + 1 ∧ (em.stickyBit = true ∨ k % 2 = 0)) := by
  unfold Locates at h
  unfold Rounds
  split at h
  case isTrue hsticky =>
    obtain ⟨hlow, hhigh⟩ := h
    simp only [hsticky, true_or, and_true]
    constructor
    · rintro (hup | ⟨hhalf, -⟩)
      · have hk : (2 * k : ℚ) < (halves em + 2 : ℕ) := by push_cast; linarith
        have : 2 * k < halves em + 2 := by exact_mod_cast hk
        omega
      · have hk : ((halves em + 1 : ℕ) : ℚ) < (2 * k : ℕ) := by push_cast; linarith
        have hk' : ((2 * k : ℕ) : ℚ) < (halves em + 2 : ℕ) := by push_cast; linarith
        have : halves em + 1 < 2 * k := by exact_mod_cast hk
        have : 2 * k < halves em + 2 := by exact_mod_cast hk'
        omega
    · intro hk
      have hle : 2 * k ≤ halves em + 1 := by omega
      have : ((2 * k : ℕ) : ℚ) ≤ (halves em + 1 : ℕ) := by exact_mod_cast hle
      push_cast at this
      exact .inl (by linarith)
  case isFalse hsticky =>
    rw [h]
    constructor
    · rintro (hup | ⟨hhalf, heven⟩)
      · have hk : ((2 * k : ℕ) : ℚ) < (halves em + 1 : ℕ) := by push_cast; linarith
        have : 2 * k < halves em + 1 := by exact_mod_cast hk
        omega
      · have hk : ((2 * k : ℕ) : ℚ) = (halves em + 1 : ℕ) := by push_cast; linarith
        exact .inr ⟨by exact_mod_cast hk, .inr heven⟩
    · rintro (hk | ⟨hk, hbit | heven⟩)
      · have : ((2 * k : ℕ) : ℚ) ≤ (halves em : ℕ) := by exact_mod_cast hk
        push_cast at this
        exact .inl (by linarith)
      · exact absurd hbit hsticky
      · have : ((2 * k : ℕ) : ℚ) = (halves em + 1 : ℕ) := by exact_mod_cast hk
        push_cast at this
        exact .inr ⟨by linarith, heven⟩

theorem Locates.le_roundedMantissa_iff {em : ExtendedMantissa} {x : ℚ} (h : Locates em x)
    (k : Nat) : k ≤ em.roundedMantissa ↔ Rounds k x := by
  rw [h.rounds_iff]
  obtain ⟨m, r, s⟩ := em
  cases r <;> cases s <;>
    simp only [halves, ExtendedMantissa.roundedMantissa, ExtendedMantissa.accuracy,
      Accuracy.roundToNearestEven, Bool.toNat_false, Bool.toNat_true, Bool.false_eq_true,
      true_or, false_or, and_true] <;>
    omega

theorem Locates.shiftRightOne {em : ExtendedMantissa} {x : ℚ} (h : Locates em x) :
    Locates em.shiftRightOne (x / 2) := by
  obtain ⟨m, r, s⟩ := em
  have hhalves : halves (ExtendedMantissa.shiftRightOne ⟨m, r, s⟩) = m := by
    obtain hm | hm := Nat.mod_two_eq_zero_or_one m <;>
      simp [halves, ExtendedMantissa.shiftRightOne, hm] <;> omega
  unfold Locates at h ⊢
  rw [hhalves]
  have hx : 2 * (x / 2) = x := by ring
  rw [hx]
  cases r <;> cases s <;> simp [halves, ExtendedMantissa.shiftRightOne] at h ⊢
  · exact h
  · exact ⟨h.1, by linarith⟩
  · constructor <;> linarith
  · constructor <;> linarith

theorem Locates.shiftRight {em : ExtendedMantissa} {x : ℚ} (h : Locates em x) (n : Nat) :
    Locates (em >>> n) (x / 2 ^ n) := by
  change Locates (n.repeat ExtendedMantissa.shiftRightOne em) _
  induction n with
  | zero => simpa [Nat.repeat] using h
  | succ n ih =>
    rw [pow_succ, ← div_div]
    exact ih.shiftRightOne

theorem locates_exact (m : Nat) : Locates (.ofMantissaAndAccuracy m .exact) m := by
  simp [Locates, halves, ExtendedMantissa.ofMantissaAndAccuracy]

theorem locates_fraction {num den : Nat} (h : num < den) (m : Nat) :
    Locates (.ofMantissaAndAccuracy m (accuracyOfFraction num den)) (m + num / den) := by
  have hden : (0 : ℚ) < den := by exact_mod_cast Nat.zero_lt_of_lt h
  have hlt : (num : ℚ) / den < 1 := (div_lt_one hden).mpr (by exact_mod_cast h)
  unfold accuracyOfFraction
  split
  case isTrue hzero =>
    subst hzero
    simpa using locates_exact m
  case isFalse hzero =>
    have hpos : (0 : ℚ) < num / den := by
      have : (0 : ℚ) < num := by exact_mod_cast Nat.pos_of_ne_zero hzero
      positivity
    obtain hhalf | hhalf | hhalf := lt_trichotomy (2 * num) den
    · have : 2 * ((num : ℚ) / den) < 1 := by
        rw [← mul_div_assoc, div_lt_one hden]
        exact_mod_cast hhalf
      rw [Nat.compare_eq_lt.mpr hhalf]
      simp [Locates, halves, ExtendedMantissa.ofMantissaAndAccuracy]
      constructor <;> linarith
    · have : 2 * ((num : ℚ) / den) = 1 := by
        rw [← mul_div_assoc, div_eq_one_iff_eq hden.ne']
        exact_mod_cast hhalf
      rw [Nat.compare_eq_eq.mpr hhalf]
      simp [Locates, halves, ExtendedMantissa.ofMantissaAndAccuracy]
      linarith
    · have : 1 < 2 * ((num : ℚ) / den) := by
        rw [← mul_div_assoc, one_lt_div hden]
        exact_mod_cast hhalf
      rw [Nat.compare_eq_gt.mpr hhalf]
      simp [Locates, halves, ExtendedMantissa.ofMantissaAndAccuracy]
      constructor <;> linarith

/-! ## Rounding to a double -/

/-- The exponent of the units that a number of a given size is rounded to. -/
theorem targetExponent_eq (m : Nat) (e : Int) :
    Format.binary64.targetExponent (totalExponent m e) = max (m.log2 + e - 52) (-1074) := by
  simp only [Format.targetExponent, totalExponent, Format.mantissaBits, Format.minExponent]
  norm_num
  omega

/-- So many units as they are kept: 2^53 of them are half as many of twice the size. -/
def carried (r : Nat) (t : Int) : UnpackedFloat :=
  if h : r = 0 then .zero .positive
  else if r < 2 ^ 53 then .finite .positive r t (Nat.pos_of_ne_zero h)
  else .finite .positive (2 ^ 52) (t + 1) (by decide)

/-- Units that are few enough are kept as they are, and 2^53 of them need one bit less. -/
theorem shiftToTargetExponent_carried {r : Nat} {t : Int} (hr : r ≤ 2 ^ 53) (ht : -1074 ≤ t) :
    shiftToTargetExponent Format.binary64 r t .exact =
      if r < 2 ^ 53 then (⟨r, false, false⟩, t) else (⟨2 ^ 52, false, false⟩, t + 1) := by
  unfold shiftToTargetExponent
  rw [targetExponent_eq]
  split
  case isTrue hlt =>
    have hlog : r.log2 ≤ 52 := by
      by_cases hzero : r = 0
      · simp [hzero]
      · have := (Nat.log2_lt hzero).mpr hlt
        omega
    have hshift : (max ((r.log2 : Int) + t - 52) (-1074) - t).toNat = 0 := by omega
    simp [shiftToExponent, hshift, HShiftRight.hShiftRight, Nat.repeat,
      ExtendedMantissa.ofMantissaAndAccuracy]
  case isFalse hge =>
    obtain rfl : r = 2 ^ 53 := by omega
    have hshift : (max (((2 ^ 53 : Nat).log2 : Int) + t - 52) (-1074) - t).toNat = 1 := by
      rw [Nat.log2_two_pow]
      omega
    simp only [shiftToExponent, hshift]
    rfl

/-- What rounding to a double does, in one step. -/
theorem roundWithAccuracy_eq {m : Nat} {e : Int} {acc : Accuracy} {r : Nat}
    (hr : r = (shiftToTargetExponent Format.binary64 m e acc).1.roundedMantissa)
    (hle : r ≤ 2 ^ 53) (he : e ≤ Format.binary64.targetExponent (totalExponent m e)) :
    roundWithAccuracy Format.binary64 .positive m e acc =
      carried r (Format.binary64.targetExponent (totalExponent m e)) := by
  have hexponent : (shiftToTargetExponent Format.binary64 m e acc).2 =
      Format.binary64.targetExponent (totalExponent m e) := by
    simp only [shiftToTargetExponent, shiftToExponent]
    omega
  have hmin : -1074 ≤ Format.binary64.targetExponent (totalExponent m e) := by
    rw [targetExponent_eq]
    exact le_max_right _ _
  unfold roundWithAccuracy
  simp only [hexponent, ← hr]
  have hshift := shiftToTargetExponent_carried hle hmin
  unfold carried
  by_cases hlt : r < 2 ^ 53
  · rw [if_pos hlt] at hshift
    simp only [hshift, if_pos hlt]
  · rw [if_neg hlt] at hshift
    have hne : r ≠ 0 := by omega
    simp only [hshift, if_neg hlt, dif_neg hne]
    rfl

theorem Locates.bounds {em : ExtendedMantissa} {x : ℚ} (h : Locates em x) :
    (em.mantissa : ℚ) ≤ x ∧ x < em.mantissa + 1 := by
  obtain ⟨m, r, s⟩ := em
  cases r <;> cases s <;> simp [Locates, halves] at h ⊢ <;> constructor <;> linarith

theorem mantissa_ofMantissaAndAccuracy (m : Nat) (acc : Accuracy) :
    (ExtendedMantissa.ofMantissaAndAccuracy m acc).mantissa = m := by
  cases acc with
  | exact => rfl
  | inexact side => cases side <;> rfl

/-- A number is below the power of two that has one bit more than its whole part. -/
theorem lt_two_pow_log2 {m : Nat} {y : ℚ} (h : y < m + 1) : y < 2 ^ ((m.log2 : Int) + 1) := by
  have hm : m + 1 ≤ 2 ^ (m.log2 + 1) := Nat.lt_log2_self
  have hcast : ((m + 1 : ℕ) : ℚ) ≤ (2 ^ (m.log2 + 1) : ℕ) := by exact_mod_cast hm
  push_cast at hcast
  have hpow : (2 : ℚ) ^ ((m.log2 : Int) + 1) = 2 ^ (m.log2 + 1) := by
    exact_mod_cast zpow_natCast (2 : ℚ) (m.log2 + 1)
  linarith

/-- A number is rounded to so many units of a double; above the smallest units it is large enough to
take all bits. -/
structure IsRounded (r : Nat) (t : Int) (x : ℚ) : Prop where
  le_iff : ∀ k, k ≤ r ↔ Rounds k (x / 2 ^ t)
  le : r ≤ 2 ^ 53
  smallest : -1074 ≤ t
  full : t ≠ -1074 → (2 : ℚ) ^ 52 * 2 ^ t ≤ x

theorem IsRounded.le_of_full {r : Nat} {t : Int} {x : ℚ} (h : IsRounded r t x)
    (ht : t ≠ -1074) : 2 ^ 52 ≤ r := by
  have hunits : (2 : ℚ) ^ 52 ≤ x / 2 ^ t := (le_div_iff₀ (by positivity)).mpr (h.full ht)
  refine (h.le_iff _).mpr (.inl ?_)
  push_cast
  linarith

/-- A number whose whole part has so many bits is no smaller than the first number with as many. -/
theorem Locates.full {m : Nat} {e t : Int} {acc : Accuracy} {y : ℚ}
    (hy : Locates (.ofMantissaAndAccuracy m acc) y) (ht : t = max (m.log2 + e - 52) (-1074))
    (he : e ≤ t) (hne : t ≠ -1074) : (2 : ℚ) ^ 52 * 2 ^ t ≤ y * 2 ^ e := by
  obtain ⟨hlow, -⟩ := hy.bounds
  rw [mantissa_ofMantissaAndAccuracy] at hlow
  have hlog : t + 52 = m.log2 + e := by omega
  have hm : m ≠ 0 := by
    rintro rfl
    simp at hlog
    omega
  have hcast : ((2 ^ m.log2 : ℕ) : ℚ) ≤ m := by exact_mod_cast Nat.log2_self_le hm
  calc (2 : ℚ) ^ 52 * 2 ^ t = 2 ^ (t + 52) := by
        rw [zpow_add₀ (by norm_num), mul_comm]
        norm_cast
    _ = ((2 ^ m.log2 : ℕ) : ℚ) * 2 ^ e := by
        rw [hlog, zpow_add₀ (by norm_num)]
        norm_cast
    _ ≤ y * 2 ^ e := by gcongr; exact hcast.trans hlow

/-- A number of units of any size is kept as a number of units of the size for doubles, to which it
is rounded. -/
theorem exists_carried {m : Nat} {e : Int} {acc : Accuracy} {y : ℚ}
    (hy : Locates (.ofMantissaAndAccuracy m acc) y)
    (he : e ≤ Format.binary64.targetExponent (totalExponent m e)) :
    ∃ r t, roundWithAccuracy Format.binary64 .positive m e acc = carried r t ∧
      IsRounded r t (y * 2 ^ e) := by
  obtain ⟨t, ht⟩ : ∃ t, t = Format.binary64.targetExponent (totalExponent m e) := ⟨_, rfl⟩
  have hmax := ht.trans (targetExponent_eq m e)
  have hle : e ≤ t := ht ▸ he
  obtain ⟨-, hhigh⟩ := hy.bounds
  rw [mantissa_ofMantissaAndAccuracy] at hhigh
  have hshift : y * 2 ^ e / 2 ^ t = y / 2 ^ (t - e).toNat := by
    have hpow : (2 : ℚ) ^ t = 2 ^ e * 2 ^ (t - e).toNat := by
      rw [← zpow_natCast, ← zpow_add₀ (by norm_num)]
      congr 1
      omega
    rw [hpow]
    field_simp
  have hround (k : Nat) : k ≤ (shiftToTargetExponent Format.binary64 m e acc).1.roundedMantissa ↔
      Rounds k (y * 2 ^ e / 2 ^ t) := by
    rw [hshift, ht]
    exact (hy.shiftRight _).le_roundedMantissa_iff k
  have hbound : (shiftToTargetExponent Format.binary64 m e acc).1.roundedMantissa ≤ 2 ^ 53 := by
    have hz : y * 2 ^ e / 2 ^ t < 2 ^ 53 := by
      rw [div_lt_iff₀ (by positivity)]
      calc y * 2 ^ e < 2 ^ ((m.log2 : Int) + 1) * 2 ^ e := by
            exact mul_lt_mul_of_pos_right (lt_two_pow_log2 hhigh) (by positivity)
        _ = 2 ^ ((m.log2 : Int) + 1 + e) := (zpow_add₀ (by norm_num) _ _).symm
        _ ≤ 2 ^ (53 + t) := zpow_le_zpow_right₀ (by norm_num) (by omega)
        _ = 2 ^ 53 * 2 ^ t := by rw [zpow_add₀ (by norm_num), zpow_ofNat]
    by_contra hmore
    have hup := (hround (2 ^ 53 + 1)).mp (by omega)
    rcases hup with hup | ⟨hup, -⟩ <;> push_cast at hup <;> linarith
  refine ⟨_, t, (roundWithAccuracy_eq rfl hbound he).trans (by rw [← ht]), ?_⟩
  exact ⟨hround, hbound, hmax ▸ le_max_right _ _, hy.full hmax hle⟩

/-! ## Storing a double -/

/-- An unpacked number is no less than zero, and none at all is not what it is. -/
def IsMagnitude : UnpackedFloat → Prop
  | .infinity .positive | .finite .positive .. | .zero _ => True
  | _ => False

/-- An unpacked number is a bound or more. -/
def AtLeast (bound : ℚ) : UnpackedFloat → Prop
  | .infinity .positive => True
  | .finite .positive m e _ => bound ≤ m * 2 ^ e
  | .zero _ => bound ≤ 0
  | _ => False

theorem atLeast_carried {bound : ℚ} {r : Nat} {t : Int} (hr : r ≤ 2 ^ 53) :
    AtLeast bound (carried r t) ↔ bound ≤ r * 2 ^ t := by
  unfold carried
  split
  case isTrue hzero => simp [AtLeast, hzero]
  case isFalse hzero =>
    split
    case isTrue => rfl
    case isFalse hge =>
      obtain rfl : r = 2 ^ 53 := by omega
      have hpow : ((2 ^ 52 : ℕ) : ℚ) * 2 ^ (t + 1) = ((2 ^ 53 : ℕ) : ℚ) * 2 ^ t := by
        rw [zpow_add₀ (by norm_num)]
        push_cast
        ring
      rw [AtLeast, hpow]

theorem toNat_ofNat_exponent {b : Nat} (h : b < 2 ^ 11) : (BitVec.ofNat 11 b).toNat = b := by
  rw [BitVec.toNat_ofNat, Nat.mod_eq_of_lt h]

/-- A number of units that takes all bits of a double is stored without its first bit. -/
theorem unpack_pack_normal {m : Nat} {e : Int} (hpos : 0 < m) (hlow : 2 ^ 52 ≤ m)
    (hhigh : m < 2 ^ 53) (hmin : -1074 ≤ e) (hmax : e ≤ 971) :
    (Float.Model.pack (.finite .positive m e hpos)).unpack = .finite .positive m e hpos := by
  have hlog : m.log2 + 1 = Format.binary64.mantissaBits :=
    congrArg (· + 1) ((Nat.log2_eq_iff hpos.ne').mpr ⟨hlow, hhigh⟩)
  obtain ⟨b, hb⟩ : ∃ b : Nat, b = (e + 1075).toNat := ⟨_, rfl⟩
  have hexponent : (e + Format.binary64.exponentBias +
      Format.binary64.mantissaBitsWithoutImplicit).toNat = b := by
    simp only [Format.exponentBias]
    norm_num
    omega
  have hfits : ¬ 2 ^ Format.binary64.exponentBits ≤ b + 1 := by
    norm_num
    omega
  have hvalue := toNat_ofNat_exponent (b := b) (by omega)
  have hinfinite : BitVec.ofNat 11 b ≠ -1#11 := fun h => by
    have := congrArg BitVec.toNat h
    rw [hvalue] at this
    simp at this
    omega
  have hsubnormal : BitVec.ofNat 11 b ≠ 0#11 := fun h => by
    have := congrArg BitVec.toNat h
    rw [hvalue] at this
    simp at this
    omega
  have hmantissa : (1#1 ++ BitVec.ofNat 52 m).toNat = m := by
    rw [BitVec.toNat_append, ← Nat.shiftLeft_add_eq_or_of_lt (BitVec.isLt _), BitVec.toNat_ofNat]
    simp only [BitVec.toNat_ofNat, Nat.shiftLeft_eq]
    omega
  simp only [Float.Model.unpack, Float.Model.pack, UnpackedFloat.pack, hexponent, if_neg hfits,
    if_pos hlog, UnpackedFloat.unpack, unpackMantissa_packComponents, unpackExponent_packComponents,
    unpackSign_packComponents, if_neg hinfinite, if_neg hsubnormal, hvalue, hmantissa]
  congr 1
  simp only [Format.exponentBias]
  omega

/-- A number of units that takes fewer bits is stored as it is, if the units are the smallest. -/
theorem unpack_pack_subnormal {m : Nat} (hpos : 0 < m) (hm : m < 2 ^ 52) :
    (Float.Model.pack (.finite .positive m (-1074) hpos)).unpack =
      .finite .positive m (-1074) hpos := by
  have hlog : ¬ m.log2 + 1 = Format.binary64.mantissaBits := by
    have := (Nat.log2_lt hpos.ne').mpr hm
    simp only [Format.mantissaBits]
    omega
  have hmantissa : (BitVec.ofNat 52 m).toNat = m := by
    rw [BitVec.toNat_ofNat, Nat.mod_eq_of_lt hm]
  have hzero : BitVec.ofNat 52 m ≠ 0#52 := fun h => by
    have := congrArg BitVec.toNat h
    rw [hmantissa] at this
    simp at this
    omega
  have hexponent : ((-1074 : Int) + Format.binary64.exponentBias +
      Format.binary64.mantissaBitsWithoutImplicit).toNat = 1 := by decide
  have hfits : ¬ 2 ^ Format.binary64.exponentBits ≤ 1 + 1 := by decide
  have hinfinite : (0#11 : BitVec 11) ≠ -1#11 := by decide
  simp only [Float.Model.unpack, Float.Model.pack, UnpackedFloat.pack, hexponent, if_neg hfits,
    if_neg hlog, UnpackedFloat.unpack, unpackMantissa_packComponents, unpackExponent_packComponents,
    unpackSign_packComponents, if_neg hinfinite, if_true, dif_neg hzero, hmantissa]
  rfl

/-- A double whose exponent does not fit is infinite. -/
theorem unpack_pack_of_overflow {m : Nat} {e : Int} (hpos : 0 < m) (he : 972 ≤ e) :
    (Float.Model.pack (.finite .positive m e hpos)).unpack = .infinity .positive := by
  have hover : 2 ^ Format.binary64.exponentBits ≤
      (e + Format.binary64.exponentBias +
        Format.binary64.mantissaBitsWithoutImplicit).toNat + 1 := by
    simp only [Format.exponentBias]
    norm_num
    omega
  simp only [Float.Model.unpack, Float.Model.pack, UnpackedFloat.pack, if_pos hover]
  rfl

/-- What is stored reaches the same bounds, up to the first number that is too large. -/
theorem atLeast_unpack_pack {bound : ℚ} {m : Nat} {e : Int} (hpos : 0 < m) (hm : m < 2 ^ 53)
    (hmin : -1074 ≤ e) (hnormal : 2 ^ 52 ≤ m ∨ e = -1074) (hbound : bound ≤ 2 ^ (1024 : Int)) :
    IsMagnitude (Float.Model.pack (.finite .positive m e hpos)).unpack ∧
      (AtLeast bound (Float.Model.pack (.finite .positive m e hpos)).unpack ↔
        bound ≤ m * 2 ^ e) := by
  by_cases hmax : e ≤ 971
  · by_cases hlow : 2 ^ 52 ≤ m
    · rw [unpack_pack_normal hpos hlow hm hmin hmax]
      exact ⟨trivial, Iff.rfl⟩
    · obtain rfl := hnormal.resolve_left hlow
      rw [unpack_pack_subnormal hpos (not_le.mp hlow)]
      exact ⟨trivial, Iff.rfl⟩
  · have hlow : 2 ^ 52 ≤ m := hnormal.resolve_right (by omega)
    rw [unpack_pack_of_overflow hpos (by omega)]
    refine ⟨trivial, iff_of_true trivial (hbound.trans ?_)⟩
    have hcast : ((2 ^ 52 : ℕ) : ℚ) ≤ m := by exact_mod_cast hlow
    calc (2 : ℚ) ^ (1024 : Int) = ((2 ^ 52 : ℕ) : ℚ) * 2 ^ (972 : Int) := by
          rw [show (1024 : Int) = 52 + 972 by norm_num, zpow_add₀ (by norm_num)]
          congr 1
      _ ≤ m * 2 ^ e := mul_le_mul hcast (zpow_le_zpow_right₀ (by norm_num) (by omega))
          (by positivity) (by positivity)

theorem IsRounded.atLeast_iff {bound : ℚ} {r : Nat} {t : Int} {x : ℚ} (h : IsRounded r t x)
    (hbound : bound ≤ 2 ^ (1024 : Int)) :
    IsMagnitude (Float.Model.pack (carried r t)).unpack ∧
      (AtLeast bound (Float.Model.pack (carried r t)).unpack ↔ bound ≤ r * 2 ^ t) := by
  have ht := h.smallest
  have hnormal : 2 ^ 52 ≤ r ∨ t = -1074 := by
    by_cases hsmallest : t = -1074
    · exact .inr hsmallest
    · exact .inl (h.le_of_full hsmallest)
  rw [← atLeast_carried h.le]
  unfold carried
  split
  case isTrue => exact ⟨trivial, Iff.rfl⟩
  case isFalse hzero =>
    split
    case isTrue hlt => exact atLeast_unpack_pack _ hlt ht hnormal hbound
    case isFalse => exact atLeast_unpack_pack _ (by norm_num) (by omega) (.inl le_rfl) hbound

/-! ## Reading a double -/

def isNegative : Sign → Bool
  | .negative => true
  | .positive => false

/-- The form that an unpacked number has. -/
def formOf : UnpackedFloat → Form
  | .infinity sign => .infinite (isNegative sign)
  | .notANumber => .notANumber
  | .zero sign => .finite (isNegative sign) 0 (-1074)
  | .finite sign m e _ => .finite (isNegative sign) m e

theorem isNegative_ofBitVec (b : BitVec 1) :
    isNegative (Sign.ofBitVec b) = decide (b.toNat = 1) := by
  have hbit : b = 0#1 ∨ b = 1#1 := by
    have := b.isLt
    rw [← BitVec.toNat_inj, ← BitVec.toNat_inj]
    simp
    omega
  obtain rfl | rfl := hbit <;> rfl

theorem toNat_unpackMantissa (bits : UInt64) :
    (@unpackMantissa Format.binary64 bits.toBitVec).toNat = bits.toNat % 2 ^ 52 := by
  simp [unpackMantissa]

theorem toNat_unpackExponent (bits : UInt64) :
    (@unpackExponent Format.binary64 bits.toBitVec).toNat = bits.toNat / 2 ^ 52 % 2048 := by
  simp [unpackExponent, Nat.shiftRight_eq_div_pow]

/-- The form of a double is that of its unpacked number. -/
theorem form_eq (f : Float) : form f = formOf f.toModel.unpack := by
  have hunpack : f.toModel.unpack = UnpackedFloat.unpack Format.binary64 f.toBits.toBitVec := rfl
  rw [hunpack, form]
  generalize f.toBits = bits
  obtain ⟨b, hb⟩ : ∃ b : BitVec Format.binary64.numBits, b = bits.toBitVec := ⟨_, rfl⟩
  obtain ⟨m, hm⟩ : ∃ m : BitVec 52, m = unpackMantissa b := ⟨_, rfl⟩
  obtain ⟨e, he⟩ : ∃ e : BitVec 11, e = unpackExponent b := ⟨_, rfl⟩
  obtain ⟨s, hs⟩ : ∃ s : BitVec 1, s = unpackSign b := ⟨_, rfl⟩
  have hmantissa : bits.toNat % (1 <<< 52) = m.toNat := by
    rw [hm, hb, toNat_unpackMantissa]
    rfl
  have hexponent : bits.toNat >>> 52 % 0x800 = e.toNat := by
    rw [he, hb, toNat_unpackExponent, Nat.shiftRight_eq_div_pow]
  have hsign : decide (bits.toNat >>> 63 = 1) = isNegative (Sign.ofBitVec s) := by
    have hword := bits.toNat_lt
    have hbit : s.toNat = bits.toNat >>> 63 := by
      rw [hs, hb]
      simp [unpackSign, Nat.shiftRight_eq_div_pow]
      omega
    rw [isNegative_ofBitVec, hbit]
  have himplicit : (1#1 ++ m).toNat = 1 <<< 52 + m.toNat := by
    rw [BitVec.toNat_append, ← Nat.shiftLeft_add_eq_or_of_lt m.isLt]
    rfl
  have hfull : e = -1#11 ↔ e.toNat = 2047 := by
    rw [← BitVec.toNat_inj]
    rfl
  have hnone : e = 0#11 ↔ e.toNat = 0 := by
    rw [← BitVec.toNat_inj]
    rfl
  have hempty : m = 0#52 ↔ m.toNat = 0 := by
    rw [← BitVec.toNat_inj]
    rfl
  have hbias : (Format.binary64.exponentBias : Int) + (52 : Nat) = 1075 := by decide
  simp only [UnpackedFloat.unpack, ← hb, hexponent, hmantissa, hsign, ← hm, ← he, ← hs, hfull,
    hnone, hempty, himplicit, hbias]
  split
  case isTrue => split <;> rfl
  case isFalse =>
    split
    case isFalse => rfl
    case isTrue hzero =>
      rw [hzero]
      split
      case isTrue hnone => rw [hnone]; rfl
      case isFalse => rfl

end Linkage.Binary64

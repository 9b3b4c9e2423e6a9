import Mathlib
import Linkage.Proofs.Data.Rounding

/-! Doubles that are no less than zero are in the order of their bit patterns. -/
namespace Linkage.Binary64
open Float.Model Float.Model.UnpackedFloat

/-- The pattern of infinity. -/
def top : Nat := 2047 * 2 ^ 52

/-- An unpacked number that has no sign, and the pattern that it is stored as. Above the mantissa
comes the exponent, which the first bit of a full mantissa raises by one. -/
inductive Stored : UnpackedFloat → Nat → Prop
  | zero : Stored (.zero .positive) 0
  | finite {m : Nat} {e : Int} {bits : Nat} (hpos : 0 < m) (hm : m < 2 ^ 53) (hmin : -1074 ≤ e)
      (hnormal : 2 ^ 52 ≤ m ∨ e = -1074) (hmax : e ≤ 971)
      (hbits : (bits : Int) = (e + 1074) * 2 ^ 52 + m) : Stored (.finite .positive m e hpos) bits
  | infinity : Stored (.infinity .positive) top

/-- A greater exponent has a greater pattern, and of the same exponent a greater mantissa has. -/
theorem Stored.compare_eq {x y : UnpackedFloat} {a b : Nat} (hx : Stored x a) (hy : Stored y b) :
    x.compare y = some (compare a b) := by
  cases hx with
  | zero =>
    cases hy with
    | zero => rfl
    | finite hpos =>
      rw [Nat.compare_eq_lt.mpr (by omega)]
      rfl
    | infinity => rfl
  | @finite m e _ hpos hm hmin hnormal hmax hbits =>
    cases hy with
    | zero =>
      rw [Nat.compare_eq_gt.mpr (by omega)]
      rfl
    | @finite m' e' _ hpos' hm' hmin' hnormal' hmax' hbits' =>
      simp only [UnpackedFloat.compare, Option.some.injEq]
      obtain he | rfl | he := lt_trichotomy e e'
      · have hlt : a < b := by omega
        rw [compare_lt_iff_lt.mpr he, Nat.compare_eq_lt.mpr hlt]
        rfl
      · obtain ⟨k, rfl⟩ : ∃ k : Nat, a = k + m := ⟨a - m, by omega⟩
        obtain rfl : b = k + m' := by omega
        rw [compare_eq_iff_eq.mpr rfl, ← cmp_eq_compare, ← cmp_eq_compare, cmp_add_left]
        rfl
      · have hlt : b < a := by omega
        rw [compare_gt_iff_gt.mpr he, Nat.compare_eq_gt.mpr hlt]
        rfl
    | infinity =>
      rw [Nat.compare_eq_lt.mpr (by unfold top; omega)]
      rfl
  | infinity =>
    cases hy with
    | zero => rfl
    | finite hpos hm hmin hnormal hmax hbits =>
      rw [Nat.compare_eq_gt.mpr (by unfold top; omega)]
      rfl
    | infinity => rfl

theorem eq_infinity_of_formOf {x : UnpackedFloat} (h : formOf x = .infinite false) :
    x = .infinity .positive := by
  cases x with
  | infinity sign => cases sign <;> simp_all [formOf, isNegative]
  | _ => simp [formOf] at h

theorem eq_finite_of_formOf {x : UnpackedFloat} {m : Nat} {e : Int}
    (h : formOf x = .finite false m e) :
    (m = 0 ∧ x = .zero .positive) ∨ ∃ hpos, x = .finite .positive m e hpos := by
  cases x with
  | zero sign => cases sign <;> simp_all [formOf, isNegative]
  | finite sign m' e' hpos =>
    cases sign <;> simp only [formOf, isNegative, Form.finite.injEq] at h
    · simp at h
    · obtain ⟨-, rfl, rfl⟩ := h
      exact .inr ⟨hpos, rfl⟩
  | _ => simp [formOf] at h

/-- A pattern up to that of infinity stores a number that is no less than zero. -/
theorem stored_unpack {f : Float} (h : f.toBits.toNat ≤ top) :
    Stored f.toModel.unpack f.toBits.toNat := by
  have hform := form_eq f
  unfold form at hform
  unfold top at h
  generalize f.toBits.toNat = bits at *
  generalize f.toModel.unpack = x at *
  have hsign : bits >>> 63 = 0 := by omega
  simp only [hsign, Nat.zero_ne_one, decide_false, Nat.shiftRight_eq_div_pow, Nat.shiftLeft_eq,
    one_mul] at hform
  split at hform
  case isTrue hexponent =>
    obtain rfl : bits = top := by unfold top; omega
    rw [eq_infinity_of_formOf hform.symm]
    exact .infinity
  case isFalse hexponent =>
    split at hform
    case isTrue hzero =>
      obtain ⟨hnone, rfl⟩ | ⟨hpos, rfl⟩ := eq_finite_of_formOf hform.symm
      · obtain rfl : bits = 0 := by omega
        exact .zero
      · exact .finite hpos (by omega) le_rfl (.inr rfl) (by omega) (by omega)
    case isFalse hzero =>
      obtain ⟨hnone, -⟩ | ⟨hpos, rfl⟩ := eq_finite_of_formOf hform.symm
      · omega
      · exact .finite hpos (by omega) (by omega) (.inl (by omega)) (by omega) (by omega)

/-- Beyond the pattern of infinity come only numbers below zero, and what is not a number. -/
theorem le_top_of_compare {f : Float}
    (h : (UnpackedFloat.zero .positive).compare f.toModel.unpack = some .lt) :
    f.toBits.toNat ≤ top := by
  have hform := form_eq f
  unfold form at hform
  have hword := f.toBits.toNat_lt
  generalize f.toBits.toNat = bits at *
  generalize f.toModel.unpack = x at *
  have hpositive : (∃ m e, formOf x = .finite false m e) ∨ formOf x = .infinite false := by
    cases x with
    | infinity sign => cases sign <;> simp_all [UnpackedFloat.compare, formOf, isNegative]
    | finite sign => cases sign <;> simp_all [UnpackedFloat.compare, formOf, isNegative]
    | _ => simp [UnpackedFloat.compare] at h
  unfold top
  simp only [Nat.shiftRight_eq_div_pow, Nat.shiftLeft_eq, one_mul] at hform
  obtain ⟨m, e, hx⟩ | hx := hpositive
  all_goals
    rw [hx] at hform
    split_ifs at hform <;> simp at hform <;> omega

/-! ## The order -/

theorem le_iff_toBits {f g : Float} (hf : f.toBits.toNat ≤ top) (hg : g.toBits.toNat ≤ top) :
    f ≤ g ↔ f.toBits ≤ g.toBits := by
  have hle : f ≤ g ↔ (f.toModel.unpack.compare g.toModel.unpack).any (·.isLE) := decide_eq_true_iff
  rw [hle, (stored_unpack hf).compare_eq (stored_unpack hg), UInt64.le_iff_toNat_le]
  simp [Nat.isLE_compare]

theorem zero_lt_iff_toBits {f : Float} : 0 < f ↔ 0 < f.toBits.toNat ∧ f.toBits.toNat ≤ top := by
  have hlt : 0 < f ↔ (UnpackedFloat.zero .positive).compare f.toModel.unpack = some .lt := by
    have hzero : (0 : Float).toModel.unpack = .zero .positive := rfl
    simp [LT.lt, Float.lt, Float.Model.lt, UnpackedFloat.lt, hzero]
  rw [hlt]
  by_cases hf : f.toBits.toNat ≤ top
  · rw [Stored.zero.compare_eq (stored_unpack hf), Option.some.injEq, Nat.compare_eq_lt,
      and_iff_left hf]
  · exact iff_of_false (fun h => hf (le_top_of_compare h)) (fun h => hf h.2)

/-- A pattern is kept, or it is not a number and is kept as one that is not. -/
theorem toBits_ofBits (bits : UInt64) : (Float.ofBits bits).toBits = bits ∨
    (top < bits.toNat ∧ top < (Float.ofBits bits).toBits.toNat) := by
  obtain ⟨b, hb⟩ : ∃ b : BitVec Format.binary64.numBits, b = bits.toBitVec := ⟨_, rfl⟩
  have hpack : (Float.ofBits bits).toBits.toBitVec =
      if isNaNBits b then packedNaN Format.binary64 else b := by
    rw [← pack_unpack b, hb]
    rfl
  split at hpack
  case isFalse => exact .inl (UInt64.toBitVec_inj.mp (hpack.trans hb))
  case isTrue hnan =>
    obtain ⟨hexponent, hmantissa⟩ : unpackExponent b = -1#11 ∧ unpackMantissa b ≠ 0#52 := by
      simpa [isNaNBits] using hnan
    rw [← BitVec.toNat_inj, hb, toNat_unpackExponent] at hexponent
    rw [← BitVec.toNat_inj.ne, hb, toNat_unpackMantissa] at hmantissa
    have hkept : (Float.ofBits bits).toBits.toNat = 0x7FF8000000000000 :=
      congrArg BitVec.toNat hpack
    have hfull : bits.toNat / 2 ^ 52 % 2048 = 2047 := hexponent
    have hsome : bits.toNat % 2 ^ 52 ≠ 0 := hmantissa
    refine .inr ⟨?_, ?_⟩ <;> unfold top <;> omega

theorem toBits_ofBits_of_le {bits : UInt64} (h : bits.toNat ≤ top) :
    (Float.ofBits bits).toBits = bits := by
  obtain hkept | ⟨hbeyond, -⟩ := toBits_ofBits bits
  · exact hkept
  · omega

theorem ofBits_le_ofBits_iff {a b : UInt64} (ha : a.toNat ≤ top) (hb : b.toNat ≤ top) :
    Float.ofBits a ≤ Float.ofBits b ↔ a ≤ b := by
  rw [le_iff_toBits] <;> simp only [toBits_ofBits_of_le ha, toBits_ofBits_of_le hb, ha, hb]

/-- Of all patterns, those up to that of infinity store what is greater than zero, but for 0. -/
theorem zero_lt_ofBits_iff {bits : UInt64} :
    0 < Float.ofBits bits ↔ 0 < bits.toNat ∧ bits.toNat ≤ top := by
  rw [zero_lt_iff_toBits]
  obtain hkept | ⟨hbeyond, hstays⟩ := toBits_ofBits bits
  · rw [hkept]
  · omega

end Linkage.Binary64

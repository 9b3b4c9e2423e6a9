import Linkage.Data.Decimal
import Mathlib.Tactic

/-! Decimal numbers are read as they are written: zeros in front and one plus sign do not count. -/
namespace Linkage.Decimal

/-- A text of digits, with a plus sign in front or not, stands for a number. -/
def Writes (text : List Char) (n : Nat) : Prop :=
  ∃ digits : List Char, (text = digits ∨ text = '+' :: digits) ∧ digits ≠ [] ∧
    (∀ c ∈ digits, isAsciiDigit c = true) ∧ Nat.ofDigitChars 10 digits 0 = n

theorem Writes.ne_nil {text : List Char} {n : Nat} (h : Writes text n) : text ≠ [] := by
  obtain ⟨digits, rfl | rfl, hne, -⟩ := h
  · exact hne
  · exact List.cons_ne_nil _ _

theorem Writes.mem {text : List Char} {n : Nat} (h : Writes text n) {c : Char} (hc : c ∈ text) :
    isAsciiDigit c = true ∨ c = '+' := by
  obtain ⟨digits, rfl | rfl, -, hdigits, -⟩ := h
  · exact .inl (hdigits c hc)
  · rcases List.mem_cons.mp hc with rfl | hc
    · exact .inr rfl
    · exact .inl (hdigits c hc)

theorem digits?_eq_some_iff {cs : List Char} {n : Nat} :
    digits? cs = some n ↔
      cs ≠ [] ∧ (∀ c ∈ cs, isAsciiDigit c = true) ∧ Nat.ofDigitChars 10 cs 0 = n := by
  have hvalue : cs.foldl (fun n c => n * 10 + (c.toNat - 48)) 0 = Nat.ofDigitChars 10 cs 0 := by
    simp only [Nat.ofDigitChars, Nat.mul_comm]
    rfl
  unfold digits?
  rw [hvalue]
  by_cases hcs : cs ≠ [] ∧ ∀ c ∈ cs, isAsciiDigit c = true
  · have hno : ¬(cs.isEmpty || !cs.all isAsciiDigit) = true := by simpa using hcs
    rw [if_neg hno, Option.some_inj]
    exact ⟨fun h => ⟨hcs.1, hcs.2, h⟩, fun h => h.2.2⟩
  · have hyes : (cs.isEmpty || !cs.all isAsciiDigit) = true := by
      by_contra hno
      exact hcs (by simpa using hno)
    rw [if_pos hyes]
    constructor
    · intro h
      cases h
    · rintro ⟨hne, hdigits, -⟩
      exact absurd ⟨hne, hdigits⟩ hcs

/-- A plus sign is no digit, so that the digits are what follows it. -/
theorem writes_plus_iff {cs : List Char} {n : Nat} :
    Writes ('+' :: cs) n ↔ digits? cs = some n := by
  rw [digits?_eq_some_iff]
  constructor
  · rintro ⟨digits, rfl | hplus, hrest⟩
    · have hdigit : isAsciiDigit '+' = true := hrest.2.1 '+' List.mem_cons_self
      exact absurd hdigit (by decide)
    · obtain rfl : cs = digits := (List.cons.inj hplus).2
      exact hrest
  · intro hdigits
    exact ⟨cs, .inr rfl, hdigits⟩

theorem writes_iff_of_no_plus {cs : List Char} (h : ∀ rest, cs ≠ '+' :: rest) {n : Nat} :
    Writes cs n ↔ digits? cs = some n := by
  rw [digits?_eq_some_iff]
  constructor
  · rintro ⟨digits, rfl | hplus, hrest⟩
    · exact hrest
    · exact absurd hplus (h digits)
  · intro hdigits
    exact ⟨cs, .inl rfl, hdigits⟩

theorem unsigned?_eq_some_iff {limit : Nat} {text : String} {n : Nat} :
    unsigned? limit text = some n ↔ Writes text.toList n ∧ n < limit := by
  have hlimit (found : Option Nat) :
      (found.bind fun m => if m < limit then some m else none) = some n ↔
        found = some n ∧ n < limit := by
    rw [Option.bind_eq_some_iff]
    constructor
    · rintro ⟨m, hfound, hm⟩
      split at hm
      · next hlt => exact ⟨hfound.trans hm, Option.some.inj hm ▸ hlt⟩
      · cases hm
    · rintro ⟨hfound, hlt⟩
      exact ⟨n, hfound, if_pos hlt⟩
  unfold unsigned?
  split
  · next rest heq =>
    rw [heq, writes_plus_iff]
    exact hlimit (digits? rest)
  · next hplus =>
    rw [writes_iff_of_no_plus hplus]
    exact hlimit (digits? text.toList)

/-- The digits of a number write it. -/
theorem writes_toString (n : Nat) : Writes (toString n).toList n := by
  have htext : (toString n).toList = Nat.toDigits 10 n := Nat.toList_repr
  rw [htext]
  refine ⟨Nat.toDigits 10 n, .inl rfl, Nat.toDigits_ne_nil, ?_, Nat.ofDigitChars_ten_toDigits⟩
  intro c hc
  exact Nat.isDigit_of_mem_toDigits (by decide) (by decide) hc

end Linkage.Decimal

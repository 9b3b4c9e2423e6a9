import Linkage.Host.Version
import Linkage.Proofs.Data.Decimal
import Linkage.Proofs.Text.Blank
import Linkage.Proofs.Text.ModifiedUtf8
import Mathlib.Data.List.TakeDrop
import Mathlib.Data.List.TakeWhile
import Mathlib.Tactic

/-! The grammar of host versions. Reading accepts what the grammar derives, with what it derives, and
what was read is written in the grammar again. -/
namespace Linkage.HostVersion

/-! ## The grammar -/

/-- A product code with a dash behind it, or nothing. -/
inductive WritesProduct : List Char → Option String → Prop where
  | none : WritesProduct [] none
  | code {letters : List Char} : letters ≠ [] → (∀ c ∈ letters, isAsciiLetter c = true) →
      WritesProduct (letters ++ ['-']) (some (String.ofList letters))

/-- Numbers with dots between them. A mark for any number may stand for the last of them. -/
inductive WritesParts : List Char → List VersionPart → Prop where
  | number {text : List Char} {n : Nat} : Decimal.Writes text n → n < VersionPart.anyCode →
      WritesParts text [.number n]
  | star : WritesParts ['*'] [.any]
  | snapshot : WritesParts "SNAPSHOT".toList [.any]
  | dot {text more : List Char} {n : Nat} {parts : List VersionPart} : Decimal.Writes text n →
      n < VersionPart.anyCode → WritesParts more parts →
      WritesParts (text ++ '.' :: more) (.number n :: parts)

/-- A version is written as its product code and its parts. -/
def Writes (text : List Char) (v : HostVersion) : Prop :=
  ∃ head tail, text = head ++ tail ∧ WritesProduct head v.product ∧ WritesParts tail v.parts

/-- A text is a version but for white space around it. -/
def Spells (text : String) (v : HostVersion) : Prop :=
  ∃ before core after, text.toList = before ++ core ++ after ∧
    (∀ c ∈ before ++ after, isBlank c = true) ∧ Writes core v

/-- What may stand in the parts of a version. -/
def IsPartChar (c : Char) : Prop :=
  isAsciiDigit c = true ∨ isAsciiLetter c = true ∨ c = '+' ∨ c = '*' ∨ c = '.'

theorem toNat_of_isAsciiDigit {c : Char} (h : isAsciiDigit c = true) :
    48 ≤ c.toNat ∧ c.toNat ≤ 57 := by
  simpa [isAsciiDigit, Char.le_def, UInt32.le_iff_toNat_le] using h

theorem toNat_of_isAsciiLetter {c : Char} (h : isAsciiLetter c = true) :
    (97 ≤ c.toNat ∧ c.toNat ≤ 122) ∨ (65 ≤ c.toNat ∧ c.toNat ≤ 90) := by
  simpa [isAsciiLetter, Char.le_def, UInt32.le_iff_toNat_le] using h

theorem isBlank_eq_false {c : Char} (hlow : 32 < c.toNat) (hhigh : c.toNat < 128) :
    isBlank c = false := by
  unfold isBlank
  grind

theorem IsPartChar.isBlank {c : Char} (h : IsPartChar c) : isBlank c = false := by
  rcases h with hdigit | hletter | rfl | rfl | rfl
  · have hrange := toNat_of_isAsciiDigit hdigit
    exact isBlank_eq_false (by omega) (by omega)
  · have hrange := toNat_of_isAsciiLetter hletter
    exact isBlank_eq_false (by omega) (by omega)
  all_goals decide

theorem IsPartChar.ne_dash {c : Char} (h : IsPartChar c) : c ≠ '-' := by
  rintro rfl
  revert h
  unfold IsPartChar
  decide

theorem WritesParts.isPartChar {text : List Char} {parts : List VersionPart}
    (h : WritesParts text parts) : ∀ c ∈ text, IsPartChar c := by
  have hnumber {text : List Char} {n : Nat} (h : Decimal.Writes text n) :
      ∀ c ∈ text, IsPartChar c := by
    intro c hc
    rcases h.mem hc with hdigit | rfl
    · exact .inl hdigit
    · exact .inr (.inr (.inl rfl))
  induction h with
  | number htext => exact hnumber htext
  | star =>
    intro c hc
    exact .inr (.inr (.inr (.inl (List.mem_singleton.mp hc))))
  | snapshot =>
    have hletters : "SNAPSHOT".toList.all isAsciiLetter = true := by decide
    intro c hc
    exact .inr (.inl (List.all_eq_true.mp hletters c hc))
  | dot htext _ _ ih =>
    intro c hc
    rcases List.mem_append.mp hc with hc | hc
    · exact hnumber htext c hc
    · rcases List.mem_cons.mp hc with rfl | hc
      · exact .inr (.inr (.inr (.inr rfl)))
      · exact ih c hc

theorem WritesParts.ne_nil {text : List Char} {parts : List VersionPart}
    (h : WritesParts text parts) : text ≠ [] := by
  cases h with
  | number htext => exact htext.ne_nil
  | star => exact List.cons_ne_nil _ _
  | snapshot => decide
  | dot => simp

theorem WritesProduct.isLetter {text : List Char} {product : Option String}
    (h : WritesProduct text product) : ∀ c ∈ text, isAsciiLetter c = true ∨ c = '-' := by
  intro c hc
  cases h with
  | none => cases hc
  | code _ hletters =>
    rcases List.mem_append.mp hc with hc | hc
    · exact .inl (hletters c hc)
    · exact .inr (List.mem_singleton.mp hc)

theorem Writes.ne_nil {text : List Char} {v : HostVersion} (h : Writes text v) : text ≠ [] := by
  obtain ⟨head, tail, rfl, -, htail⟩ := h
  simp [htail.ne_nil]

theorem Writes.isBlank {text : List Char} {v : HostVersion} (h : Writes text v) :
    ∀ c ∈ text, isBlank c = false := by
  obtain ⟨head, tail, rfl, hhead, htail⟩ := h
  intro c hc
  rcases List.mem_append.mp hc with hc | hc
  · rcases hhead.isLetter c hc with hletter | rfl
    · exact IsPartChar.isBlank (.inr (.inl hletter))
    · decide
  · exact (htail.isPartChar c hc).isBlank

/-! ## Reading -/

theorem number_eq_ok_iff {text : List Char} {part : VersionPart} :
    number text = .ok part ↔
      ∃ n, part = .number n ∧ Decimal.Writes text n ∧ n < VersionPart.anyCode := by
  have hread (n : Nat) : Decimal.unsigned? UInt32.size (String.ofList text) = some n ↔
      Decimal.Writes text n ∧ n < UInt32.size := by
    rw [Decimal.unsigned?_eq_some_iff, String.toList_ofList]
  have hsize : UInt32.size = VersionPart.anyCode + 1 := rfl
  unfold number
  constructor
  · intro h
    split at h
    · cases h
    · next n hn =>
      obtain ⟨htext, hlt⟩ := (hread n).mp hn
      split at h
      · cases h
      · next hne => exact ⟨n, (Except.ok.inj h).symm, htext, by omega⟩
  · rintro ⟨n, rfl, htext, hlt⟩
    rw [(hread n).mpr ⟨htext, by omega⟩]
    exact if_neg (by omega)

theorem isWildcard_of_writes {text : List Char} {n : Nat} (h : Decimal.Writes text n) :
    isWildcard text = false := by
  rw [isWildcard, Bool.or_eq_false_iff, decide_eq_false_iff_not, decide_eq_false_iff_not]
  constructor
  · rintro rfl
    exact absurd (h.mem (List.mem_singleton_self '*')) (by decide)
  · rintro rfl
    have hletter : 'S' ∈ "SNAPSHOT".toList := by decide
    exact absurd (h.mem hletter) (by decide)

theorem writesParts_of_isWildcard {text : List Char} (h : isWildcard text = true) :
    WritesParts text [.any] := by
  rw [isWildcard, Bool.or_eq_true, decide_eq_true_eq, decide_eq_true_eq] at h
  rcases h with rfl | rfl
  · exact .star
  · exact .snapshot

/-- Texts are read one by one, and only the last of them may stand for any number. -/
theorem readParts_cons_eq_ok_iff {text : List Char} {texts : List (List Char)}
    {parts : List VersionPart} : readParts (text :: texts) = .ok parts ↔
      (isWildcard text = true ∧ texts = [] ∧ parts = [.any])
        ∨ (isWildcard text = false ∧ ∃ first rest, number text = .ok first ∧
          readParts texts = .ok rest ∧ parts = first :: rest) := by
  rw [readParts]
  cases hany : isWildcard text with
  | true =>
    rw [if_pos rfl]
    cases texts with
    | nil => simp [eq_comm]
    | cons next texts => simp
  | false =>
    rw [if_neg Bool.false_ne_true, bind_eq_ok]
    constructor
    · rintro ⟨first, hfirst, hrest⟩
      obtain ⟨rest, hrest, hparts⟩ := bind_eq_ok.mp hrest
      exact .inr ⟨rfl, first, rest, hfirst, hrest, (Except.ok.inj hparts).symm⟩
    · rintro (⟨hyes, -⟩ | ⟨-, first, rest, hfirst, hrest, rfl⟩)
      · cases hyes
      · exact ⟨first, hfirst, bind_eq_ok.mpr ⟨rest, hrest, rfl⟩⟩

theorem writesParts_of_readParts {texts : List (List Char)} {parts : List VersionPart}
    (hne : texts ≠ []) (h : readParts texts = .ok parts) :
    WritesParts (['.'].intercalate texts) parts := by
  induction texts generalizing parts with
  | nil => exact absurd rfl hne
  | cons text texts ih =>
    rcases readParts_cons_eq_ok_iff.mp h with
      ⟨hany, rfl, rfl⟩ | ⟨-, first, rest, hfirst, hrest, rfl⟩
    · rw [List.intercalate_singleton]
      exact writesParts_of_isWildcard hany
    · obtain ⟨n, rfl, htext, hlt⟩ := number_eq_ok_iff.mp hfirst
      cases texts with
      | nil =>
        obtain rfl : [] = rest := Except.ok.inj hrest
        rw [List.intercalate_singleton]
        exact .number htext hlt
      | cons next texts =>
        rw [List.intercalate_cons_cons, List.append_assoc]
        exact .dot htext hlt (ih (List.cons_ne_nil _ _) hrest)

theorem splitOn_writes {text : List Char} {n : Nat} (h : Decimal.Writes text n) :
    text.splitOn '.' = [text] := by
  have hdot : '.' ∉ text := fun hc => absurd (h.mem hc) (by decide)
  exact List.splitOn_eq_singleton hdot

theorem splitOn_dot {text : List Char} {n : Nat} (h : Decimal.Writes text n) (more : List Char) :
    (text ++ '.' :: more).splitOn '.' = text :: more.splitOn '.' := by
  have hsingle : text.splitOn '.' = [text] := splitOn_writes h
  rw [List.splitOn_eq_splitOnP] at hsingle
  rw [List.splitOn_eq_splitOnP, List.splitOnP_append_cons _ _ (by decide), hsingle]
  rfl

theorem readParts_number {text : List Char} {n : Nat} {texts : List (List Char)}
    {parts : List VersionPart} (htext : Decimal.Writes text n) (hlt : n < VersionPart.anyCode)
    (hrest : readParts texts = .ok parts) : readParts (text :: texts) = .ok (.number n :: parts) := by
  have hfirst : number text = .ok (.number n) := number_eq_ok_iff.mpr ⟨n, rfl, htext, hlt⟩
  refine readParts_cons_eq_ok_iff.mpr (.inr ⟨isWildcard_of_writes htext, ?_⟩)
  exact ⟨.number n, parts, hfirst, hrest, rfl⟩

theorem readParts_of_writesParts {text : List Char} {parts : List VersionPart}
    (h : WritesParts text parts) : readParts (text.splitOn '.') = .ok parts := by
  induction h with
  | number htext hlt =>
    rw [splitOn_writes htext]
    exact readParts_number htext hlt rfl
  | star => decide
  | snapshot => decide
  | dot htext hlt _ ih =>
    rw [splitOn_dot htext]
    exact readParts_number htext hlt ih

theorem writesProduct_of_splitProduct {text rest : List Char} {product : Option String}
    (h : splitProduct text = .ok (product, rest)) :
    ∃ head, text = head ++ rest ∧ WritesProduct head product := by
  unfold splitProduct at h
  rw [List.span_eq_takeWhile_dropWhile] at h
  split at h
  · next letters dash numbers heq =>
    obtain ⟨hletters, hrest⟩ := Prod.mk.inj heq
    have htext : text = letters ++ dash :: numbers := by
      rw [← hletters, ← hrest, List.takeWhile_append_dropWhile]
    have hdash : dash = '-' := by
      have hhead := List.head?_dropWhile_not (fun c : Char => decide (c ≠ '-')) text
      rw [hrest] at hhead
      simpa using hhead
    split at h
    · next hcode =>
      obtain ⟨rfl, rfl⟩ := Prod.mk.inj (Except.ok.inj h)
      rw [Bool.and_eq_true, List.all_eq_true] at hcode
      have hne : letters ≠ [] := by simpa using hcode.1
      refine ⟨letters ++ ['-'], ?_, .code hne hcode.2⟩
      rw [htext, hdash, List.append_assoc]
      rfl
    · cases h
  · obtain ⟨rfl, rfl⟩ := Prod.mk.inj (Except.ok.inj h)
    exact ⟨[], rfl, .none⟩

theorem splitProduct_of_writesProduct {head rest : List Char} {product : Option String}
    (h : WritesProduct head product) (hrest : ∀ c ∈ rest, c ≠ '-') :
    splitProduct (head ++ rest) = .ok (product, rest) := by
  have hnodash {cs : List Char} (hcs : ∀ c ∈ cs, c ≠ '-') :
      ∀ c ∈ cs, decide (c ≠ '-') = true := fun c hc => decide_eq_true (hcs c hc)
  unfold splitProduct
  rw [List.span_eq_takeWhile_dropWhile]
  cases h with
  | none =>
    rw [List.nil_append, List.dropWhile_eq_nil_iff.mpr (hnodash hrest)]
  | @code letters hne hletters =>
    have hdash : ∀ c ∈ letters, c ≠ '-' := by
      rintro c hc rfl
      exact absurd (hletters '-' hc) (by decide)
    have htake : (letters ++ ['-'] ++ rest).takeWhile (fun c => decide (c ≠ '-')) = letters := by
      rw [List.append_assoc, List.takeWhile_append_of_pos (hnodash hdash)]
      exact List.append_nil letters
    have hdrop : (letters ++ ['-'] ++ rest).dropWhile (fun c => decide (c ≠ '-')) = '-' :: rest := by
      rw [List.append_assoc, List.dropWhile_append_of_pos (hnodash hdash)]
      rfl
    rw [htake, hdrop]
    refine if_pos ?_
    rw [Bool.and_eq_true, List.all_eq_true]
    exact ⟨by simpa using hne, hletters⟩

theorem ofChars_eq_ok {text : List Char} {v : HostVersion} :
    ofChars text = .ok v ↔ text ≠ [] ∧ ∃ numbers, splitProduct text = .ok (v.product, numbers) ∧
      readParts (numbers.splitOn '.') = .ok v.parts := by
  unfold ofChars
  by_cases hempty : text.isEmpty = true
  · rw [if_pos hempty]
    exact iff_of_false nofun fun h => h.1 (List.isEmpty_iff.mp hempty)
  · have hne : text ≠ [] := fun h => hempty (List.isEmpty_iff.mpr h)
    rw [if_neg hempty, bind_eq_ok]
    constructor
    · rintro ⟨⟨product, numbers⟩, hproduct, hrest⟩
      obtain ⟨parts, hparts, hversion⟩ := bind_eq_ok.mp hrest
      obtain rfl : ⟨product, parts⟩ = v := Except.ok.inj hversion
      exact ⟨hne, numbers, hproduct, hparts⟩
    · rintro ⟨-, numbers, hproduct, hparts⟩
      exact ⟨(v.product, numbers), hproduct, bind_eq_ok.mpr ⟨v.parts, hparts, rfl⟩⟩

theorem ofChars_eq_ok_iff {text : List Char} {v : HostVersion} :
    ofChars text = .ok v ↔ Writes text v := by
  rw [ofChars_eq_ok]
  constructor
  · rintro ⟨-, numbers, hproduct, hparts⟩
    obtain ⟨head, htext, hhead⟩ := writesProduct_of_splitProduct hproduct
    have htail := writesParts_of_readParts (List.splitOn_ne_nil '.' numbers) hparts
    rw [List.intercalate_splitOn] at htail
    exact ⟨head, numbers, htext, hhead, htail⟩
  · intro h
    have hne : text ≠ [] := h.ne_nil
    obtain ⟨head, tail, rfl, hhead, htail⟩ := h
    have hdash : ∀ c ∈ tail, c ≠ '-' := fun c hc => (htail.isPartChar c hc).ne_dash
    have hproduct : splitProduct (head ++ tail) = .ok (v.product, tail) :=
      splitProduct_of_writesProduct hhead hdash
    exact ⟨hne, tail, hproduct, readParts_of_writesParts htail⟩

/-- White space may stand around a version; none stands in it. -/
theorem parse_eq_ok_iff {text : String} {v : HostVersion} : parse text = .ok v ↔ Spells text v := by
  have hparse : parse text = .ok v ↔ ofChars (trimEnd (trimStart text.toList)) = .ok v := by
    rw [parse, trim, String.toList_ofList]
    cases ofChars (trimEnd (trimStart text.toList)) with
    | error fault => exact ⟨nofun, nofun⟩
    | ok w => exact ⟨fun h => congrArg _ (Except.ok.inj h), fun h => congrArg _ (Except.ok.inj h)⟩
  rw [hparse, ofChars_eq_ok_iff]
  constructor
  · intro h
    obtain ⟨before, after, htext, hblank⟩ := exists_eq_trim text.toList
    exact ⟨before, _, after, htext, hblank, h⟩
  · rintro ⟨before, core, after, htext, hblank, hcore⟩
    rw [htext, trim_eq_of_blank hblank hcore.isBlank hcore.ne_nil]
    exact hcore

/-! ## Writing -/

theorem writesParts_display {text : List Char} {parts : List VersionPart}
    (h : WritesParts text parts) :
    WritesParts (".".intercalate (parts.map VersionPart.display)).toList parts := by
  induction h with
  | @number text n _ hlt =>
    rw [List.map_singleton, String.intercalate_singleton]
    exact .number (Decimal.writes_toString n) hlt
  | star => exact .star
  | snapshot => exact .star
  | @dot text more n parts _ hlt hmore ih =>
    have hne : parts.map VersionPart.display ≠ [] := by
      cases hmore <;> exact List.cons_ne_nil _ _
    rw [List.map_cons, String.intercalate_cons_of_ne_nil hne, String.toList_append,
      String.toList_append, List.append_assoc]
    exact .dot (Decimal.writes_toString n) hlt ih

/-- What a text was read as is written in the grammar, too, without signs and zeros that do not count
and with a star for any number. -/
theorem writes_display {text : List Char} {v : HostVersion} (h : Writes text v) :
    Writes v.display.toList v := by
  obtain ⟨head, tail, -, hhead, htail⟩ := h
  have hparts := writesParts_display htail
  refine ⟨(v.product.elim "" (· ++ "-")).toList, _, String.toList_append, ?_, hparts⟩
  generalize v.product = product at hhead
  cases hhead with
  | none => exact .none
  | @code letters hne hletters =>
    have hcode : (String.ofList letters ++ "-").toList = letters ++ ['-'] := by
      rw [String.toList_append, String.toList_ofList]
      rfl
    change WritesProduct (String.ofList letters ++ "-").toList (some (String.ofList letters))
    rw [hcode]
    exact .code hne hletters

/-- A text is read as a version if and only if it is, but for white space around it, a product code
and a dash, or neither, and then numbers below the mark for any number with dots between them, of which
the last may be that mark. What is read is what the text stands for, and what it is written as is read
as the same version, its product code included. -/
theorem parse_grammar (text : String) :
    ((∃ v, parse text = .ok v) ↔ ∃ v, Spells text v)
      ∧ ∀ v, parse text = .ok v → Spells text v ∧ parse v.display = .ok v := by
  constructor
  · constructor
    · rintro ⟨v, hread⟩
      exact ⟨v, parse_eq_ok_iff.mp hread⟩
    · rintro ⟨v, hspells⟩
      exact ⟨v, parse_eq_ok_iff.mpr hspells⟩
  · intro v hread
    have hspells : Spells text v := parse_eq_ok_iff.mp hread
    have hdisplay : Spells v.display v := by
      obtain ⟨-, core, -, -, -, hcore⟩ := hspells
      exact ⟨[], v.display.toList, [], by simp, by simp, writes_display hcore⟩
    exact ⟨hspells, parse_eq_ok_iff.mpr hdisplay⟩

/-- Signs, zeros and white space do not count, and the mark for any number has a short form. -/
theorem parse_grammar_snapshot :
    parse "\tIU-+0146.SNAPSHOT " = .ok ⟨some "IU", [.number 146, .any]⟩
      ∧ parse "IU-146.*" = .ok ⟨some "IU", [.number 146, .any]⟩ := by
  have hread : parse "\tIU-+0146.SNAPSHOT " = .ok ⟨some "IU", [.number 146, .any]⟩ := by decide
  have hdisplay : display ⟨some "IU", [.number 146, .any]⟩ = "IU-146.*" := by decide
  have hagain := ((parse_grammar "\tIU-+0146.SNAPSHOT ").2 _ hread).2
  rw [hdisplay] at hagain
  exact ⟨hread, hagain⟩

end Linkage.HostVersion

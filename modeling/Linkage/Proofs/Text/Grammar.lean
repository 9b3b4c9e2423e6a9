import Linkage.Proofs.Text.ModifiedUtf8

/-! The grammar of the string form of class files: which byte strings are text, and which text. -/
namespace Linkage.Utf16

/-- Each high surrogate stands right before a low one, and each low one right behind a high one. -/
inductive WellPaired : List UInt16 → Prop
  | nil : WellPaired []
  | single {u : UInt16} {us : List UInt16} (hu : ¬ (0xD800 ≤ u.toNat ∧ u.toNat < 0xE000))
      (rest : WellPaired us) : WellPaired (u :: us)
  | pair {u v : UInt16} {us : List UInt16} (hu : 0xD800 ≤ u.toNat ∧ u.toNat < 0xDC00)
      (hv : 0xDC00 ≤ v.toNat ∧ v.toNat < 0xE000) (rest : WellPaired us) : WellPaired (u :: v :: us)

/-- The units write the text: one unit for its own character, or a surrogate pair for one beyond
the first plane. -/
inductive Spells : List UInt16 → List Char → Prop
  | nil : Spells [] []
  | single {u : UInt16} {us : List UInt16} {c : Char} {cs : List Char} (hc : c.toNat = u.toNat)
      (rest : Spells us cs) : Spells (u :: us) (c :: cs)
  | pair {u v : UInt16} {us : List UInt16} {c : Char} {cs : List Char}
      (hu : 0xD800 ≤ u.toNat ∧ u.toNat < 0xDC00) (hv : 0xDC00 ≤ v.toNat ∧ v.toNat < 0xE000)
      (hc : c.toNat = 0x10000 + (u.toNat - 0xD800) * 0x400 + (v.toNat - 0xDC00))
      (rest : Spells us cs) : Spells (u :: v :: us) (c :: cs)

theorem isSurrogate_eq_false_iff (u : UInt16) :
    (isHighSurrogate u = false ∧ isLowSurrogate u = false)
      ↔ ¬ (0xD800 ≤ u.toNat ∧ u.toNat < 0xE000) := by
  rw [← Bool.not_eq_true, ← Bool.not_eq_true, isHighSurrogate_iff, isLowSurrogate_iff]
  omega

/-- A unit that is a character by itself is no surrogate. -/
theorem not_surrogate_of_char {u : UInt16} {c : Char} (hc : c.toNat = u.toNat) :
    ¬ (0xD800 ≤ u.toNat ∧ u.toNat < 0xE000) := by
  have hv : c.toNat < 0xD800 ∨ 0xDFFF < c.toNat ∧ c.toNat < 0x110000 := c.valid
  omega

theorem decode_of_spells {us : List UInt16} {cs : List Char} (h : Spells us cs) :
    decode us = some cs := by
  induction h with
  | nil => rfl
  | @single u us c cs hc rest ih =>
    obtain ⟨hh, hl⟩ := (isSurrogate_eq_false_iff u).mpr (not_surrogate_of_char hc)
    rw [decode_cons u us hh hl, ih, ← hc, Char.ofNat_toNat]
    rfl
  | @pair u v us c cs hu hv hc rest ih =>
    have hchar : pairChar u v = c := by rw [pairChar, ← hc, Char.ofNat_toNat]
    rw [decode_pair u v us ((isHighSurrogate_iff u).mpr hu) ((isLowSurrogate_iff v).mpr hv), ih,
      hchar]
    rfl

/-- Well paired units always write a text. -/
theorem exists_spells {us : List UInt16} (h : WellPaired us) : ∃ cs, Spells us cs := by
  induction h with
  | nil => exact ⟨[], .nil⟩
  | @single u us hu rest ih =>
    obtain ⟨cs, hcs⟩ := ih
    have hvalid : u.toNat.isValidChar := by
      have hlt := u.toNat_lt
      unfold Nat.isValidChar
      omega
    exact ⟨Char.ofNat u.toNat :: cs, .single (toNat_ofNat hvalid) hcs⟩
  | @pair u v us hu hv rest ih =>
    obtain ⟨cs, hcs⟩ := ih
    have hvalid : (0x10000 + (u.toNat - 0xD800) * 0x400 + (v.toNat - 0xDC00)).isValidChar := by
      unfold Nat.isValidChar
      omega
    exact ⟨pairChar u v :: cs, .pair hu hv (toNat_ofNat hvalid) hcs⟩

theorem Spells.wellPaired {us : List UInt16} {cs : List Char} (h : Spells us cs) :
    WellPaired us := by
  induction h with
  | nil => exact .nil
  | single hc _ ih => exact .single (not_surrogate_of_char hc) ih
  | pair hu hv _ _ ih => exact .pair hu hv ih

/-- Whatever is decoded is well paired. -/
theorem wellPaired_of_decode {us : List UInt16} {cs : List Char} (h : decode us = some cs) :
    WellPaired us := by
  fun_induction decode us generalizing cs with
  | case1 => exact .nil
  | case2 u hu v rest hv ih =>
    obtain ⟨_, hcs, -⟩ := Option.map_eq_some_iff.mp h
    exact .pair ((isHighSurrogate_iff u).mp hu) ((isLowSurrogate_iff v).mp hv) (ih hcs)
  | case3 | case4 | case5 => cases h
  | case6 u rest hh hl ih =>
    obtain ⟨_, hcs, -⟩ := Option.map_eq_some_iff.mp h
    exact .single ((isSurrogate_eq_false_iff u).mp ⟨by simpa using hh, by simpa using hl⟩) (ih hcs)

/-- Decoding finds the one text that the units write. -/
theorem decode_eq_some_iff {us : List UInt16} {cs : List Char} :
    decode us = some cs ↔ Spells us cs := by
  refine ⟨fun h => ?_, decode_of_spells⟩
  obtain ⟨found, hfound⟩ := exists_spells (wellPaired_of_decode h)
  have hsame : found = cs := Option.some.inj ((decode_of_spells hfound).symm.trans h)
  exact hsame ▸ hfound

theorem decode_eq_none_iff {us : List UInt16} : decode us = none ↔ ¬ WellPaired us := by
  constructor
  · intro hnone hpaired
    obtain ⟨cs, hcs⟩ := exists_spells hpaired
    exact nomatch (decode_of_spells hcs).symm.trans hnone
  · intro hnot
    cases h : decode us with
    | none => rfl
    | some cs => exact absurd (wellPaired_of_decode h) hnot

end Linkage.Utf16

namespace Linkage.ModifiedUtf8

/-- A continuation byte. -/
def IsContinuation (b : UInt8) : Prop := 0x80 ≤ b.toNat ∧ b.toNat ≤ 0xBF

/-- A group of one to three bytes, and the unit whose bits it has. -/
inductive Group : List UInt8 → UInt16 → Prop
  | single {a : UInt8} {u : UInt16} (ha : 0x01 ≤ a.toNat ∧ a.toNat ≤ 0x7F)
      (hu : u.toNat = a.toNat) : Group [a] u
  | double {a b : UInt8} {u : UInt16} (ha : 0xC0 ≤ a.toNat ∧ a.toNat ≤ 0xDF)
      (hb : IsContinuation b) (hu : u.toNat = (a.toNat - 0xC0) * 0x40 + (b.toNat - 0x80)) :
      Group [a, b] u
  | triple {a b c : UInt8} {u : UInt16} (ha : 0xE0 ≤ a.toNat ∧ a.toNat ≤ 0xEF)
      (hb : IsContinuation b) (hc : IsContinuation c)
      (hu : u.toNat = (a.toNat - 0xE0) * 0x1000 + (b.toNat - 0x80) * 0x40 + (c.toNat - 0x80)) :
      Group [a, b, c] u

/-- A byte string that splits into groups, and their units. -/
inductive Groups : List UInt8 → List UInt16 → Prop
  | nil : Groups [] []
  | cons {group bytes : List UInt8} {u : UInt16} {us : List UInt16} (first : Group group u)
      (rest : Groups bytes us) : Groups (group ++ bytes) (u :: us)

deriving instance DecidableEq for Lead

/-- What a first byte says, by its number. -/
theorem lead_eq (b : UInt8) : lead b =
    if b.toNat = 0 then .null
    else if b.toNat ≤ 0x7F then .single (UInt16.ofNat b.toNat)
    else if b.toNat ≤ 0xBF then .unexpected
    else if b.toNat ≤ 0xDF then .double (UInt16.ofNat (b.toNat - 0xC0))
    else if b.toNat ≤ 0xEF then .triple (UInt16.ofNat (b.toNat - 0xE0))
    else .unexpected := by
  have h : ∀ n : Fin 256, lead (UInt8.ofNat n) =
      if n.val = 0 then .null
      else if n.val ≤ 0x7F then .single (UInt16.ofNat n)
      else if n.val ≤ 0xBF then .unexpected
      else if n.val ≤ 0xDF then .double (UInt16.ofNat (n - 0xC0))
      else if n.val ≤ 0xEF then .triple (UInt16.ofNat (n - 0xE0))
      else .unexpected := by decide +kernel
  have hb := h ⟨b.toNat, b.toNat_lt⟩
  rwa [UInt8.ofNat_toNat] at hb

private theorem eq_ofNat_iff {u : UInt16} {n : Nat} (hn : n < 256) :
    UInt16.ofNat n = u ↔ u.toNat = n := by
  rw [← UInt16.toNat_inj, UInt16.toNat_ofNat_of_lt' (show _ < 65536 by omega), eq_comm]

private theorem exists_unit {n : Nat} (hn : n < 256) : ∃ u : UInt16, u.toNat = n :=
  ⟨UInt16.ofNat n, (eq_ofNat_iff hn).mp rfl⟩

theorem lead_eq_single_iff {b : UInt8} {u : UInt16} :
    lead b = .single u ↔ (0x01 ≤ b.toNat ∧ b.toNat ≤ 0x7F) ∧ u.toNat = b.toNat := by
  have hb := b.toNat_lt
  rw [lead_eq, ← eq_ofNat_iff hb]
  split_ifs <;> simp <;> omega

theorem lead_eq_double_iff {b : UInt8} {high : UInt16} :
    lead b = .double high
      ↔ (0xC0 ≤ b.toNat ∧ b.toNat ≤ 0xDF) ∧ high.toNat = b.toNat - 0xC0 := by
  have hb := b.toNat_lt
  rw [lead_eq, ← eq_ofNat_iff (by omega)]
  split_ifs <;> simp <;> omega

theorem lead_eq_triple_iff {b : UInt8} {high : UInt16} :
    lead b = .triple high
      ↔ (0xE0 ≤ b.toNat ∧ b.toNat ≤ 0xEF) ∧ high.toNat = b.toNat - 0xE0 := by
  have hb := b.toNat_lt
  rw [lead_eq, ← eq_ofNat_iff (by omega)]
  split_ifs <;> simp <;> omega

theorem continuation_eq_ok_iff {b : UInt8} {offset : Nat} {low : UInt16} :
    continuation b offset = .ok low ↔ IsContinuation b ∧ low.toNat = b.toNat - 0x80 := by
  have h : ∀ n : Fin 256, (UInt8.ofNat n &&& 0xC0 = 0x80 ↔ 0x80 ≤ n.val ∧ n.val ≤ 0xBF)
      ∧ (0x80 ≤ n.val → n.val ≤ 0xBF →
        (UInt8.ofNat n &&& 0x3F).toUInt16.toNat = n.val - 0x80) := by decide +kernel
  obtain ⟨hmark, hbits⟩ := h ⟨b.toNat, b.toNat_lt⟩
  rw [UInt8.ofNat_toNat] at hmark hbits
  unfold continuation
  constructor
  · intro hok
    split_ifs at hok with hset
    cases hok
    have hrange := hmark.mp (eq_of_beq hset)
    exact ⟨hrange, hbits hrange.1 hrange.2⟩
  · rintro ⟨hrange, hlow⟩
    rw [if_pos (beq_iff_eq.mpr (hmark.mpr hrange))]
    exact congrArg Except.ok (UInt16.toNat_inj.mp ((hbits hrange.1 hrange.2).trans hlow.symm))

/-- Six bits, wherever the byte stands. -/
theorem IsContinuation.exists_bits {b : UInt8} (h : IsContinuation b) :
    ∃ low : UInt16, low.toNat = b.toNat - 0x80 ∧ low.toNat < 64
      ∧ ∀ offset, continuation b offset = .ok low := by
  obtain ⟨hmin, hmax⟩ := h
  obtain ⟨low, hlow⟩ : ∃ low : UInt16, low.toNat = b.toNat - 0x80 := exists_unit (by omega)
  exact ⟨low, hlow, by omega, fun _ => continuation_eq_ok_iff.mpr ⟨⟨hmin, hmax⟩, hlow⟩⟩

/-- Four bits, and twice six bits below them, add up. -/
theorem toNat_join_triple (high mid low : UInt16) (hh : high.toNat < 16) (hm : mid.toNat < 64)
    (hl : low.toNat < 64) : (high <<< 12 ||| mid <<< 6 ||| low).toNat
      = high.toNat * 0x1000 + mid.toNat * 0x40 + low.toNat := by
  have hshift : high <<< 12 = high <<< 6 <<< 6 :=
    UInt16.shiftLeft_add (b := 6) (c := 6) (by decide) (by decide) (by decide)
  have hupper := toNat_join high mid (by omega) hm
  rw [hshift, ← UInt16.shiftLeft_or, toNat_join _ _ (by omega) hl, hupper]
  omega

/-- Whatever is decoded splits into groups with these units. -/
theorem groups_of_decodeUnits {offset : Nat} {bytes : List UInt8} {units : List UInt16}
    (h : decodeUnits offset bytes = .ok units) : Groups bytes units := by
  fun_induction decodeUnits offset bytes generalizing units with
  | case1 =>
    cases h
    exact .nil
  | case2 | case3 | case5 | case7 => cases h
  | case8 =>
    obtain ⟨_, -, h⟩ := bind_eq_ok.mp h
    cases h
  | case4 offset b rest u hlead ih =>
    obtain ⟨us, hus, ⟨⟩⟩ := bind_eq_ok.mp h
    obtain ⟨hb, hu⟩ := lead_eq_single_iff.mp hlead
    exact .cons (.single hb hu) (ih hus)
  | case6 offset b high hlead b₂ rest ih =>
    obtain ⟨low, hlow, h⟩ := bind_eq_ok.mp h
    obtain ⟨us, hus, ⟨⟩⟩ := bind_eq_ok.mp h
    obtain ⟨hb, hhigh⟩ := lead_eq_double_iff.mp hlead
    obtain ⟨⟨h₂, h₂'⟩, hbits⟩ := continuation_eq_ok_iff.mp hlow
    have hjoin := toNat_join high low (by omega) (by omega)
    rw [hhigh, hbits] at hjoin
    exact .cons (.double hb ⟨h₂, h₂'⟩ hjoin) (ih hus)
  | case9 offset b high hlead b₂ b₃ rest ih =>
    obtain ⟨mid, hmid, h⟩ := bind_eq_ok.mp h
    obtain ⟨low, hlow, h⟩ := bind_eq_ok.mp h
    obtain ⟨us, hus, ⟨⟩⟩ := bind_eq_ok.mp h
    obtain ⟨hb, hhigh⟩ := lead_eq_triple_iff.mp hlead
    obtain ⟨⟨h₂, h₂'⟩, hbits₂⟩ := continuation_eq_ok_iff.mp hmid
    obtain ⟨⟨h₃, h₃'⟩, hbits₃⟩ := continuation_eq_ok_iff.mp hlow
    have hjoin := toNat_join_triple high mid low (by omega) (by omega) (by omega)
    rw [hhigh, hbits₂, hbits₃] at hjoin
    exact .cons (.triple hb ⟨h₂, h₂'⟩ ⟨h₃, h₃'⟩ hjoin) (ih hus)

/-- A group in front is read as its unit, and then the rest. -/
theorem decodeUnits_group {group : List UInt8} {u : UInt16} (h : Group group u) (offset : Nat)
    (bytes : List UInt8) : decodeUnits offset (group ++ bytes)
      = (u :: ·) <$> decodeUnits (offset + group.length) bytes := by
  cases h with
  | @single a u ha hu =>
    rw [List.singleton_append, decodeUnits.eq_def]
    simp only [lead_eq_single_iff.mpr ⟨ha, hu⟩]
    rfl
  | @double a b u ha hb hu =>
    obtain ⟨high, hhigh⟩ : ∃ high : UInt16, high.toNat = a.toNat - 0xC0 := exists_unit (by omega)
    obtain ⟨low, hlow, hbits, hread⟩ := hb.exists_bits
    have hjoin : high <<< 6 ||| low = u := by
      rw [← UInt16.toNat_inj, toNat_join high low (by omega) hbits, hhigh, hlow, hu]
    rw [List.cons_append, List.singleton_append, decodeUnits.eq_def]
    simp only [lead_eq_double_iff.mpr ⟨ha, hhigh⟩, hread]
    rw [← hjoin]
    rfl
  | @triple a b c u ha hb hc hu =>
    obtain ⟨high, hhigh⟩ : ∃ high : UInt16, high.toNat = a.toNat - 0xE0 := exists_unit (by omega)
    obtain ⟨mid, hmid, hmidBits, hreadMid⟩ := hb.exists_bits
    obtain ⟨low, hlow, hlowBits, hreadLow⟩ := hc.exists_bits
    have hjoin : high <<< 12 ||| mid <<< 6 ||| low = u := by
      rw [← UInt16.toNat_inj, toNat_join_triple high mid low (by omega) hmidBits hlowBits, hhigh,
        hmid, hlow, hu]
    rw [List.cons_append, List.cons_append, List.singleton_append, decodeUnits.eq_def]
    simp only [lead_eq_triple_iff.mpr ⟨ha, hhigh⟩, hreadMid, hreadLow]
    rw [← hjoin]
    rfl

theorem decodeUnits_of_groups {bytes : List UInt8} {units : List UInt16} (h : Groups bytes units)
    (offset : Nat) : decodeUnits offset bytes = .ok units := by
  induction h generalizing offset with
  | nil => rfl
  | cons first rest ih =>
    rw [decodeUnits_group first, ih]
    rfl

theorem decodeUnits_eq_ok_iff {offset : Nat} {bytes : List UInt8} {units : List UInt16} :
    decodeUnits offset bytes = .ok units ↔ Groups bytes units :=
  ⟨groups_of_decodeUnits, fun h => decodeUnits_of_groups h offset⟩

theorem decodeGeneral_eq_ok_iff {bytes : List UInt8} {text : String} :
    decodeGeneral bytes = .ok text
      ↔ ∃ units, Groups bytes units ∧ Utf16.Spells units text.toList := by
  constructor
  · intro h
    obtain ⟨units, hunits, h⟩ := bind_eq_ok.mp h
    split at h
    · next cs hcs =>
      cases h
      rw [String.toList_ofList]
      exact ⟨units, decodeUnits_eq_ok_iff.mp hunits, Utf16.decode_eq_some_iff.mp hcs⟩
    · exact nomatch h
  · rintro ⟨units, hgroups, hspells⟩
    have htext := decodeGeneral_of_units (decodeUnits_eq_ok_iff.mpr hgroups)
      (Utf16.decode_of_spells hspells)
    rwa [String.ofList_toList] at htext

/-- A byte string decodes if and only if it splits into groups whose units are well paired, and
then to the text that they write. Plain bytes say by themselves what their groups say; every text is
read back from its bytes, and takes no more of them than any that it was read from. -/
theorem decode_grammar :
    (∀ bytes text, decode bytes = .ok text
        ↔ ∃ units, Groups bytes units ∧ Utf16.Spells units text.toList)
      ∧ (∀ bytes, (∃ text, decode bytes = .ok text)
        ↔ ∃ units, Groups bytes units ∧ Utf16.WellPaired units)
      ∧ (∀ bytes, bytes.all isPlain = true →
        decode bytes = .ok (String.ofList (bytes.map fun b => Char.ofNat b.toNat))
          ∧ decodeGeneral bytes = .ok (String.ofList (bytes.map fun b => Char.ofNat b.toNat)))
      ∧ (∀ text, decode (encode text) = .ok text)
      ∧ ∀ bytes text, decode bytes = .ok text → (encode text).length ≤ bytes.length := by
  have hgrammar (bytes : List UInt8) (text : String) : decode bytes = .ok text
      ↔ ∃ units, Groups bytes units ∧ Utf16.Spells units text.toList := by
    rw [decode_eq_decodeGeneral, decodeGeneral_eq_ok_iff]
  refine ⟨hgrammar, fun bytes => ⟨?_, ?_⟩, fun bytes hplain => ?_, decode_encode,
    fun _ _ => length_encode_le⟩
  · rintro ⟨text, h⟩
    obtain ⟨units, hgroups, hspells⟩ := (hgrammar bytes text).mp h
    exact ⟨units, hgroups, hspells.wellPaired⟩
  · rintro ⟨units, hgroups, hpaired⟩
    obtain ⟨cs, hcs⟩ := Utf16.exists_spells hpaired
    exact ⟨String.ofList cs, (hgrammar bytes _).mpr ⟨units, hgroups, by rwa [String.toList_ofList]⟩⟩
  · have hshort : decode bytes = .ok (String.ofList (bytes.map fun b => Char.ofNat b.toNat)) := by
      rw [decode, if_pos hplain]
    exact ⟨hshort, by rw [← decode_eq_decodeGeneral, hshort]⟩

/-- The letter `a`, the character zero, the letter `A` in a longer form than it needs, and a
surrogate pair. -/
def mixedBytes : List UInt8 := [0x61, 0xC0, 0x80, 0xC1, 0x81, 0xED, 0xA0, 0xBD, 0xED, 0xB8, 0x80]

def mixedText : String := String.ofList ['a', Char.ofNat 0, 'A', Char.ofNat 0x1F600]

theorem decode_grammar_mixed :
    decode mixedBytes = .ok mixedText ∧ (encode mixedText).length ≤ 11
      ∧ (∃ units, Groups mixedBytes units ∧ Utf16.Spells units mixedText.toList)
      ∧ decodeGeneral [0x61, 0x41] = .ok "aA" := by
  obtain ⟨hgrammar, -, hplain, -, hlength⟩ := decode_grammar
  have hread : decode mixedBytes = .ok mixedText := by decide +kernel
  exact ⟨hread, hlength _ _ hread, (hgrammar _ _).mp hread, (hplain [0x61, 0x41] (by decide)).2⟩

end Linkage.ModifiedUtf8

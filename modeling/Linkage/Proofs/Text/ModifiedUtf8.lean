import Linkage.Text.ModifiedUtf8
import Mathlib.Data.Nat.Bitwise
import Mathlib.Tactic

/-! Reading text back from 16-bit units, and units from the string form of class files; and the
other way round, how text is written that was read. -/
namespace Linkage

/-- A run goes well if and only if both of its parts do. -/
theorem bind_eq_ok {ε α β : Type} {first : Except ε α} {next : α → Except ε β} {b : β} :
    (first >>= next) = .ok b ↔ ∃ a, first = .ok a ∧ next a = .ok b := by
  cases first with
  | error e => exact ⟨nofun, nofun⟩
  | ok a => exact ⟨fun h => ⟨a, rfl, h⟩, fun ⟨_, ha, h⟩ => Except.ok.inj ha ▸ h⟩

end Linkage

namespace Linkage.Utf16

theorem decode_cons (u : UInt16) (us : List UInt16) (hh : isHighSurrogate u = false)
    (hl : isLowSurrogate u = false) :
    decode (u :: us) = (decode us).map (Char.ofNat u.toNat :: ·) := by
  rw [decode.eq_def]
  simp [hh, hl]

theorem decode_pair (u v : UInt16) (us : List UInt16) (hu : isHighSurrogate u = true)
    (hv : isLowSurrogate v = true) :
    decode (u :: v :: us) = (decode us).map (pairChar u v :: ·) := by
  simp [decode, hu, hv]

theorem isHighSurrogate_iff (u : UInt16) :
    isHighSurrogate u = true ↔ 0xD800 ≤ u.toNat ∧ u.toNat < 0xDC00 := by
  simp [isHighSurrogate, UInt16.le_iff_toNat_le, UInt16.lt_iff_toNat_lt]

theorem isLowSurrogate_iff (u : UInt16) :
    isLowSurrogate u = true ↔ 0xDC00 ≤ u.toNat ∧ u.toNat < 0xE000 := by
  simp [isLowSurrogate, UInt16.le_iff_toNat_le, UInt16.lt_iff_toNat_lt]

/-- The units of one character are read as that character, whatever follows. -/
theorem decode_encodeChar (c : Char) (us : List UInt16) :
    decode (encodeChar c ++ us) = (decode us).map (c :: ·) := by
  have hv : c.toNat < 0xD800 ∨ 0xDFFF < c.toNat ∧ c.toNat < 0x110000 := c.valid
  unfold encodeChar
  by_cases hc : c.toNat < 0x10000
  · have hu : (UInt16.ofNat c.toNat).toNat = c.toNat := UInt16.toNat_ofNat_of_lt' hc
    have hh : isHighSurrogate (UInt16.ofNat c.toNat) = false := by
      rw [← Bool.not_eq_true, isHighSurrogate_iff, hu]
      omega
    have hl : isLowSurrogate (UInt16.ofNat c.toNat) = false := by
      rw [← Bool.not_eq_true, isLowSurrogate_iff, hu]
      omega
    rw [if_pos hc, List.singleton_append, decode_cons _ _ hh hl, hu, Char.ofNat_toNat]
  · let rest := c.toNat - 0x10000
    have hr : rest < 0x100000 := by dsimp only [rest]; omega
    have hdiv : rest / 0x400 < 0x400 := by omega
    have hhigh : (UInt16.ofNat (0xD800 + rest / 0x400)).toNat = 0xD800 + rest / 0x400 :=
      UInt16.toNat_ofNat_of_lt' (show _ < 0x10000 by omega)
    have hlow : (UInt16.ofNat (0xDC00 + rest % 0x400)).toNat = 0xDC00 + rest % 0x400 :=
      UInt16.toNat_ofNat_of_lt' (show _ < 0x10000 by omega)
    have hh : isHighSurrogate (UInt16.ofNat (0xD800 + rest / 0x400)) = true := by
      rw [isHighSurrogate_iff, hhigh]
      omega
    have hl : isLowSurrogate (UInt16.ofNat (0xDC00 + rest % 0x400)) = true := by
      rw [isLowSurrogate_iff, hlow]
      omega
    have hpair : pairChar (UInt16.ofNat (0xD800 + rest / 0x400))
        (UInt16.ofNat (0xDC00 + rest % 0x400)) = c := by
      have hn : 0x10000 + (0xD800 + rest / 0x400 - 0xD800) * 0x400
          + (0xDC00 + rest % 0x400 - 0xDC00) = c.toNat := by
        dsimp only [rest]
        omega
      rw [pairChar, hhigh, hlow, hn, Char.ofNat_toNat]
    rw [if_neg hc]
    exact (decode_pair _ _ us hh hl).trans (by rw [hpair])

theorem decode_encode (text : List Char) : decode (encode text) = some text := by
  unfold encode
  induction text with
  | nil => rfl
  | cons c cs ih => rw [List.flatMap_cons, decode_encodeChar, ih, Option.map_some]

theorem toNat_ofNat {n : Nat} (h : n.isValidChar) : (Char.ofNat n).toNat = n := by
  unfold Char.ofNat
  rw [dif_pos h]
  rfl

theorem encodeChar_ofNat {u : UInt16} (hh : isHighSurrogate u = false)
    (hl : isLowSurrogate u = false) : encodeChar (Char.ofNat u.toNat) = [u] := by
  have hu := u.toNat_lt
  rw [← Bool.not_eq_true, isHighSurrogate_iff] at hh
  rw [← Bool.not_eq_true, isLowSurrogate_iff] at hl
  have hvalid : u.toNat.isValidChar := by
    unfold Nat.isValidChar
    omega
  unfold encodeChar
  rw [toNat_ofNat hvalid, if_pos hu, UInt16.ofNat_toNat]

theorem encodeChar_pairChar {u v : UInt16} (hu : isHighSurrogate u = true)
    (hv : isLowSurrogate v = true) : encodeChar (pairChar u v) = [u, v] := by
  rw [isHighSurrogate_iff] at hu
  rw [isLowSurrogate_iff] at hv
  let n := 0x10000 + (u.toNat - 0xD800) * 0x400 + (v.toNat - 0xDC00)
  have hvalid : n.isValidChar := by
    unfold Nat.isValidChar
    omega
  have hchar : (pairChar u v).toNat = n := toNat_ofNat hvalid
  have hhigh : 0xD800 + (n - 0x10000) / 0x400 = u.toNat := by omega
  have hlow : 0xDC00 + (n - 0x10000) % 0x400 = v.toNat := by omega
  have hbeyond : ¬ n < 0x10000 := by omega
  unfold encodeChar
  rw [hchar, if_neg hbeyond]
  dsimp only
  rw [hhigh, hlow, UInt16.ofNat_toNat, UInt16.ofNat_toNat]

/-- What units say is written in the same units. -/
theorem encode_of_decode {units : List UInt16} {text : List Char}
    (h : decode units = some text) : encode text = units := by
  fun_induction decode units generalizing text with
  | case1 =>
    cases h
    rfl
  | case2 u hu v rest hv ih =>
    obtain ⟨cs, hcs, rfl⟩ := Option.map_eq_some_iff.mp h
    rw [encode, List.flatMap_cons, encodeChar_pairChar hu hv, ← encode, ih hcs]
    rfl
  | case3 | case4 | case5 => exact nomatch h
  | case6 u rest hh hl ih =>
    obtain ⟨cs, hcs, rfl⟩ := Option.map_eq_some_iff.mp h
    rw [encode, List.flatMap_cons, encodeChar_ofNat (by simpa using hh) (by simpa using hl),
      ← encode, ih hcs]
    rfl

end Linkage.Utf16

namespace Linkage.ModifiedUtf8

theorem lead_single (u : UInt16) (hpos : 0 < u.toNat) (hu : u.toNat < 128) :
    lead u.toUInt8 = .single u := by
  have h : ∀ n : Fin 128, 0 < n.val →
      (UInt16.ofNat n).toUInt8 &&& 0x80 = 0 ∧ (UInt16.ofNat n).toUInt8 ≠ 0 ∧
        (UInt16.ofNat n).toUInt8.toUInt16 = UInt16.ofNat n := by decide
  obtain ⟨htop, hne, hback⟩ := h ⟨u.toNat, hu⟩ hpos
  rw [UInt16.ofNat_toNat] at htop hne hback
  simp [lead, htop, hne, hback]

theorem lead_double (u : UInt16) (hu : u.toNat < 32) : lead (u.toUInt8 ||| 0xC0) = .double u := by
  have h : ∀ n : Fin 32, ((UInt16.ofNat n).toUInt8 ||| 0xC0) &&& 0x80 ≠ 0 ∧
      ((UInt16.ofNat n).toUInt8 ||| 0xC0) &&& 0xE0 = 0xC0 ∧
        (((UInt16.ofNat n).toUInt8 ||| 0xC0) &&& 0x1F).toUInt16 = UInt16.ofNat n := by decide
  obtain ⟨htop, hmark, hback⟩ := h ⟨u.toNat, hu⟩
  rw [UInt16.ofNat_toNat] at htop hmark hback
  simp [lead, htop, hmark, hback]

theorem lead_triple (u : UInt16) (hu : u.toNat < 16) : lead (u.toUInt8 ||| 0xE0) = .triple u := by
  have h : ∀ n : Fin 16, ((UInt16.ofNat n).toUInt8 ||| 0xE0) &&& 0x80 ≠ 0 ∧
      ((UInt16.ofNat n).toUInt8 ||| 0xE0) &&& 0xE0 ≠ 0xC0 ∧
        ((UInt16.ofNat n).toUInt8 ||| 0xE0) &&& 0xF0 = 0xE0 ∧
          (((UInt16.ofNat n).toUInt8 ||| 0xE0) &&& 0x0F).toUInt16 = UInt16.ofNat n := by decide
  obtain ⟨htop, hshort, hmark, hback⟩ := h ⟨u.toNat, hu⟩
  rw [UInt16.ofNat_toNat] at htop hshort hmark hback
  simp [lead, htop, hshort, hmark, hback]

theorem continuation_mark (u : UInt16) (hu : u.toNat < 64) (offset : Nat) :
    continuation (u.toUInt8 ||| 0x80) offset = .ok u := by
  have h : ∀ n : Fin 64, ((UInt16.ofNat n).toUInt8 ||| 0x80) &&& 0xC0 = 0x80 ∧
      (((UInt16.ofNat n).toUInt8 ||| 0x80) &&& 0x3F).toUInt16 = UInt16.ofNat n := by decide
  obtain ⟨hmark, hback⟩ := h ⟨u.toNat, hu⟩
  rw [UInt16.ofNat_toNat] at hmark hback
  simp [continuation, hmark, hback]

private theorem toNat_low_bits (u : UInt16) : (u &&& 0x3F).toNat = u.toNat % 64 := by
  rw [UInt16.toNat_and]
  exact Nat.and_two_pow_sub_one_eq_mod u.toNat 6

private theorem toNat_high_bits (u : UInt16) : (u >>> 6).toNat = u.toNat / 64 := by
  rw [UInt16.toNat_shiftRight]
  exact Nat.shiftRight_eq_div_pow u.toNat 6

/-- Six bits below shifted ones add up with them. -/
theorem toNat_join (high low : UInt16) (hh : high.toNat < 1024) (hl : low.toNat < 64) :
    (high <<< 6 ||| low).toNat = high.toNat * 64 + low.toNat := by
  have hor := Nat.two_pow_add_eq_or_of_lt (i := 6) (b := low.toNat) (by omega) high.toNat
  have hs : (high <<< 6).toNat = 2 ^ 6 * high.toNat := by
    rw [UInt16.toNat_shiftLeft, Nat.shiftLeft_eq]
    change high.toNat * 64 % 65536 = 64 * high.toNat
    omega
  rw [UInt16.toNat_or, hs, ← hor]
  omega

/-- A unit of eleven bits, from its two groups. -/
theorem join_double (u : UInt16) (hu : u.toNat < 0x800) :
    (u >>> 6 &&& 0x1F) <<< 6 ||| (u &&& 0x3F) = u := by
  have hhigh : (u >>> 6 &&& 0x1F).toNat = u.toNat / 64 := by
    rw [UInt16.toNat_and, toNat_high_bits]
    exact (Nat.and_two_pow_sub_one_eq_mod (u.toNat / 64) 5).trans (by omega)
  apply UInt16.toNat_inj.mp
  rw [toNat_join _ _ (by omega) (by rw [toNat_low_bits]; omega), hhigh, toNat_low_bits]
  omega

/-- Any unit, from its three groups. -/
theorem join_triple (u : UInt16) :
    (u >>> 12 &&& 0x0F) <<< 12 ||| (u >>> 6 &&& 0x3F) <<< 6 ||| (u &&& 0x3F) = u := by
  have hu := u.toNat_lt
  have hhigh : (u >>> 12 &&& 0x0F).toNat = u.toNat / 4096 := by
    rw [UInt16.toNat_and, UInt16.toNat_shiftRight]
    change u.toNat >>> 12 &&& 15 = _
    rw [Nat.shiftRight_eq_div_pow]
    exact (Nat.and_two_pow_sub_one_eq_mod (u.toNat / 4096) 4).trans (by omega)
  have hmid : (u >>> 6 &&& 0x3F).toNat = u.toNat / 64 % 64 := by
    rw [toNat_low_bits, toNat_high_bits]
  have hshift : (u >>> 12 &&& 0x0F) <<< 12 = (u >>> 12 &&& 0x0F) <<< 6 <<< 6 :=
    UInt16.shiftLeft_add (b := 6) (c := 6) (by decide) (by decide) (by decide)
  have hjoin := toNat_join (u >>> 12 &&& 0x0F) (u >>> 6 &&& 0x3F) (by omega) (by omega)
  apply UInt16.toNat_inj.mp
  rw [hshift, ← UInt16.shiftLeft_or, toNat_join _ _ (by omega) (by rw [toNat_low_bits]; omega),
    hjoin, hhigh, hmid, toNat_low_bits]
  omega

/-- The bytes of one unit are read as that unit, whatever follows. -/
theorem decodeUnits_encodeUnit (offset : Nat) (u : UInt16) (us : List UInt16) (rest : List UInt8)
    (hrest : ∀ k, decodeUnits k rest = .ok us) :
    decodeUnits offset (encodeUnit u ++ rest) = .ok (u :: us) := by
  have hu := u.toNat_lt
  have hlow : (u &&& 0x3F).toNat < 64 := by rw [toNat_low_bits]; omega
  unfold encodeUnit
  by_cases hplain : 1 ≤ u ∧ u ≤ 0x7F
  · have hpos : 1 ≤ u.toNat := hplain.1
    have hmax : u.toNat ≤ 0x7F := hplain.2
    rw [if_pos (by simpa using hplain), List.singleton_append, decodeUnits.eq_def]
    simp only [lead_single u (by omega) (by omega), hrest]
    rfl
  rw [if_neg (by simpa using hplain)]
  dsimp only
  by_cases hshort : u ≤ 0x7FF
  · have hmax : u.toNat ≤ 0x7FF := hshort
    have hhigh : (u >>> 6 &&& 0x1F).toNat < 32 := by
      rw [UInt16.toNat_and]
      exact Nat.and_lt_two_pow (n := 5) _ (by decide)
    rw [if_pos hshort, List.cons_append, List.singleton_append, decodeUnits.eq_def]
    simp only [lead_double _ hhigh, continuation_mark _ hlow, hrest]
    exact congrArg (fun v => Except.ok (v :: us)) (join_double u (by omega))
  · have hhigh : (u >>> 12 &&& 0x0F).toNat < 16 := by
      rw [UInt16.toNat_and]
      exact Nat.and_lt_two_pow (n := 4) _ (by decide)
    have hmid : (u >>> 6 &&& 0x3F).toNat < 64 := by rw [toNat_low_bits]; omega
    rw [if_neg hshort, List.cons_append, List.cons_append, List.singleton_append,
      decodeUnits.eq_def]
    simp only [lead_triple _ hhigh, continuation_mark _ hmid, continuation_mark _ hlow, hrest]
    exact congrArg (fun v => Except.ok (v :: us)) (join_triple u)

theorem decodeUnits_encode (units : List UInt16) (offset : Nat) :
    decodeUnits offset (units.flatMap encodeUnit) = .ok units := by
  induction units generalizing offset with
  | nil => rfl
  | cons u us ih => exact decodeUnits_encodeUnit offset u us _ ih

private theorem isPlain_iff (b : UInt8) : isPlain b = true ↔ 0 < b.toNat ∧ b.toNat < 0x80 := by
  simp [isPlain, UInt8.lt_iff_toNat_lt, ← UInt8.toNat_inj, Nat.pos_iff_ne_zero]

private theorem decodeUnits_plain (bytes : List UInt8) (offset : Nat)
    (hplain : ∀ b ∈ bytes, isPlain b = true) :
    decodeUnits offset bytes = .ok (bytes.map UInt8.toUInt16) := by
  induction bytes generalizing offset with
  | nil => rfl
  | cons b bs ih =>
    obtain ⟨hpos, hmax⟩ := (isPlain_iff b).mp (hplain b (by simp))
    have hlead := lead_single b.toUInt16 (by simpa using hpos) (by simpa using hmax)
    rw [UInt8.toUInt8_toUInt16] at hlead
    rw [decodeUnits.eq_def]
    simp only [hlead, ih _ fun b' hb' => hplain b' (List.mem_cons_of_mem b hb')]
    rfl

private theorem decode_plain_units (bytes : List UInt8)
    (hplain : ∀ b ∈ bytes, isPlain b = true) :
    Utf16.decode (bytes.map UInt8.toUInt16) = some (bytes.map fun b => Char.ofNat b.toNat) := by
  induction bytes with
  | nil => rfl
  | cons b bs ih =>
    obtain ⟨_, hmax⟩ := (isPlain_iff b).mp (hplain b (by simp))
    have hh : Utf16.isHighSurrogate b.toUInt16 = false := by
      rw [← Bool.not_eq_true, Utf16.isHighSurrogate_iff, UInt8.toNat_toUInt16]
      omega
    have hl : Utf16.isLowSurrogate b.toUInt16 = false := by
      rw [← Bool.not_eq_true, Utf16.isLowSurrogate_iff, UInt8.toNat_toUInt16]
      omega
    rw [List.map_cons, Utf16.decode_cons _ _ hh hl,
      ih fun b' hb' => hplain b' (List.mem_cons_of_mem b hb'), UInt8.toNat_toUInt16]
    rfl

theorem decodeGeneral_of_units {bytes : List UInt8} {units : List UInt16} {text : List Char}
    (hunits : decodeUnits 0 bytes = .ok units) (htext : Utf16.decode units = some text) :
    decodeGeneral bytes = .ok (String.ofList text) := by
  unfold decodeGeneral
  simp only [hunits, htext, bind, Except.bind]

/-- Taking plain bytes as they are says nothing else than the groups do. -/
theorem decode_eq_decodeGeneral (bytes : List UInt8) : decode bytes = decodeGeneral bytes := by
  unfold decode
  split
  · next h =>
    have hplain : ∀ b ∈ bytes, isPlain b = true := List.all_eq_true.mp h
    have hgeneral := decodeGeneral_of_units (decodeUnits_plain bytes 0 hplain)
      (decode_plain_units bytes hplain)
    exact hgeneral.symm
  · rfl

/-- Every text is read back from its bytes. -/
theorem decode_encode (text : String) : decode (encode text) = .ok text := by
  have hgeneral := decodeGeneral_of_units (decodeUnits_encode (Utf16.encode text.toList) 0)
    (Utf16.decode_encode text.toList)
  rw [String.ofList_toList] at hgeneral
  rw [decode_eq_decodeGeneral]
  exact hgeneral

theorem length_encodeUnit_le_three (u : UInt16) : (encodeUnit u).length ≤ 3 := by
  unfold encodeUnit
  dsimp only
  split_ifs <;> simp

theorem length_encodeUnit_le_two {u : UInt16} (hu : u.toNat < 0x800) :
    (encodeUnit u).length ≤ 2 := by
  have hshort : u ≤ 0x7FF := Nat.le_of_lt_succ hu
  unfold encodeUnit
  dsimp only
  rw [if_pos hshort]
  split_ifs <;> simp

theorem length_encodeUnit_le_one {u : UInt16} (hpos : 0 < u.toNat) (hu : u.toNat < 128) :
    (encodeUnit u).length ≤ 1 := by
  have hplain : 1 ≤ u ∧ u ≤ 0x7F := ⟨hpos, Nat.le_of_lt_succ hu⟩
  unfold encodeUnit
  rw [if_pos (by simpa using hplain)]
  simp

theorem bounds_of_lead_single {b : UInt8} {u : UInt16} (h : lead b = .single u) :
    0 < u.toNat ∧ u.toNat < 128 := by
  have hb := b.toNat_lt
  unfold lead at h
  split_ifs at h with htop hzero
  cases h
  have hbit : b.toNat &&& 2 ^ 7 = 0 := congrArg UInt8.toNat (eq_of_beq htop)
  have hpos : b.toNat ≠ 0 := fun h => hzero (beq_iff_eq.mpr (UInt8.toNat_inj.mp h))
  rw [Nat.and_two_pow, Nat.testBit_eq_decide_div_mod_eq] at hbit
  have hclear : ¬ b.toNat / 2 ^ 7 % 2 = 1 := by
    intro hset
    rw [hset] at hbit
    exact absurd hbit (by decide)
  rw [UInt8.toNat_toUInt16]
  omega

theorem lt_of_lead_double {b : UInt8} {high : UInt16} (h : lead b = .double high) :
    high.toNat < 32 := by
  unfold lead at h
  split_ifs at h
  cases h
  rw [UInt8.toNat_toUInt16, UInt8.toNat_and]
  exact Nat.and_lt_two_pow (n := 5) _ (by decide)

theorem lt_of_continuation {b : UInt8} {offset : Nat} {low : UInt16}
    (h : continuation b offset = .ok low) : low.toNat < 64 := by
  unfold continuation at h
  split_ifs at h
  cases h
  rw [UInt8.toNat_toUInt16, UInt8.toNat_and]
  exact Nat.and_lt_two_pow (n := 6) _ (by decide)

/-- No unit has a shorter group than the one it is written in. -/
theorem length_units_le {offset : Nat} {bytes : List UInt8} {units : List UInt16}
    (h : decodeUnits offset bytes = .ok units) :
    (units.flatMap encodeUnit).length ≤ bytes.length := by
  fun_induction decodeUnits offset bytes generalizing units with
  | case1 =>
    cases h
    exact Nat.le_refl 0
  | case2 | case3 | case5 | case7 => exact nomatch h
  | case8 =>
    obtain ⟨_, -, h⟩ := bind_eq_ok.mp h
    exact nomatch h
  | case4 offset b rest u hlead ih =>
    obtain ⟨us, hus, ⟨⟩⟩ := bind_eq_ok.mp h
    obtain ⟨hpos, hmax⟩ := bounds_of_lead_single hlead
    have hunit := length_encodeUnit_le_one hpos hmax
    have hrest := ih hus
    rw [List.flatMap_cons, List.length_append, List.length_cons]
    omega
  | case6 offset b high hlead b₂ rest ih =>
    obtain ⟨low, hlow, h⟩ := bind_eq_ok.mp h
    obtain ⟨us, hus, ⟨⟩⟩ := bind_eq_ok.mp h
    have hhigh := lt_of_lead_double hlead
    have hbits := lt_of_continuation hlow
    have hjoin := toNat_join high low (by omega) hbits
    have hunit := length_encodeUnit_le_two (u := high <<< 6 ||| low) (by omega)
    have hrest := ih hus
    simp only [List.flatMap_cons, List.length_append, List.length_cons]
    omega
  | case9 offset b high hlead b₂ b₃ rest ih =>
    obtain ⟨mid, -, h⟩ := bind_eq_ok.mp h
    obtain ⟨low, -, h⟩ := bind_eq_ok.mp h
    obtain ⟨us, hus, ⟨⟩⟩ := bind_eq_ok.mp h
    have hunit := length_encodeUnit_le_three (high <<< 12 ||| mid <<< 6 ||| low)
    have hrest := ih hus
    simp only [List.flatMap_cons, List.length_append, List.length_cons]
    omega

/-- A text takes no more bytes than those it was read from. -/
theorem length_encode_le {bytes : List UInt8} {text : String} (h : decode bytes = .ok text) :
    (encode text).length ≤ bytes.length := by
  rw [decode_eq_decodeGeneral] at h
  obtain ⟨units, hunits, h⟩ := bind_eq_ok.mp h
  split at h
  · next text htext =>
    cases h
    rw [encode, String.toList_ofList, Utf16.encode_of_decode htext]
    exact length_units_le hunits
  · exact nomatch h

end Linkage.ModifiedUtf8

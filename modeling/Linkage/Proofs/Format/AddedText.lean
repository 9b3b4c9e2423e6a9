import Linkage.Proofs.Format.Enlarging
import Linkage.Proofs.Text.Grammar

/-! Class files with one more string constant at the end of their pool. -/
namespace Linkage.Format

variable {α β : Type}

/-- The string constant of these units. -/
def textEntry (units : List UInt16) : List UInt8 :=
  let bytes := units.flatMap ModifiedUtf8.encodeUnit
  1 :: toBigEndian 2 bytes.length ++ bytes

/-- Puts a constant behind all others and counts it. The number of slots stands behind eight bytes,
and the constants behind it; what has no pool stays as it is. -/
def addConstant (entry file : List UInt8) : List UInt8 :=
  match Pool.read ⟨8, file.drop 8⟩ with
  | .ok (_, after) =>
    let count := bigEndian ((file.drop 8).take 2)
    file.take 8 ++ toBigEndian 2 (count + 1) ++ (file.drop 10).take (after.position - 10) ++ entry
      ++ after.rest
  | .error _ => file

theorem Reads.run_bind {decoder : Decoder α} {next : α → Decoder β} {position : Nat}
    {bytes : List UInt8} {a : α} (h : Reads position decoder bytes a) (rest : List UInt8) :
    (decoder >>= next) ⟨position, bytes ++ rest⟩ = next a ⟨position + bytes.length, rest⟩ := by
  change (decoder ⟨position, bytes ++ rest⟩ >>= fun p => next p.1 p.2) = _
  rw [h]
  rfl

/-- The first of two steps takes some bytes, and the second one goes on behind them. -/
theorem Sequential.exists_first {decoder : Decoder α} {next : α → Decoder β}
    (h : Sequential decoder) {position : Nat} {bytes : List UInt8} {b : β} {last : Cursor}
    (hrun : (decoder >>= next) ⟨position, bytes⟩ = .ok (b, last)) :
    ∃ taken rest a, bytes = taken ++ rest ∧ Reads position decoder taken a
      ∧ next a ⟨position + taken.length, rest⟩ = .ok (b, last) := by
  obtain ⟨a, between, hdecoder, -⟩ := run_bind_eq_ok.mp hrun
  obtain ⟨taken, rest, rfl, hreads, -⟩ := h.answer hdecoder
  rw [hreads.run_bind] at hrun
  exact ⟨taken, rest, a, rfl, hreads, hrun⟩

/-- Of the bytes that two steps take, the first step takes some and the second one the others. -/
theorem Sequential.exists_reads {decoder : Decoder α} {next : α → Decoder β} {position : Nat}
    {bytes : List UInt8} {b : β} (h : Sequential decoder)
    (hreads : Reads position (decoder >>= next) bytes b) :
    ∃ front back a, bytes = front ++ back ∧ Reads position decoder front a
      ∧ Reads (position + front.length) (next a) back b := by
  have hrun := hreads []
  rw [List.append_nil] at hrun
  obtain ⟨front, back, a, rfl, hfront, -⟩ := h.exists_first hrun
  refine ⟨front, back, a, rfl, hfront, fun rest => ?_⟩
  have hboth := hreads rest
  rwa [List.append_assoc, hfront.run_bind, List.length_append, ← Nat.add_assoc] at hboth

theorem Reads.eq_of_pure {a b : α} {position : Nat} {bytes : List UInt8}
    (h : Reads position (Pure.pure a) bytes b) : bytes = [] ∧ a = b := by
  obtain ⟨hpair, hcursor⟩ := Prod.mk.inj (Except.ok.inj (h []))
  exact ⟨by simpa using congrArg Cursor.rest hcursor, hpair⟩

namespace Pool

variable {position : Nat} {bytes : List UInt8}

/-- Where two slots are free, a constant of either width fits. -/
theorem readSlots_constant {free : Nat} {slots : Array Constant} {constant : Constant}
    (h : Reads position (Constant.read slots.size) bytes constant) (rest : List UInt8) :
    readSlots (free + 2) slots ⟨position, bytes ++ rest⟩
      = (if constant.isWide then readSlots free ((slots.push constant).push .unusable)
          else readSlots (free + 1) (slots.push constant)) ⟨position + bytes.length, rest⟩ :=
  h.run_bind rest

/-- With one more slot to fill, the slots are filled as before, and then the last one. -/
theorem readSlots_succ {free : Nat} {slots result : Array Constant}
    (h : Reads position (readSlots free slots) bytes result) (rest : List UInt8) :
    readSlots (free + 1) slots ⟨position, bytes ++ rest⟩
      = readSlots 1 result ⟨position + bytes.length, rest⟩ := by
  fun_induction readSlots free slots generalizing position bytes with
  | case1 slots =>
    obtain ⟨rfl, rfl⟩ := h.eq_of_pure
    rfl
  | case2 slots =>
    obtain ⟨front, back, constant, rfl, hread, hlast⟩ :=
      (Constant.sequential_read slots.size).exists_reads h
    rw [List.append_assoc, readSlots_constant hread, List.length_append, ← Nat.add_assoc]
    dsimp only at hlast
    split at hlast
    · cases hlast []
    · next hnarrow =>
      obtain ⟨rfl, rfl⟩ := hlast.eq_of_pure
      rw [if_neg hnarrow]
      rfl
  | case3 free slots wide single =>
    obtain ⟨front, back, constant, rfl, hread, hlast⟩ :=
      (Constant.sequential_read slots.size).exists_reads h
    rw [List.append_assoc, readSlots_constant hread, List.length_append, ← Nat.add_assoc]
    split at hlast
    · next hwide =>
      rw [if_pos hwide]
      exact wide constant hlast
    · next hnarrow =>
      rw [if_neg hnarrow]
      exact single constant hlast

/-- A constant behind all others changes none of their indices. -/
theorem within_push (slots : Array Constant) (constant : Constant) :
    Pool.Within ⟨slots⟩ ⟨slots.push constant⟩ := by
  intro index found hget
  unfold Pool.get at hget ⊢
  dsimp only at hget ⊢
  cases hslot : slots[index.toNat]? with
  | none =>
    rw [hslot] at hget
    exact nomatch hget
  | some there =>
    obtain ⟨hlt, -⟩ := Array.getElem?_eq_some_iff.mp hslot
    rw [Array.getElem?_push_lt hlt, ← Array.getElem?_eq_getElem hlt]
    exact hget

end Pool

/-- Units are read back as their text, if they have one. -/
theorem decode_units (units : List UInt16) :
    ModifiedUtf8.decode (units.flatMap ModifiedUtf8.encodeUnit)
      = match Utf16.decode units with
        | some text => .ok (String.ofList text)
        | none => .error .loneSurrogate := by
  rw [ModifiedUtf8.decode_eq_decodeGeneral, ModifiedUtf8.decodeGeneral,
    ModifiedUtf8.decodeUnits_encode]
  rfl

theorem read_textEntry {units : List UInt16}
    (hlength : (units.flatMap ModifiedUtf8.encodeUnit).length ≤ 65535) (index position : Nat)
    (rest : List UInt8) :
    Constant.read index ⟨position, textEntry units ++ rest⟩
      = match Utf16.decode units with
        | some text =>
          .ok (.utf8 (String.ofList text), ⟨position + (textEntry units).length, rest⟩)
        | none => .error (.invalidText .loneSurrogate) := by
  let bytes := units.flatMap ModifiedUtf8.encodeUnit
  have hshort : bytes.length < 65536 := Nat.lt_succ_of_le hlength
  have hcount : (UInt16.ofNat bytes.length).toNat = bytes.length :=
    UInt16.toNat_ofNat_of_lt' hshort
  have hentry : textEntry units ++ rest
      = [1] ++ (toBigEndian 2 bytes.length ++ (bytes ++ rest)) := by simp [textEntry, bytes]
  have hend : position + 1 + 2 + bytes.length = position + (textEntry units).length := by
    change _ = position + (1 :: toBigEndian 2 bytes.length ++ bytes).length
    rw [List.length_append, List.length_cons, length_toBigEndian]
    omega
  rw [hentry]
  refine ((readU8_reads position 1).run_bind _).trans ?_
  refine ((readU16_reads (position + 1) bytes.length hshort).run_bind _).trans ?_
  rw [hcount]
  refine ((takeBytes_reads (position + 1 + 2) bytes rfl).run_bind rest).trans ?_
  rw [decode_units, hend]
  cases Utf16.decode units <;> rfl

/-- The last slot takes the string constant, if its units have a text. -/
theorem readSlots_textEntry {units : List UInt16}
    (hlength : (units.flatMap ModifiedUtf8.encodeUnit).length ≤ 65535) (slots : Array Constant)
    (position : Nat) (rest : List UInt8) :
    Pool.readSlots 1 slots ⟨position, textEntry units ++ rest⟩
      = match Utf16.decode units with
        | some text =>
          .ok (slots.push (.utf8 (String.ofList text)),
            ⟨position + (textEntry units).length, rest⟩)
        | none => .error (.invalidText .loneSurrogate) := by
  change (Constant.read slots.size ⟨position, textEntry units ++ rest⟩ >>= _) = _
  rw [read_textEntry hlength]
  cases Utf16.decode units <;> rfl

/-- The parts of a class file: eight bytes, the number of slots, the constants that fill them, and
the rest. -/
structure Parts (file : List UInt8) (c : ClassFile) where
  head : List UInt8
  count : List UInt8
  entries : List UInt8
  body : List UInt8
  slots : Array Constant
  major : UInt16
  bytes : file = head ++ (count ++ (entries ++ body))
  headLength : head.length = 8
  countLength : count.length = 2
  readsHead : ∀ rest, readClass ⟨0, head ++ rest⟩ = (Pool.read >>= readBody major) ⟨8, rest⟩
  readsEntries : Reads 10 (Pool.readSlots (bigEndian count - 1) #[.unusable]) entries slots
  readsBody : ∃ last, readBody major ⟨slots⟩ ⟨10 + entries.length, body⟩ = .ok (c, last)

/-- What reads `n` bytes at once takes `n` bytes. -/
theorem Reads.length_eq {n position : Nat} {f : List UInt8 → α} {bytes : List UInt8} {a : α}
    (h : Reads position (do return f (← takeBytes n)) bytes a) : bytes.length = n := by
  obtain ⟨taken, ⟨q, rest⟩, htake, hlast⟩ := run_bind_eq_ok.mp (h [])
  have hq := position_of_takeBytes htake
  cases hlast
  dsimp only at hq
  omega

/-- Two bytes are the word whose digits they are. -/
theorem exists_word {bytes : List UInt8} (h : bytes.length = 2) (position : Nat) :
    ∃ w : UInt16, w.toNat = bigEndian bytes ∧ Reads position readU16 bytes w := by
  refine ⟨UInt16.ofNat (bigEndian bytes), ?_,
    (takeBytes_reads position bytes h).map fun bytes => UInt16.ofNat (bigEndian bytes)⟩
  obtain ⟨a, b, rfl⟩ := List.length_eq_two.mp h
  have ha := a.toNat_lt
  have hb := b.toNat_lt
  have hvalue : bigEndian [a, b] = a.toNat * 256 + b.toNat := by simp [bigEndian]
  rw [hvalue]
  exact UInt16.toNat_ofNat_of_lt' (show _ < 65536 by omega)

theorem toNat_of_reads {position : Nat} {bytes : List UInt8} {w : UInt16}
    (h : Reads position readU16 bytes w) : w.toNat = bigEndian bytes := by
  obtain ⟨found, hfound, hreads⟩ := exists_word h.length_eq position
  have hsame : w = found := (Prod.mk.inj (Except.ok.inj ((h []).symm.trans (hreads [])))).1
  exact hsame ▸ hfound

theorem exists_parts {file : List UInt8} {c : ClassFile} (h : decodeClass file = .ok c) :
    Nonempty (Parts file c) := by
  obtain ⟨last, hrun⟩ := decodeClass_eq_ok.mp h
  rw [readClass_eq] at hrun
  obtain ⟨first, rest, found, rfl, hfirst, hrun⟩ := sequential_readU32.exists_first hrun
  dsimp only at hrun
  split at hrun
  · exact nomatch hrun
  next hmagic =>
  obtain ⟨second, rest, minor, rfl, hsecond, hrun⟩ := sequential_readU16.exists_first hrun
  obtain ⟨third, rest, major, rfl, hthird, hrun⟩ := sequential_readU16.exists_first hrun
  obtain ⟨pool, body, _, rfl, hpool, hrun⟩ := Pool.sequential_read.exists_first hrun
  obtain ⟨count, entries, size, rfl, hcount, hentries⟩ := sequential_readU16.exists_reads hpool
  obtain ⟨entries, nothing, slots, rfl, hslots, hpure⟩ :=
    (Pool.sequential_readSlots _ _).exists_reads hentries
  obtain ⟨rfl, rfl⟩ := hpure.eq_of_pure
  have hhead : 0 + first.length + second.length + third.length = 8 := by
    rw [hfirst.length_eq, hsecond.length_eq, hthird.length_eq]
  have hcountLength : count.length = 2 := hcount.length_eq
  rw [toNat_of_reads hcount, hhead, hcountLength] at hslots
  rw [hhead, List.append_nil, List.length_append, hcountLength, ← Nat.add_assoc] at hrun
  refine ⟨⟨first ++ (second ++ third), count, entries, body, slots, major, by simp, by simp; omega,
    hcountLength, fun rest => ?_, hslots, last, hrun⟩⟩
  rw [readClass_eq, List.append_assoc, List.append_assoc, hfirst.run_bind]
  dsimp only
  rw [if_neg hmagic, hsecond.run_bind, hthird.run_bind, hhead]

/-- The constant stands between those that were there and the body, and is counted. -/
theorem Parts.addConstant_eq {file : List UInt8} {c : ClassFile} (parts : Parts file c)
    (entry : List UInt8) : addConstant entry file = parts.head
      ++ (toBigEndian 2 (bigEndian parts.count + 1)
      ++ (parts.entries ++ (entry ++ parts.body))) := by
  obtain ⟨head, count, entries, body, slots, major, rfl, hhead, hcount, -, hentries, -⟩ := parts
  obtain ⟨w, hw, hread⟩ := exists_word hcount 8
  have hpool : Reads 8 Pool.read (count ++ entries) ⟨slots⟩ := by
    have hslots : Reads (8 + count.length) (Pool.readSlots (w.toNat - 1) #[.unusable])
        entries slots := by rwa [hcount, hw]
    exact hread.bind (hslots.map Pool.mk)
  have hbehind : (head ++ (count ++ (entries ++ body))).drop 8 = count ++ (entries ++ body) :=
    List.drop_left' hhead
  have hbehindCount : (head ++ (count ++ (entries ++ body))).drop 10 = entries ++ body := by
    rw [← List.append_assoc]
    exact List.drop_left' (by rw [List.length_append, hhead, hcount])
  have hfront : (head ++ (count ++ (entries ++ body))).take 8 = head := List.take_left' hhead
  have hfound := hpool body
  rw [List.append_assoc, List.length_append, hcount] at hfound
  have hentriesLength : 8 + (2 + entries.length) - 10 = entries.length := by omega
  simp only [addConstant, hbehind, hfound, hbehindCount, hfront]
  rw [List.take_left' hcount, hentriesLength, List.take_left]
  simp only [List.append_assoc]

/-- A pool with one more in its count is read like the other one, and then there is one more slot. -/
theorem Pool.read_bind_succ {n : Nat} {entries : List UInt8} {slots : Array Constant}
    (hpos : 0 < n) (hmax : n < 65535)
    (hentries : Reads 10 (readSlots (n - 1) #[.unusable]) entries slots)
    (next : Pool → Decoder ClassFile) (rest : List UInt8) :
    (Pool.read >>= next) ⟨8, toBigEndian 2 (n + 1) ++ (entries ++ rest)⟩
      = (readSlots 1 slots ⟨10 + entries.length, rest⟩ >>= fun p => next ⟨p.1⟩ p.2) := by
  have hcount : (UInt16.ofNat (n + 1)).toNat - 1 = n := by
    rw [UInt16.toNat_ofNat_of_lt' (show _ < 65536 by omega)]
    omega
  have hslots : readSlots n #[.unusable] ⟨10, entries ++ rest⟩
      = readSlots 1 slots ⟨10 + entries.length, rest⟩ := by
    have hone : n = n - 1 + 1 := by omega
    rw [hone, readSlots_succ hentries]
  rw [Pool.read, bind_assoc]
  simp only [bind_assoc, pure_bind]
  rw [(readU16_reads 8 (n + 1) (by omega)).run_bind, hcount]
  change (readSlots n #[.unusable] ⟨10, entries ++ rest⟩ >>= _) = _
  rw [hslots]

/-- A class file is still one with a string constant behind all others, and says the same, if the
units of the string are well paired; if they are not, nothing is read. -/
theorem decodeClass_addConstant {file : List UInt8} {c : ClassFile} (h : decodeClass file = .ok c)
    (hpos : 0 < bigEndian ((file.drop 8).take 2)) (hmax : bigEndian ((file.drop 8).take 2) < 65535)
    {units : List UInt16}
    (hlength : (units.flatMap ModifiedUtf8.encodeUnit).length ≤ 65535) :
    decodeClass (addConstant (textEntry units) file)
      = match Utf16.decode units with
        | some _ => .ok c
        | none => .error (.invalidText .loneSurrogate) := by
  obtain ⟨parts⟩ := exists_parts h
  rw [parts.addConstant_eq]
  obtain ⟨head, count, entries, body, slots, major, rfl, hhead, hcount, hreadsHead, hentries,
    last, hbody⟩ := parts
  rw [List.drop_left' hhead, List.take_left' hcount] at hpos hmax
  dsimp only
  unfold decodeClass Cursor.start
  rw [hreadsHead, Pool.read_bind_succ hpos hmax hentries, readSlots_textEntry hlength]
  cases Utf16.decode units with
  | none => rfl
  | some text =>
    have hmoved : Anywhere (10 + entries.length)
        (10 + entries.length + (textEntry units).length) := trivial
    obtain ⟨q, -, hmore⟩ := carries_readBody (Pool.within_push slots _) major hmoved hbody
    exact fst_map_eq_ok.mpr ⟨_, hmore⟩

theorem count_encodeClass {c : ClassFile}
    (h : ((writeBody c).run {}).2.keys.length ≤ 65533) :
    bigEndian (((encodeClass c).drop 8).take 2) = ((writeBody c).run {}).2.keys.length + 1 := by
  rw [run_writeBody] at h ⊢
  let final := PoolBuilder.internAll {} (classKeys c)
  have hfile : encodeClass c = (toBigEndian 4 magic.toNat ++ [0, 0]
      ++ toBigEndian 2 c.majorVersion.toNat) ++ (toBigEndian 2 (final.keys.length + 1)
      ++ (final.keys.flatMap final.entry ++ bodyBytes final c)) := by
    rw [encodeClass_eq, PoolBuilder.bytes]
    simp only [List.append_assoc, final]
  rw [hfile, List.drop_left' (by simp), List.take_left' (length_toBigEndian 2 _)]
  have hsize : final.keys.length ≤ 65533 := h
  exact bigEndian_toBigEndian 2 _ (show _ < 65536 by omega)

/-- A string constant that nothing refers to leaves a class as it is if and only if its units are
well paired; if they are not, there is no class any more. -/
theorem text_harmless_iff (c : ClassFile) (hfits : Fits c)
    (hroom : ((writeBody c).run {}).2.keys.length ≤ 65533) (units : List UInt16)
    (hlength : (units.flatMap ModifiedUtf8.encodeUnit).length ≤ 65535) :
    decodeClass (encodeClass c) = .ok c.asWritten
      ∧ (decodeClass (addConstant (textEntry units) (encodeClass c)) = decodeClass (encodeClass c)
        ↔ Utf16.WellPaired units)
      ∧ (¬ Utf16.WellPaired units → decodeClass (addConstant (textEntry units) (encodeClass c))
        = .error (.invalidText .loneSurrogate)) := by
  have hclass : decodeClass (encodeClass c) = .ok c.asWritten := by
    have hread := reads_encodeClass hfits []
    rw [List.append_nil] at hread
    exact decodeClass_eq_ok.mpr ⟨_, hread⟩
  have hcount := count_encodeClass hroom
  have hadded := decodeClass_addConstant hclass (by omega) (by omega) hlength
  rw [hclass, hadded]
  cases hdecode : Utf16.decode units with
  | none =>
    have hpaired := Utf16.decode_eq_none_iff.mp hdecode
    exact ⟨rfl, iff_of_false nofun hpaired, fun _ => rfl⟩
  | some text =>
    have hpaired := Utf16.wellPaired_of_decode hdecode
    exact ⟨rfl, iff_of_true rfl hpaired, fun hnot => absurd hpaired hnot⟩

/-- A letter and a surrogate pair do no harm to a class, a pair the wrong way round does. -/
theorem text_harmless_iff_nestedClass :
    decodeClass (addConstant (textEntry [0x61, 0xD83D, 0xDE00]) (encodeClass nestedClass))
        = decodeClass (encodeClass nestedClass)
      ∧ decodeClass (addConstant (textEntry [0xDE00, 0xD83D]) (encodeClass nestedClass))
        = .error (.invalidText .loneSurrogate) := by
  have hfits : Fits nestedClass :=
    ⟨by decide, by decide, by decide, by decide, by decide, by decide, by decide, by decide⟩
  have hpaired : Utf16.WellPaired [0x61, 0xD83D, 0xDE00] :=
    .single (by decide) (.pair (by decide) (by decide) .nil)
  have hlone : ¬ Utf16.WellPaired [0xDE00, 0xD83D] := Utf16.decode_eq_none_iff.mp (by decide)
  obtain ⟨-, hsame, -⟩ := text_harmless_iff nestedClass hfits (by decide)
    [0x61, 0xD83D, 0xDE00] (by decide)
  obtain ⟨-, -, hnone⟩ := text_harmless_iff nestedClass hfits (by decide)
    [0xDE00, 0xD83D] (by decide)
  exact ⟨hsame.mpr hpaired, hnone hlone⟩

/-- A class without members, to which the string of a single high surrogate is added. -/
def bareClass : ClassFile where
  name := "p/A"
  superName := none

theorem lone_surrogate_breaks_class :
    Fits bareClass ∧ ((writeBody bareClass).run {}).2.keys.length ≤ 65533
      ∧ ([0xD800].flatMap ModifiedUtf8.encodeUnit).length ≤ 65535
      ∧ decodeClass (encodeClass bareClass) = .ok bareClass
      ∧ decodeClass (addConstant (textEntry [0xD800]) (encodeClass bareClass))
        = .error (.invalidText .loneSurrogate) :=
  ⟨⟨by decide, by decide, by decide, by decide, by decide, by decide, by decide, by decide⟩,
    by decide, by decide, by decide +kernel, by decide +kernel⟩

end Linkage.Format

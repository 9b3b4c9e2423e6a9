import Linkage.Proofs.Format.Code

/-! Whatever instructions a method body has, those that refer to something are found, each at its
offset. -/
namespace Linkage.Format

deriving instance DecidableEq for Operands

/-- How many instructions in a row have which operands, in the order of their codes. -/
def instructionRuns : List (Nat × Operands) := [
  (16, .plain 0), -- nop, aconst_null, iconst_m1 to dconst_1
  (1, .plain 1), (1, .plain 2), -- bipush, sipush
  (1, .constant false), (1, .constant true), (1, .plain 2), -- ldc, ldc_w, ldc2_w
  (5, .plain 1), -- iload to aload
  (28, .plain 0), -- iload_0 to aload_3, iaload to saload
  (5, .plain 1), -- istore to astore
  (73, .plain 0), -- istore_0 to astore_3, iastore to sastore, pop to swap, iadd to lxor
  (1, .plain 2), -- iinc
  (20, .plain 0), -- i2l to i2s, lcmp to dcmpg
  (16, .plain 2), -- ifeq to if_acmpne, goto, jsr
  (1, .plain 1), -- ret
  (1, .tableSwitch), (1, .lookupSwitch),
  (6, .plain 0), -- ireturn to return
  (1, .member .getStatic), (1, .member .putStatic),
  (1, .member .getField), (1, .member .putField),
  (1, .member .invokeVirtual), (1, .member .invokeSpecial),
  (1, .member .invokeStatic), (1, .member .invokeInterface),
  (1, .plain 4), -- invokedynamic
  (1, .type .newObject 0), (1, .plain 1), (1, .type .newArray 0), -- new, newarray, anewarray
  (2, .plain 0), -- arraylength, athrow
  (1, .type .checkCast 0), (1, .type .instanceOf 0),
  (2, .plain 0), -- monitorenter, monitorexit
  (1, .widened), (1, .type .newMultiArray 1),
  (2, .plain 2), (2, .plain 4)] -- ifnull, ifnonnull, goto_w, jsr_w

/-- The operands of each instruction of the Java virtual machine, by its code. -/
def instructionSet : List Operands :=
  instructionRuns.flatMap fun (count, operands) => List.replicate count operands

/-- The instructions that can be widened, and how many bytes of operands they have then. -/
def wideForms : List (UInt8 × Nat) := [
  (0x15, 2), (0x16, 2), (0x17, 2), (0x18, 2), (0x19, 2), -- iload to aload
  (0x36, 2), (0x37, 2), (0x38, 2), (0x39, 2), (0x3A, 2), -- istore to astore
  (0x84, 4), (0xA9, 2)] -- iinc, ret

/-- What stands behind the code of an instruction, with what its index means. Bytes in the `gap` of
a switch are of no account. -/
inductive Arguments where
  | plain (bytes : List UInt8)
  /-- A constant by narrow index, with its name if it is a class. -/
  | narrow (index : UInt8) (type? : Option String)
  | wide (index : UInt16) (type? : Option String)
  | field (kind : InstructionKind) (index : UInt16) (m : MemberRef)
  | method (kind : InstructionKind) (index : UInt16) (ofInterface : Bool) (m : MemberRef)
      (extra : List UInt8)
  | type (kind : InstructionKind) (index : UInt16) (name : String) (extra : List UInt8)
  | tableSwitch (gap : List UInt8) (otherwise low high : Int32) (targets : List Int32)
  | lookupSwitch (gap : List UInt8) (otherwise : Int32) (targets : List (Int32 × Int32))
  | widened (code : UInt8) (bytes : List UInt8)

def int32Bytes (n : Int32) : List UInt8 := toBigEndian 4 n.toUInt32.toNat

namespace Arguments

def bytes : Arguments → List UInt8
  | .plain bytes => bytes
  | .narrow index _ => [index]
  | .wide index _ | .field _ index _ => toBigEndian 2 index.toNat
  | .method _ index _ _ extra | .type _ index _ extra => toBigEndian 2 index.toNat ++ extra
  | .tableSwitch gap otherwise low high targets =>
    gap ++ (int32Bytes otherwise ++ (int32Bytes low ++ (int32Bytes high
      ++ targets.flatMap int32Bytes)))
  | .lookupSwitch gap otherwise targets =>
    gap ++ (int32Bytes otherwise ++ (int32Bytes (Int32.ofNat targets.length)
      ++ targets.flatMap fun (key, target) => int32Bytes key ++ int32Bytes target))
  | .widened code bytes => code :: bytes

/-- The reference that an instruction with these arguments carries at its offset, of which 32 bits
are kept. -/
def reference? (offset : Nat) : Arguments → Option Instruction
  | .narrow _ type? | .wide _ type? =>
    type?.map fun name => ⟨.ofNat offset, .loadConstant, .type name, false⟩
  | .field kind _ m => some ⟨.ofNat offset, kind, .field m, false⟩
  | .method kind _ ofInterface m _ => some ⟨.ofNat offset, kind, .method m, ofInterface⟩
  | .type kind _ name _ => some ⟨.ofNat offset, kind, .type name, false⟩
  | .plain _ | .tableSwitch .. | .lookupSwitch .. | .widened .. => none

/-- What is loaded is a class of that name, or a constant that is no class. -/
def Loads (pool : Pool) (index : UInt16) : (type? : Option String) → Prop
  | some name => pool.Means index (.type name)
  | none => ∃ constant, pool.Holds index constant ∧ constant ≠ .unusable
      ∧ ∀ text, constant ≠ .type text

/-- The gap between the code of a switch and its table ends at the next multiple of four. -/
def Fills (offset : Nat) (gap : List UInt8) : Prop :=
  gap.length < 4 ∧ 4 ∣ offset + 1 + gap.length

/-- The arguments are operands of this kind at that offset, and their index means what they say. -/
inductive Suit (pool : Pool) (offset : Nat) : Operands → Arguments → Prop
  | plain (bytes : List UInt8) : Suit pool offset (.plain bytes.length) (.plain bytes)
  | narrow {index : UInt8} {type? : Option String} (h : Loads pool index.toUInt16 type?) :
      Suit pool offset (.constant false) (.narrow index type?)
  | wide {index : UInt16} {type? : Option String} (h : Loads pool index type?) :
      Suit pool offset (.constant true) (.wide index type?)
  | field {kind : InstructionKind} {index : UInt16} {m : MemberRef}
      (hkind : kind.isFieldAccess = true) (h : pool.Means index (.member .field m)) :
      Suit pool offset (.member kind) (.field kind index m)
  | method {kind : InstructionKind} {index : UInt16} {ofInterface : Bool} {m : MemberRef}
      {extra : List UInt8} (hkind : kind.isInvocation = true)
      (hextra : extra.length = if kind = .invokeInterface then 2 else 0)
      (h : pool.Means index (.member (if ofInterface then .interfaceMethod else .method) m)) :
      Suit pool offset (.member kind) (.method kind index ofInterface m extra)
  | type {kind : InstructionKind} {index : UInt16} {name : String} (extra : List UInt8)
      (h : pool.Means index (.type name)) :
      Suit pool offset (.type kind extra.length) (.type kind index name extra)
  | tableSwitch {gap : List UInt8} (otherwise : Int32) {low high : Int32} {targets : List Int32}
      (hgap : Fills offset gap) (hle : low ≤ high)
      (htargets : (targets.length : Int) = high.toInt - low.toInt + 1) :
      Suit pool offset .tableSwitch (.tableSwitch gap otherwise low high targets)
  | lookupSwitch {gap : List UInt8} (otherwise : Int32) {targets : List (Int32 × Int32)}
      (hgap : Fills offset gap) (htargets : targets.length < 2 ^ 31) :
      Suit pool offset .lookupSwitch (.lookupSwitch gap otherwise targets)
  | widened {code : UInt8} {bytes : List UInt8} (h : (code, bytes.length) ∈ wideForms) :
      Suit pool offset .widened (.widened code bytes)

end Arguments

/-- An instruction of a method body. -/
structure Bytecode where
  code : UInt8
  arguments : Arguments

namespace Bytecode

def bytes (b : Bytecode) : List UInt8 := b.code :: b.arguments.bytes

/-- The instruction has the operands that its code calls for. -/
def WellFormed (pool : Pool) (offset : Nat) (b : Bytecode) : Prop :=
  ∃ operands, instructionSet[b.code.toNat]? = some operands
    ∧ b.arguments.Suit pool offset operands

/-- Each of the instructions from an offset on is well formed where it stands. -/
def AllWellFormed (pool : Pool) : (offset : Nat) → List Bytecode → Prop
  | _, [] => True
  | offset, b :: bs =>
    b.WellFormed pool offset ∧ AllWellFormed pool (offset + b.bytes.length) bs

/-- The references of instructions one after the other, the first one at `offset`. -/
def references : (offset : Nat) → List Bytecode → List Instruction
  | _, [] => []
  | offset, b :: bs =>
    (b.arguments.reference? offset).toList ++ references (offset + b.bytes.length) bs

end Bytecode

theorem operandsOf_instructionSet {code : UInt8} {operands : Operands}
    (h : instructionSet[code.toNat]? = some operands) : Operands.of? code = some operands := by
  have hall : ∀ n < 202, Operands.of? (UInt8.ofNat n) = instructionSet[n]? := by decide +kernel
  have hlength : instructionSet.length = 202 := rfl
  obtain ⟨hlt, -⟩ := List.getElem?_eq_some_iff.mp h
  have hcode := hall code.toNat (hlength ▸ hlt)
  rwa [UInt8.ofNat_toNat, h] at hcode

theorem readI32_reads (position : Nat) (n : Int32) : Reads position readI32 (int32Bytes n) n := by
  have h := (readU32_reads position n.toUInt32.toNat n.toUInt32.toNat_lt).map UInt32.toInt32
  rwa [UInt32.ofNat_toNat, Int32.toInt32_toUInt32] at h

theorem length_int32Bytes (n : Int32) : (int32Bytes n).length = 4 := length_toBigEndian 4 _

theorem length_gap {offset : Nat} {gap : List UInt8} (h : Arguments.Fills offset gap) :
    gap.length = padding offset := by
  obtain ⟨hlt, hdvd⟩ := h
  unfold padding
  omega

section arguments

variable {pool : Pool} {offset : Nat}

theorem reads_loads (wide : Bool) {bytes : List UInt8} {index : UInt16} {position : Nat}
    (hindex : Reads position (if wide then readU16 else UInt8.toUInt16 <$> readU8) bytes index)
    {type? : Option String} (h : Arguments.Loads pool index type?) (method : String) :
    Reads position ((Operands.constant wide).read pool method offset) bytes
      (type?.map fun name => ⟨.ofNat offset, .loadConstant, .type name, false⟩) := by
  cases type? with
  | some name =>
    obtain ⟨text, htext⟩ : ∃ text, pool.Holds index (.type text) := by
      cases h with
      | type h _ => exact ⟨_, h⟩
    exact reads_typeConstant wide hindex (Pool.get_of_holds htext (by simp))
      (Pool.typeName_of_means h) method offset
  | none =>
    obtain ⟨constant, hholds, husable, hother⟩ := h
    exact reads_otherConstant wide hindex (Pool.get_of_holds hholds husable) hother method offset

theorem reads_tableSwitch {gap : List UInt8} (hgap : Arguments.Fills offset gap)
    (otherwise : Int32) {low high : Int32} (hle : low ≤ high) {targets : List Int32}
    (htargets : (targets.length : Int) = high.toInt - low.toInt + 1) (method : String) :
    Reads (offset + 1) (Operands.tableSwitch.read pool method offset)
      (Arguments.tableSwitch gap otherwise low high targets).bytes none := by
  have hcount : (targets.flatMap int32Bytes).length = (high.toInt - low.toInt + 1).toNat * 4 := by
    rw [← htargets, Int.toNat_natCast, List.length_flatMap]
    simp [length_int32Bytes]
  refine (skip_reads _ gap (length_gap hgap)).bind ?_
  refine (skip_reads _ _ (length_int32Bytes otherwise)).bind ?_
  refine (readI32_reads _ low).bind ((readI32_reads _ high).bind ?_)
  rw [if_neg (Int32.not_lt.mpr hle), ← List.append_nil (targets.flatMap _)]
  exact (skip_reads _ _ hcount).bind (Reads.pure none)

theorem reads_lookupSwitch {gap : List UInt8} (hgap : Arguments.Fills offset gap)
    (otherwise : Int32) {targets : List (Int32 × Int32)} (htargets : targets.length < 2 ^ 31)
    (method : String) :
    Reads (offset + 1) (Operands.lookupSwitch.read pool method offset)
      (Arguments.lookupSwitch gap otherwise targets).bytes none := by
  have hpairs : (Int32.ofNat targets.length).toInt = targets.length :=
    Int32.toInt_ofNat_of_lt htargets
  have hcount : (targets.flatMap fun (key, target) => int32Bytes key ++ int32Bytes target).length
      = (Int32.ofNat targets.length).toInt.toNat * 8 := by
    rw [hpairs, Int.toNat_natCast, List.length_flatMap]
    simp [length_int32Bytes]
  refine (skip_reads _ gap (length_gap hgap)).bind ?_
  refine (skip_reads _ _ (length_int32Bytes otherwise)).bind ?_
  refine (readI32_reads _ (Int32.ofNat targets.length)).bind ?_
  have hsign : ¬ Int32.ofNat targets.length < 0 := by
    rw [Int32.lt_iff_toInt_lt, hpairs]
    simp
  rw [if_neg hsign, ← List.append_nil (targets.flatMap _)]
  exact (skip_reads _ _ hcount).bind (Reads.pure none)

theorem reads_widened {code : UInt8} {bytes : List UInt8}
    (h : (code, bytes.length) ∈ wideForms) (method : String) (position : Nat) :
    Reads position (Operands.widened.read pool method offset) (code :: bytes) none := by
  have hlength : bytes.length = if code = 0x84 then 4 else 2 := by
    have hall : ∀ form ∈ wideForms, form.2 = if form.1 = 0x84 then 4 else 2 := by decide
    exact hall _ h
  refine Reads.byte ?_
  rw [← List.append_nil bytes]
  exact (skip_reads _ bytes hlength).bind (Reads.pure none)

/-- Arguments that suit the operands are read to their end. -/
theorem reads_arguments {operands : Operands} {arguments : Arguments}
    (h : arguments.Suit pool offset operands) (method : String) :
    Reads (offset + 1) (operands.read pool method offset) arguments.bytes
      (arguments.reference? offset) := by
  cases h with
  | plain bytes =>
    have hskip : Reads (offset + 1) ((Operands.plain bytes.length).read pool method offset)
        (bytes ++ []) none := (skip_reads _ bytes rfl).bind (Reads.pure none)
    rwa [List.append_nil] at hskip
  | narrow h =>
    exact reads_loads false ((readU8_reads _ _).map UInt8.toUInt16) h method
  | wide h => exact reads_loads true (readU16_reads_word _ _) h method
  | field hkind h => exact reads_fieldOperands (Pool.member_of_means h) hkind method offset _
  | method hkind hextra h =>
    exact reads_methodOperands (Pool.member_of_means h) hkind hextra method offset _
  | type extra h =>
    exact reads_typeOperands (Pool.typeName_of_means h) _ rfl method offset _
  | tableSwitch otherwise hgap hle htargets =>
    exact reads_tableSwitch hgap otherwise hle htargets method
  | lookupSwitch otherwise hgap htargets =>
    exact reads_lookupSwitch hgap otherwise htargets method
  | widened h => exact reads_widened h method _

end arguments

namespace Bytecode

variable {pool : Pool} {offset : Nat}

theorem reads {b : Bytecode} (h : b.WellFormed pool offset) (method : String) :
    Reads offset (readInstruction pool method) b.bytes (b.arguments.reference? offset) := by
  obtain ⟨operands, hset, hsuit⟩ := h
  exact readInstruction_reads (operandsOf_instructionSet hset) (reads_arguments hsuit method)

/-- From one instruction to the next, up to the end. -/
theorem readInstructions_eq {bs : List Bytecode} (h : AllWellFormed pool offset bs)
    (method : String) {fuel : Nat} (hfuel : bs.length ≤ fuel) : ∃ last,
      readInstructions pool method fuel ⟨offset, bs.flatMap bytes⟩
        = .ok (references offset bs, last) := by
  induction bs generalizing offset fuel with
  | nil => cases fuel <;> exact ⟨_, rfl⟩
  | cons b bs ih =>
    obtain ⟨hb, hbs⟩ := h
    obtain ⟨fuel, rfl⟩ : ∃ n, fuel = n + 1 := ⟨fuel - 1, by simp at hfuel; omega⟩
    have hshort : bs.length ≤ fuel := by simpa using hfuel
    obtain ⟨last, hlast⟩ := ih hbs hshort
    exact ⟨last, readInstructions_cons (reads hb method) (List.cons_ne_nil _ _) hlast⟩

theorem length_le_bytes (bs : List Bytecode) : bs.length ≤ (bs.flatMap bytes).length := by
  induction bs with
  | nil => exact Nat.zero_le 0
  | cons b bs ih =>
    simp only [List.flatMap_cons, List.length_append, List.length_cons, bytes]
    omega

theorem offset_of_mem_reference {arguments : Arguments} {i : Instruction}
    (h : i ∈ arguments.reference? offset) : i.offset = .ofNat offset := by
  cases arguments with
  | plain | tableSwitch | lookupSwitch | widened => cases h
  | narrow index type? | wide index type? =>
    obtain ⟨name, -, rfl⟩ := Option.map_eq_some_iff.mp h
    rfl
  | field | method | type =>
    cases h
    rfl

theorem length_front_lt (front : List Bytecode) (b : Bytecode) (back : List Bytecode) :
    (front.flatMap bytes).length < ((front ++ b :: back).flatMap bytes).length := by
  have hbytes : 0 < b.bytes.length := Nat.succ_pos _
  rw [List.flatMap_append, List.flatMap_cons, List.length_append, List.length_append]
  omega

/-- Each reference is that of one instruction of the body, where this stands. -/
theorem mem_references {bs : List Bytecode} {i : Instruction} (h : i ∈ references offset bs) :
    ∃ front b back, bs = front ++ b :: back
      ∧ i ∈ b.arguments.reference? (offset + (front.flatMap bytes).length) := by
  induction bs generalizing offset with
  | nil => simp [references] at h
  | cons b bs ih =>
    rcases List.mem_append.mp h with h | h
    · exact ⟨[], b, bs, rfl, by simpa using h⟩
    · obtain ⟨front, b', back, rfl, hi⟩ := ih h
      refine ⟨b :: front, b', back, rfl, ?_⟩
      rwa [List.flatMap_cons, List.length_append, ← Nat.add_assoc]

/-- The instruction is the reference of one instruction of a body, and its offset is the number of
bytes in front of that one, as far as this fits into 32 bits. -/
def CarriedAt (bs : List Bytecode) (i : Instruction) : Prop :=
  ∃ front b back, bs = front ++ b :: back
    ∧ b.arguments.reference? (front.flatMap bytes).length = some i
    ∧ i.offset = .ofNat (front.flatMap bytes).length
    ∧ ((bs.flatMap bytes).length ≤ 2 ^ 32 → i.offset.toNat = (front.flatMap bytes).length)

theorem carriedAt_of_mem {bs : List Bytecode} {i : Instruction} (h : i ∈ references 0 bs) :
    CarriedAt bs i := by
  obtain ⟨front, b, back, rfl, hi⟩ := mem_references h
  rw [Nat.zero_add] at hi
  have hoffset := offset_of_mem_reference hi
  refine ⟨front, b, back, rfl, hi, hoffset, fun hlength => ?_⟩
  rw [hoffset]
  exact UInt32.toNat_ofNat_of_lt' ((length_front_lt front b back).trans_le hlength)

/-- Of the instructions of a body, those that refer to something are found, each where it stands. -/
theorem decodeCode_eq_references {bs : List Bytecode} (h : AllWellFormed pool 0 bs)
    (method : String) :
    decodeCode (bs.flatMap bytes) pool method = .ok (references 0 bs)
      ∧ ∀ i ∈ references 0 bs, CarriedAt bs i ∧ i.offset.toNat < (bs.flatMap bytes).length := by
  constructor
  · obtain ⟨last, hlast⟩ := readInstructions_eq h method (length_le_bytes bs)
    unfold decodeCode Cursor.start
    rw [hlast]
    rfl
  · intro i hi
    have hcarried := carriedAt_of_mem hi
    refine ⟨hcarried, ?_⟩
    obtain ⟨front, b, back, rfl, -, hoffset, -⟩ := hcarried
    rw [hoffset, UInt32.toNat_ofNat']
    exact (Nat.mod_le _ _).trans_lt (length_front_lt front b back)

/-- A class, a field and an interface method of it, and a number. -/
def queuePool : Pool where
  slots := #[.unusable, .utf8 "Queue", .type 1, .utf8 "size", .utf8 "I", .nameAndType 3 4,
    .fieldRef 2 5, .utf8 "()I", .nameAndType 3 7, .interfaceMethodRef 2 8, .integer 7]

/-- References behind switches and a widened instruction; what fills a gap does not matter. -/
def queueBody : List Bytecode := [
  ⟨0x12, .narrow 2 (some "Queue")⟩,
  ⟨0xAA, .tableSwitch [0xFF] 0 (-1) 0 [22, 28]⟩,
  ⟨0xC4, .widened 0x84 [1, 0, 1, 0]⟩,
  ⟨0xB7, .method .invokeSpecial 9 true ⟨"Queue", "size", "()I"⟩ []⟩,
  ⟨0xAB, .lookupSwitch [0xB1, 0xB2] 19 [(5, 19)]⟩,
  ⟨0xB9, .method .invokeInterface 9 true ⟨"Queue", "size", "()I"⟩ [1, 0]⟩,
  ⟨0xC5, .type .newMultiArray 2 "Queue" [1]⟩,
  ⟨0x13, .wide 10 none⟩,
  ⟨0xB2, .field .getStatic 6 ⟨"Queue", "size", "I"⟩⟩,
  ⟨0xB1, .plain []⟩]

theorem decodeCode_queueBody : AllWellFormed queuePool 0 queueBody
    ∧ decodeCode (queueBody.flatMap bytes) queuePool "drain" = .ok [
      ⟨0, .loadConstant, .type "Queue", false⟩,
      ⟨30, .invokeSpecial, .method ⟨"Queue", "size", "()I"⟩, true⟩,
      ⟨52, .invokeInterface, .method ⟨"Queue", "size", "()I"⟩, true⟩,
      ⟨57, .newMultiArray, .type "Queue", false⟩,
      ⟨64, .getStatic, .field ⟨"Queue", "size", "I"⟩, false⟩] := by
  have htype : queuePool.Means 2 (.type "Queue") := .type rfl (.utf8 rfl)
  have hmethod : queuePool.Means 9 (.member .interfaceMethod ⟨"Queue", "size", "()I"⟩) :=
    .member rfl htype (.nameAndType rfl (.utf8 rfl) (.utf8 rfl))
  have hfield : queuePool.Means 6 (.member .field ⟨"Queue", "size", "I"⟩) :=
    .member rfl htype (.nameAndType rfl (.utf8 rfl) (.utf8 rfl))
  have hnumber : Arguments.Loads queuePool 10 none := ⟨.integer 7, rfl, by decide, by simp⟩
  have hbody : AllWellFormed queuePool 0 queueBody :=
    ⟨⟨_, rfl, .narrow htype⟩,
      ⟨_, rfl, .tableSwitch 0 ⟨by decide, by decide⟩ (by decide) (by decide)⟩,
      ⟨_, rfl, .widened (by decide)⟩,
      ⟨_, rfl, .method rfl rfl hmethod⟩,
      ⟨_, rfl, .lookupSwitch 19 ⟨by decide, by decide⟩ (by decide)⟩,
      ⟨_, rfl, .method rfl rfl hmethod⟩,
      ⟨_, rfl, .type [1] htype⟩,
      ⟨_, rfl, .wide hnumber⟩,
      ⟨_, rfl, .field rfl hfield⟩,
      ⟨_, rfl, .plain []⟩, trivial⟩
  exact ⟨hbody, (decodeCode_eq_references hbody "drain").1⟩

end Bytecode
end Linkage.Format

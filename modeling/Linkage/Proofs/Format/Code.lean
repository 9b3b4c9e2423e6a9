import Linkage.Proofs.Format.Writing

/-! Instructions are read from the bytes they were written as. -/
namespace Linkage

/-- The instructions one after the other, the first one at `offset`. -/
def Instruction.placed (offset : Nat) : List Instruction → List Instruction
  | [] => []
  | i :: rest => { i with offset := .ofNat offset } :: placed (offset + i.size) rest

theorem Instruction.one_le_size (i : Instruction) : 1 ≤ i.size := by
  unfold size
  split <;> omega

end Linkage

namespace Linkage.Format

theorem operandsOf_member {kind : InstructionKind}
    (h : kind.isFieldAccess = true ∨ kind.isInvocation = true) :
    Operands.of? kind.opcode = some (.member kind) := by
  cases kind <;> first | rfl | exact absurd h (by decide)

/-- An instruction is its code and the operands that the code calls for. -/
theorem readInstruction_reads {pool : Pool} {method : String} {position : Nat} {code : UInt8}
    {operands : Operands} {more : List UInt8} {answer : Option Instruction}
    (hcode : Operands.of? code = some operands)
    (h : Reads (position + 1) (operands.read pool method position) more answer) :
    Reads position (readInstruction pool method) (code :: more) answer := by
  unfold readInstruction
  refine Reads.bind_get fun rest => Reads.byte ?_
  rw [hcode]
  exact h

section operands

variable {pool : Pool} {index : UInt16}

theorem reads_typeOperands {name : String} (h : pool.typeName index = .ok name)
    (kind : InstructionKind) {extra : List UInt8} {n : Nat} (hn : extra.length = n)
    (method : String) (offset position : Nat) :
    Reads position ((Operands.type kind n).read pool method offset)
      (toBigEndian 2 index.toNat ++ extra) (some (.of kind (.type name) (.ofNat offset))) := by
  refine (readU16_reads_word position _).bind ?_
  rw [← List.append_nil extra]
  refine (skip_reads _ extra hn).bind ?_
  exact Reads.bind_lift h (Reads.pure _)

/-- Narrow or wide, it is the constant at the index that decides. -/
theorem read_constantOperands (pool : Pool) (method : String) (offset : Nat) (wide : Bool) :
    (Operands.constant wide).read pool method offset
      = (if wide then readU16 else UInt8.toUInt16 <$> readU8) >>= fun index => do
        match ← pool.get index with
        | .type _ => return some (.of .loadConstant (.type (← pool.typeName index)) (.ofNat offset))
        | _ => return none := by
  cases wide <;> rfl

variable (wide : Bool) {bytes : List UInt8} {position : Nat}

theorem reads_typeConstant
    (hindex : Reads position (if wide then readU16 else UInt8.toUInt16 <$> readU8) bytes index)
    {text : UInt16} {name : String} (hget : pool.get index = .ok (.type text))
    (h : pool.typeName index = .ok name) (method : String) (offset : Nat) :
    Reads position ((Operands.constant wide).read pool method offset) bytes
      (some (.of .loadConstant (.type name) (.ofNat offset))) := by
  rw [read_constantOperands, ← List.append_nil bytes]
  refine hindex.bind (Reads.bind_lift hget ?_)
  exact Reads.bind_lift h (Reads.pure _)

/-- A constant that is no class is passed over. -/
theorem reads_otherConstant
    (hindex : Reads position (if wide then readU16 else UInt8.toUInt16 <$> readU8) bytes index)
    {constant : Constant} (hget : pool.get index = .ok constant)
    (hother : ∀ text, constant ≠ .type text) (method : String) (offset : Nat) :
    Reads position ((Operands.constant wide).read pool method offset) bytes none := by
  rw [read_constantOperands, ← List.append_nil bytes]
  refine hindex.bind (Reads.bind_lift hget ?_)
  split
  · next text => exact absurd rfl (hother text)
  · exact Reads.pure none

theorem reads_fieldOperands {m : MemberRef} (h : pool.member index = .ok (.field, m))
    {kind : InstructionKind} (hkind : kind.isFieldAccess = true) (method : String)
    (offset position : Nat) :
    Reads position ((Operands.member kind).read pool method offset) (toBigEndian 2 index.toNat)
      (some (.of kind (.field m) (.ofNat offset))) := by
  have hinterface : kind ≠ .invokeInterface := by
    rintro rfl
    exact absurd hkind (by decide)
  rw [← List.append_nil (toBigEndian _ _)]
  refine (readU16_reads_word position _).bind ?_
  rw [if_neg hinterface]
  refine Reads.bind_lift h ?_
  dsimp only
  rw [hkind]
  exact Reads.pure _

theorem reads_methodOperands {m : MemberRef} {interfaceOwner : Bool}
    (h : pool.member index = .ok (if interfaceOwner then .interfaceMethod else .method, m))
    {kind : InstructionKind} (hkind : kind.isInvocation = true) {extra : List UInt8}
    (hextra : extra.length = if kind = .invokeInterface then 2 else 0) (method : String)
    (offset position : Nat) :
    Reads position ((Operands.member kind).read pool method offset)
      (toBigEndian 2 index.toNat ++ extra)
      (some ⟨.ofNat offset, kind, .method m, interfaceOwner⟩) := by
  refine (readU16_reads_word position _).bind ?_
  by_cases hinterface : kind = .invokeInterface
  · rw [if_pos hinterface] at hextra ⊢
    rw [← List.append_nil extra]
    refine (skip_reads _ extra hextra).bind ?_
    subst hinterface
    cases interfaceOwner <;> exact Reads.bind_lift h (Reads.pure _)
  · rw [if_neg hinterface] at hextra ⊢
    rw [List.eq_nil_of_length_eq_zero hextra]
    refine Reads.bind_lift h ?_
    cases interfaceOwner <;> dsimp only <;> rw [hkind] <;> exact Reads.pure _

end operands

theorem reads_instruction {final : PoolBuilder} (hfinal : final.Sound) {i : Instruction}
    (hfits : i.Fits) (hkey : instructionKey i ∈ final.keys) (method : String) (position : Nat) :
    Reads position (readInstruction final.decoded method) (instructionBytes final i)
      (some { i with offset := .ofNat position }) := by
  obtain ⟨offset, kind, reference, interfaceOwner⟩ := i
  cases reference with
  | type name =>
    obtain ⟨hfield, hinvocation, howner⟩ := hfits
    dsimp only at hfield hinvocation howner
    subst howner
    have hname := PoolBuilder.typeName_decoded hfinal hkey
    cases kind with
    | newObject | newArray | checkCast | instanceOf | newMultiArray =>
      exact readInstruction_reads rfl (reads_typeOperands hname _ rfl method position _)
    | loadConstant =>
      have hget := PoolBuilder.get_decoded hfinal hkey
      have hindex := readU16_reads_word (position + 1) (final.indexOf (.type name))
      exact readInstruction_reads rfl
        (reads_typeConstant true hindex hget hname method position)
    | getStatic | putStatic | getField | putField => exact absurd hfield (by decide)
    | invokeVirtual | invokeSpecial | invokeStatic | invokeInterface =>
      exact absurd hinvocation (by decide)
  | field m =>
    obtain ⟨hfield, howner⟩ := hfits
    dsimp only at hfield howner
    subst howner
    have hmember := PoolBuilder.member_decoded hfinal hkey
    have htail : operandTail kind = [] := by
      cases kind <;> first | rfl | exact absurd hfield (by decide)
    have hbytes : instructionBytes final ⟨offset, kind, .field m, false⟩
        = kind.opcode :: final.reference (.member .field m) := by
      rw [instructionBytes, htail, List.append_nil]
      rfl
    rw [hbytes]
    exact readInstruction_reads (operandsOf_member (Or.inl hfield))
      (reads_fieldOperands hmember hfield method position _)
  | method m =>
    have hmember := PoolBuilder.member_decoded hfinal hkey
    have hkind : kind.isInvocation = true := hfits
    have htail : (operandTail kind).length = if kind = .invokeInterface then 2 else 0 := by
      cases kind <;> first | rfl | exact absurd hkind (by decide)
    exact readInstruction_reads (operandsOf_member (Or.inr hkind))
      (reads_methodOperands hmember hkind htail method position _)

/-- Code ends with a return, which refers to nothing. -/
theorem readInstructions_return (pool : Pool) (method : String) (fuel position : Nat) :
    readInstructions pool method (fuel + 1) ⟨position, [0xB1]⟩ = .ok ([], ⟨position + 1, []⟩) := by
  cases fuel <;> rfl

/-- A body is read one instruction after the other. -/
theorem readInstructions_cons {pool : Pool} {method : String} {position fuel : Nat}
    {bytes rest : List UInt8} {answer : Option Instruction} {is : List Instruction} {last : Cursor}
    (first : Reads position (readInstruction pool method) bytes answer) (hbytes : bytes ≠ [])
    (hrest : readInstructions pool method fuel ⟨position + bytes.length, rest⟩ = .ok (is, last)) :
    readInstructions pool method (fuel + 1) ⟨position, bytes ++ rest⟩
      = .ok (answer.toList ++ is, last) := by
  have hmore : (bytes ++ rest).isEmpty = false := by simp [hbytes]
  have hread : readInstructions pool method (fuel + 1) ⟨position, bytes ++ rest⟩
      = (readInstruction pool method ⟨position, bytes ++ rest⟩ >>= fun found =>
        readInstructions pool method fuel found.2 >>= fun others =>
          Pure.pure (found.1.toList ++ others.1, others.2)) := by
    change (if (bytes ++ rest).isEmpty = true then (Pure.pure [] : Decoder (List Instruction))
      else _) _ = _
    rw [hmore]
    rfl
  rw [hread, first]
  change (readInstructions pool method fuel ⟨position + bytes.length, rest⟩ >>= _) = _
  rw [hrest]
  rfl

theorem readInstructions_written {final : PoolBuilder} (hfinal : final.Sound) (method : String)
    {is : List Instruction} (hfits : ∀ i ∈ is, i.Fits)
    (hkeys : ∀ i ∈ is, instructionKey i ∈ final.keys) {fuel : Nat} (hfuel : is.length < fuel)
    (position : Nat) : ∃ last,
      readInstructions final.decoded method fuel
        ⟨position, is.flatMap (instructionBytes final) ++ [0xB1]⟩
      = .ok (Instruction.placed position is, last) := by
  obtain ⟨fuel, rfl⟩ : ∃ n, fuel = n + 1 := ⟨fuel - 1, by omega⟩
  induction is generalizing fuel position with
  | nil => exact ⟨_, readInstructions_return final.decoded method fuel position⟩
  | cons i is ih =>
    obtain ⟨fuel, rfl⟩ : ∃ n, fuel = n + 1 := ⟨fuel - 1, by simp at hfuel; omega⟩
    have hfirst := reads_instruction hfinal (hfits i List.mem_cons_self)
      (hkeys i List.mem_cons_self) method position
    obtain ⟨last, hlast⟩ := ih (fun i' h => hfits i' (List.mem_cons_of_mem i h))
      (fun i' h => hkeys i' (List.mem_cons_of_mem i h)) (position + i.size) fuel
      (by simpa using hfuel)
    refine ⟨last, ?_⟩
    rw [← length_instructionBytes final i] at hlast
    rw [List.flatMap_cons, List.append_assoc]
    rw [readInstructions_cons hfirst (List.cons_ne_nil _ _) hlast, length_instructionBytes]
    rfl

/-- The body of a `Code` attribute, read within the bytes of the attribute. -/
theorem reads_codeBody {final : PoolBuilder} (hfinal : final.Sound) (method : String)
    {is : List Instruction} (hfits : ∀ i ∈ is, i.Fits)
    (hkeys : ∀ i ∈ is, instructionKey i ∈ final.keys)
    (hsize : (is.map Instruction.size).sum + 1 < 2 ^ 32) (position : Nat) :
    Reads position
      ((readCodeBody final.decoded method).within
        (codeBody (is.flatMap (instructionBytes final)))) []
      (Instruction.placed 0 is) := by
  let code := is.flatMap (instructionBytes final)
  have hlength : code.length = (is.map Instruction.size).sum := by
    simp [code, List.length_flatMap, length_instructionBytes]
  have hshort : is.length < code.length + 1 := by
    have hcount := List.length_le_sum_of_one_le (is.map Instruction.size) fun n hn => by
      obtain ⟨i, -, rfl⟩ := List.mem_map.mp hn
      exact Instruction.one_le_size i
    rw [List.length_map, ← hlength] at hcount
    exact Nat.lt_succ_of_le hcount
  obtain ⟨last, hlast⟩ := readInstructions_written hfinal method hfits hkeys hshort 0
  have hdecode : decodeCode (code ++ [0xB1]) final.decoded method
      = .ok (Instruction.placed 0 is) := by
    unfold decodeCode
    rw [List.length_append, List.length_singleton, Cursor.start, hlast]
    rfl
  have hbody : codeBody code = (toBigEndian 2 16 ++ toBigEndian 2 16)
      ++ (toBigEndian 4 (code.length + 1) ++ (code ++ [0xB1])) ++ [0, 0, 0, 0] := by
    simp [codeBody]
  rw [hbody]
  have hskip : Reads 0 (skip 4) (toBigEndian 2 16 ++ toBigEndian 2 16) () := skip_reads 0 _ rfl
  refine Reads.within (hskip.bind ((readU32_reads _ _ (by omega)).bind ?_))
  have hcount : (UInt32.ofNat (code.length + 1)).toNat = (code ++ [0xB1]).length := by
    rw [List.length_append, List.length_singleton]
    exact UInt32.toNat_ofNat_of_lt' (show _ < 4294967296 by omega)
  rw [← List.append_nil (code ++ [0xB1]), hcount]
  exact (takeBytes_reads _ _ rfl).bind (Reads.lift hdecode)

end Linkage.Format

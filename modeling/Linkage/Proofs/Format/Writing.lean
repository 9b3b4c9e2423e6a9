import Linkage.Proofs.Format.Pool

/-! What the parts of a class file add to the pool, and their bytes once the pool is done. -/
namespace Linkage

/-- The instructions that are written: abstract and native methods have none. -/
def Method.body (m : Method) : List Instruction :=
  if m.access.hasNoBody then [] else m.instructions

end Linkage

namespace Linkage.Format

variable {α β : Type}

/-- The two bytes that refer to a constant. -/
def PoolBuilder.reference (pool : PoolBuilder) (key : PoolKey) : List UInt8 :=
  toBigEndian 2 (pool.indexOf key).toNat

@[simp] theorem length_reference (pool : PoolBuilder) (key : PoolKey) :
    (pool.reference key).length = 2 :=
  length_toBigEndian 2 _

/-- The encoder adds the constants `keys`, and its answer is already the one that the finished pool
gives. -/
structure Encodes (encoder : Encoder α) (keys : List PoolKey) (value : PoolBuilder → α) :
    Prop where
  pool : ∀ pool, (encoder.run pool).2 = pool.internAll keys
  answer : ∀ pool final, (pool.internAll keys).keys <+: final.keys →
    (encoder.run pool).1 = value final

namespace Encodes

protected theorem pure (a : α) : Encodes (Pure.pure a) [] fun _ => a where
  pool _ := rfl
  answer _ _ _ := rfl

protected theorem bind {encoder : Encoder α} {next : α → Encoder β} {keys more : List PoolKey}
    {value : PoolBuilder → α} {last : α → PoolBuilder → β} (first : Encodes encoder keys value)
    (second : ∀ a, Encodes (next a) more (last a)) :
    Encodes (encoder >>= next) (keys ++ more) fun final => last (value final) final := by
  have hrun (pool : PoolBuilder) : (encoder >>= next).run pool
      = (next (encoder.run pool).1).run (pool.internAll keys) := by
    rw [← first.pool pool]
    rfl
  constructor
  · intro pool
    rw [hrun, (second _).pool, PoolBuilder.internAll_append]
  · intro pool final hprefix
    rw [PoolBuilder.internAll_append] at hprefix
    have hfront := (PoolBuilder.prefix_internAll _ more).trans hprefix
    rw [hrun, (second _).answer _ final hprefix, first.answer pool final hfront]

/-- The last step only puts the answer together. -/
protected theorem map {encoder : Encoder α} {keys : List PoolKey} {value : PoolBuilder → α}
    (h : Encodes encoder keys value) (f : α → β) :
    Encodes (encoder >>= fun a => Pure.pure (f a)) keys fun final => f (value final) := by
  have hbind := h.bind fun a => Encodes.pure (f a)
  rwa [List.append_nil] at hbind

end Encodes

/-- The reference that is written at once is the one of the finished pool. -/
theorem encodes_writeIndex (key : PoolKey) :
    Encodes (writeIndex key) [key] (·.reference key) where
  pool _ := rfl
  answer pool final hprefix := by
    have hindex := PoolBuilder.indexOf_eq_of_prefix hprefix (PoolBuilder.mem_intern pool key)
    unfold PoolBuilder.reference
    rw [hindex]
    rfl

theorem encodes_writeAll {write : α → Encoder (List UInt8)} {keys : α → List PoolKey}
    {bytes : PoolBuilder → α → List UInt8}
    (h : ∀ a, Encodes (write a) (keys a) fun final => bytes final a) (as : List α) :
    Encodes (writeAll write as) (as.flatMap keys) fun final => as.flatMap (bytes final) := by
  induction as with
  | nil => exact Encodes.pure []
  | cons a as ih => exact (h a).bind fun first => ih.map fun rest => first ++ rest

/-- The number of elements, and their bytes. -/
def tableBytes (bytes : α → List UInt8) (as : List α) : List UInt8 :=
  toBigEndian 2 as.length ++ as.flatMap bytes

theorem encodes_writeTable {write : α → Encoder (List UInt8)} {keys : α → List PoolKey}
    {bytes : PoolBuilder → α → List UInt8}
    (h : ∀ a, Encodes (write a) (keys a) fun final => bytes final a) (as : List α) :
    Encodes (writeTable write as) (as.flatMap keys) fun final => tableBytes (bytes final) as :=
  (encodes_writeAll h as).map fun rest => toBigEndian 2 as.length ++ rest

/-- The reference to a class of that name. -/
def typeBytes (final : PoolBuilder) (name : String) : List UInt8 := final.reference (.type name)

theorem encodes_writeTypeName (name : String) :
    Encodes (writeTypeName name) [.type name] fun final => typeBytes final name :=
  encodes_writeIndex (.type name)

/-- The bytes that stand after the reference of an instruction. -/
def operandTail : InstructionKind → List UInt8
  | .invokeInterface => [1, 0]
  | .newMultiArray => [1]
  | _ => []

def instructionBytes (final : PoolBuilder) (i : Instruction) : List UInt8 :=
  i.kind.opcode :: final.reference (instructionKey i) ++ operandTail i.kind

theorem encodes_writeInstruction (i : Instruction) :
    Encodes (writeInstruction i) [instructionKey i] fun final => instructionBytes final i :=
  (encodes_writeIndex (instructionKey i)).map fun index =>
    i.kind.opcode :: index ++ operandTail i.kind

theorem length_instructionBytes (final : PoolBuilder) (i : Instruction) :
    (instructionBytes final i).length = i.size := by
  unfold instructionBytes Instruction.size
  rw [List.length_append, List.length_cons, length_reference]
  cases i.kind <;> rfl

/-- Access flags, name and descriptor: how each member begins. -/
def headBytes (final : PoolBuilder) (access : AccessFlags) (name descriptor : String) :
    List UInt8 :=
  toBigEndian 2 access.bits.toNat ++ final.reference (.utf8 name)
    ++ final.reference (.utf8 descriptor)

def fieldBytes (final : PoolBuilder) (f : Field) : List UInt8 :=
  headBytes final f.access f.name f.descriptor ++ [0, 0]

theorem encodes_writeField (f : Field) :
    Encodes (writeField f) [.utf8 f.name, .utf8 f.descriptor] fun final => fieldBytes final f :=
  (encodes_writeIndex (.utf8 f.name)).bind fun name =>
    (encodes_writeIndex (.utf8 f.descriptor)).map fun descriptor =>
      toBigEndian 2 f.access.bits.toNat ++ name ++ descriptor ++ [0, 0]

def methodKeys (m : Method) : List PoolKey :=
  .utf8 m.name :: .utf8 m.descriptor ::
    if m.access.hasNoBody then [] else m.body.map instructionKey ++ [.utf8 "Code"]

def methodBytes (final : PoolBuilder) (m : Method) : List UInt8 :=
  headBytes final m.access m.name m.descriptor ++
    if m.access.hasNoBody then [0, 0]
    else 0 :: 1 :: attributeBytes (final.reference (.utf8 "Code"))
      (codeBody (m.body.flatMap (instructionBytes final)))

theorem encodes_writeMethod (m : Method) :
    Encodes (writeMethod m) (methodKeys m) fun final => methodBytes final m := by
  unfold writeMethod methodKeys methodBytes Method.body
  cases m.access.hasNoBody
  · have hcode := encodes_writeAll encodes_writeInstruction m.instructions
    rw [← List.map_eq_flatMap] at hcode
    exact (encodes_writeIndex (.utf8 m.name)).bind fun name =>
      (encodes_writeIndex (.utf8 m.descriptor)).bind fun descriptor =>
        hcode.bind fun code => (encodes_writeIndex (.utf8 "Code")).map fun codeName =>
          toBigEndian 2 m.access.bits.toNat ++ name ++ descriptor ++ [0, 1]
            ++ attributeBytes codeName (codeBody code)
  · exact (encodes_writeIndex (.utf8 m.name)).bind fun name =>
      (encodes_writeIndex (.utf8 m.descriptor)).map fun descriptor =>
        toBigEndian 2 m.access.bits.toNat ++ name ++ descriptor ++ [0, 0]

def hostKeys : Option String → List PoolKey
  | none => []
  | some host => [.utf8 "NestHost", .type host]

def memberKeys (members : List String) : List PoolKey :=
  if members.isEmpty then [] else .utf8 "NestMembers" :: members.map .type

/-- The attribute that names the host of a nest, if there is one. -/
def hostAttributes (final : PoolBuilder) : Option String → List (List UInt8)
  | none => []
  | some host => [attributeBytes (final.reference (.utf8 "NestHost")) (typeBytes final host)]

/-- The attribute that names the members of a nest, if there are any. -/
def memberAttributes (final : PoolBuilder) (members : List String) : List (List UInt8) :=
  if members.isEmpty then []
  else [attributeBytes (final.reference (.utf8 "NestMembers"))
    (tableBytes (typeBytes final) members)]

def nestAttributes (final : PoolBuilder) (c : ClassFile) : List (List UInt8) :=
  hostAttributes final c.nestHost ++ memberAttributes final c.nestMembers

theorem length_nestAttributes_le (final : PoolBuilder) (c : ClassFile) :
    (nestAttributes final c).length ≤ 2 := by
  unfold nestAttributes hostAttributes memberAttributes
  cases c.nestHost <;> cases c.nestMembers.isEmpty <;> simp

private theorem encodes_types (names : List String) :
    Encodes (writeTable writeTypeName names) (names.map .type)
      fun final => tableBytes (typeBytes final) names := by
  rw [List.map_eq_flatMap]
  exact encodes_writeTable encodes_writeTypeName names

theorem encodes_writeNest (c : ClassFile) :
    Encodes (writeNest c) (hostKeys c.nestHost ++ memberKeys c.nestMembers)
      fun final => nestAttributes final c := by
  unfold writeNest memberKeys nestAttributes memberAttributes
  have hmembers (host : List (List UInt8)) : Encodes
      (do
        let members ←
          if c.nestMembers.isEmpty then pure []
          else
            let name ← writeIndex (.utf8 "NestMembers")
            pure [attributeBytes name (← writeTable writeTypeName c.nestMembers)]
        return host ++ members)
      (if c.nestMembers.isEmpty then [] else .utf8 "NestMembers" :: c.nestMembers.map .type)
      (fun final => host ++ if c.nestMembers.isEmpty then []
        else [attributeBytes (final.reference (.utf8 "NestMembers"))
          (tableBytes (typeBytes final) c.nestMembers)]) := by
    cases c.nestMembers.isEmpty
    · exact (encodes_writeIndex (.utf8 "NestMembers")).bind fun name =>
        (encodes_types c.nestMembers).map fun members => host ++ [attributeBytes name members]
    · exact Encodes.pure (host ++ [])
  cases c.nestHost with
  | none => exact hmembers []
  | some host =>
    exact (encodes_writeIndex (.utf8 "NestHost")).bind fun name =>
      (encodes_writeTypeName host).bind fun host => hmembers [attributeBytes name host]

/-- The constants of a class, in the order in which they are asked for. -/
def classKeys (c : ClassFile) : List PoolKey :=
  .type c.name :: (c.superName.toList.map .type ++ (c.interfaces.map .type
    ++ (c.fields.flatMap (fun f => [.utf8 f.name, .utf8 f.descriptor])
    ++ (c.methods.flatMap methodKeys ++ (hostKeys c.nestHost ++ memberKeys c.nestMembers)))))

/-- Everything after the constant pool. -/
def bodyBytes (final : PoolBuilder) (c : ClassFile) : List UInt8 :=
  toBigEndian 2 c.access.bits.toNat ++ typeBytes final c.name
    ++ c.superName.elim [0, 0] (typeBytes final) ++ tableBytes (typeBytes final) c.interfaces
    ++ tableBytes (fieldBytes final) c.fields ++ tableBytes (methodBytes final) c.methods
    ++ toBigEndian 2 (nestAttributes final c).length ++ (nestAttributes final c).flatten

theorem encodes_writeBody (c : ClassFile) :
    Encodes (writeBody c) (classKeys c) fun final => bodyBytes final c := by
  unfold writeBody classKeys bodyBytes
  have hrest (front : List UInt8) : Encodes
      (do
        let interfaces ← writeTable writeTypeName c.interfaces
        let fields ← writeTable writeField c.fields
        let methods ← writeTable writeMethod c.methods
        let nest ← writeNest c
        return front ++ interfaces ++ fields ++ methods
          ++ toBigEndian 2 nest.length ++ nest.flatten)
      (c.interfaces.map .type ++ (c.fields.flatMap (fun f => [.utf8 f.name, .utf8 f.descriptor])
        ++ (c.methods.flatMap methodKeys
        ++ (hostKeys c.nestHost ++ memberKeys c.nestMembers))))
      (fun final => front ++ tableBytes (typeBytes final) c.interfaces
        ++ tableBytes (fieldBytes final) c.fields ++ tableBytes (methodBytes final) c.methods
        ++ toBigEndian 2 (nestAttributes final c).length ++ (nestAttributes final c).flatten) :=
    (encodes_types c.interfaces).bind fun interfaces =>
      (encodes_writeTable encodes_writeField c.fields).bind fun fields =>
        (encodes_writeTable encodes_writeMethod c.methods).bind fun methods =>
          (encodes_writeNest c).map fun nest => front ++ interfaces ++ fields ++ methods
            ++ toBigEndian 2 nest.length ++ nest.flatten
  cases c.superName with
  | none =>
    exact (encodes_writeTypeName c.name).bind fun name =>
      hrest (toBigEndian 2 c.access.bits.toNat ++ name ++ [0, 0])
  | some s =>
    exact (encodes_writeTypeName c.name).bind fun name =>
      (encodes_writeTypeName s).bind fun superName =>
        hrest (toBigEndian 2 c.access.bits.toNat ++ name ++ superName)

end Linkage.Format

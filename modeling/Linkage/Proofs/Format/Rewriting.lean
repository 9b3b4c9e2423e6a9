import Linkage.Proofs.Format.Answers

/-! Every class that is read can be written again. -/
namespace Linkage.Format

def WritableField (f : Field) : Prop := FitsConstant f.name ∧ FitsConstant f.descriptor

structure WritableMethod (m : Method) : Prop where
  name : FitsConstant m.name
  descriptor : FitsConstant m.descriptor
  code : WritableCode m.instructions

/-- All that a class has to have for it to be written, but for the room that its constants, its
nest and its code take as a whole. -/
structure WritableClass (c : ClassFile) : Prop where
  name : FitsConstant c.name
  superName : ∀ s ∈ c.superName, FitsConstant s
  interfaces : c.interfaces.length ≤ 65535 ∧ ∀ i ∈ c.interfaces, FitsConstant i
  fields : c.fields.length ≤ 65535 ∧ ∀ f ∈ c.fields, WritableField f
  methods : c.methods.length ≤ 65535 ∧ ∀ m ∈ c.methods, WritableMethod m
  nestHost : ∀ host ∈ c.nestHost, FitsConstant host
  nestMembers : ∀ member ∈ c.nestMembers, FitsConstant member

section Reading

variable {pool : Pool} (hpool : pool.TextsFit)
include hpool

theorem answers_readTypeName : Answers (readTypeName pool) FitsConstant :=
  .after fun index => .lift (Pool.fits_typeName hpool index)

theorem answers_readField : Answers (readField pool) WritableField :=
  .after fun _ => .indexed (Pool.fits_utf8 hpool) fun _ hname =>
    .indexed (Pool.fits_utf8 hpool) fun _ hdescriptor =>
      .after fun _ => .after fun _ => .pure ⟨hname, hdescriptor⟩

/-- Four bytes hold the length of the code, so that its offsets fit into as many. -/
theorem answers_readCodeBody (method : String) : Answers (readCodeBody pool method) WritableCode :=
  .after fun _ => .after fun length => (answers_takeBytes _).bind fun _ hlength =>
    .lift (decodeCode_writable hpool (hlength.trans_le length.toNat_lt.le))

/-- Whichever body of a method is the last one. -/
theorem answers_readMethodAttributes (method : String) (n : Nat) {is : List Instruction}
    (his : WritableCode is) : Answers (readMethodAttributes pool method n is) WritableCode := by
  induction n generalizing is with
  | zero => exact .pure his
  | succ n ih =>
    refine .after fun _ => .ite ?_ (ih his)
    exact ((answers_readCodeBody hpool method).within _).bind fun body hbody => ih hbody

theorem answers_readMethod : Answers (readMethod pool) WritableMethod :=
  .after fun _ => .indexed (Pool.fits_utf8 hpool) fun _ hname =>
    .indexed (Pool.fits_utf8 hpool) fun _ hdescriptor => .after fun _ =>
      (answers_readMethodAttributes hpool _ _ .nil).bind fun _ hcode =>
        .pure ⟨hname, hdescriptor, hcode⟩

def WritableNest (nest : Nest) : Prop :=
  (∀ host ∈ nest.host, FitsConstant host) ∧ ∀ member ∈ nest.members, FitsConstant member

/-- However often members are listed. -/
theorem answers_readClassAttributes (n : Nat) {nest : Nest} (hnest : WritableNest nest) :
    Answers (readClassAttributes pool n nest) WritableNest := by
  induction n generalizing nest with
  | zero => exact .pure hnest
  | succ n ih =>
    obtain ⟨hhost, hmembers⟩ := hnest
    refine .after fun _ => .ite ?_ (.ite ?_ (ih ⟨hhost, hmembers⟩))
    · refine ((answers_readTypeName hpool).within _).bind fun host hhost => ih ⟨?_, hmembers⟩
      rintro _ ⟨⟩
      exact hhost
    · have hread : Answers (do repeatDecoder (readTypeName pool) (← readU16).toNat)
          fun members => ∀ member ∈ members, FitsConstant member :=
        .after fun count => fun _ _ _ h => (((answers_readTypeName hpool).repeat _) _ _ _ h).2
      refine (hread.within _).bind fun members hmore => ih ⟨hhost, ?_⟩
      exact List.forall_mem_append.mpr ⟨hmembers, hmore⟩

end Reading

theorem answers_readClass : Answers readClass WritableClass := by
  refine .after fun found => .ite (.throw_bind _ _) ?_
  refine .after fun _ => .after fun major => Pool.answers_read.bind fun pool hpool => ?_
  refine .after fun access => (answers_readTypeName hpool).bind fun name hname => ?_
  refine .after fun index => .optional index (Pool.fits_typeName hpool index) fun _ hsuper => ?_
  refine (answers_readTypeName hpool).table fun interfaces hinterfaces hnames => ?_
  refine (answers_readField hpool).table fun fields hfields hfieldTexts => ?_
  refine (answers_readMethod hpool).table fun methods hmethods hmethodTexts => ?_
  refine .after fun count => ?_
  have hempty : WritableNest {} := ⟨by simp, by simp⟩
  have hnest := answers_readClassAttributes hpool count.toNat hempty
  exact hnest.bind fun nest ⟨hhost, hmembers⟩ => .pure ⟨hname, hsuper,
    ⟨hinterfaces, hnames⟩, ⟨hfields, hfieldTexts⟩, ⟨hmethods, hmethodTexts⟩, hhost, hmembers⟩

theorem WritableMethod.body {m : Method} (h : WritableMethod m) :
    ∀ i ∈ m.body, WritableInstruction i := by
  intro i hi
  unfold Method.body at hi
  split at hi
  · exact absurd hi List.not_mem_nil
  · exact h.code.instructions i hi

theorem WritableMethod.texts {m : Method} (h : WritableMethod m) :
    ∀ text ∈ m.texts, FitsConstant text := by
  have hbody : ∀ text ∈ m.body.flatMap (·.reference.texts), FitsConstant text :=
    List.forall_mem_flatMap.mpr fun i hi => (h.body i hi).2
  exact List.forall_mem_cons.mpr ⟨h.name, List.forall_mem_cons.mpr ⟨h.descriptor, hbody⟩⟩

theorem WritableClass.texts {c : ClassFile} (h : WritableClass c) :
    ∀ text ∈ c.texts, FitsConstant text := by
  have hfields : ∀ text ∈ c.fields.flatMap (fun f => [f.name, f.descriptor]),
      FitsConstant text := by
    refine List.forall_mem_flatMap.mpr fun f hf => ?_
    obtain ⟨hname, hdescriptor⟩ := h.fields.2 f hf
    simp [hname, hdescriptor]
  have hmethods : ∀ text ∈ c.methods.flatMap Method.texts, FitsConstant text :=
    List.forall_mem_flatMap.mpr fun m hm => (h.methods.2 m hm).texts
  unfold ClassFile.texts
  simp only [List.forall_mem_cons, List.forall_mem_append, Option.mem_toList]
  exact ⟨h.name, ⟨⟨⟨⟨h.superName, h.interfaces.2⟩, hfields⟩, hmethods⟩, h.nestHost⟩, h.nestMembers⟩

/-- What was read can be written, but for the room that its constants, its nest and its code take
as a whole. -/
theorem WritableClass.fits {c : ClassFile} (h : WritableClass c)
    (hconstants : ((writeBody c).run {}).2.keys.length ≤ 65534)
    (hmembers : c.nestMembers.length ≤ 65535)
    (hcode : ∀ m ∈ c.methods, (m.body.map Instruction.size).sum + 1 < 2 ^ 32 - 12) : Fits c where
  instructions m hm i hi := ((h.methods.2 m hm).body i hi).1
  texts := h.texts
  constants := hconstants
  interfaces := h.interfaces.1
  fields := h.fields.1
  methods := h.methods.1
  nestMembers := hmembers
  code := hcode

/-- Whatever the bytes are, a class that is read from them has instructions that can be written,
one behind the other, and strings that have room in constants; and with room for all constants,
nest members and code, it is read back as it is written. -/
theorem decodeClass_rewritable (bytes : List UInt8) (c : ClassFile)
    (h : decodeClass bytes = .ok c) :
    (∀ m ∈ c.methods, (∀ i ∈ m.instructions, i.Fits)
        ∧ m.instructions.Pairwise (·.offset < ·.offset))
      ∧ (∀ text ∈ c.texts, (ModifiedUtf8.encode text).length ≤ 65535)
      ∧ (∀ m ∈ c.methods, ∀ i ∈ m.instructions, ∀ text ∈ i.reference.texts,
        (ModifiedUtf8.encode text).length ≤ 65535)
      ∧ (((writeBody c).run {}).2.keys.length ≤ 65534 → c.nestMembers.length ≤ 65535 →
        (∀ m ∈ c.methods, (m.body.map Instruction.size).sum + 1 < 2 ^ 32 - 12) →
          decodeClass (encodeClass c) = .ok c.asWritten) := by
  obtain ⟨last, hrun⟩ := decodeClass_eq_ok.mp h
  have hclass : WritableClass c := answers_readClass _ _ _ hrun
  have hcode {m : Method} (hm : m ∈ c.methods) : WritableCode m.instructions :=
    (hclass.methods.2 m hm).code
  refine ⟨fun m hm => ⟨fun i hi => ((hcode hm).instructions i hi).1, (hcode hm).offsets⟩,
    hclass.texts, fun m hm i hi => ((hcode hm).instructions i hi).2, ?_⟩
  intro hconstants hmembers hsizes
  have hread := reads_encodeClass (hclass.fits hconstants hmembers hsizes) []
  rw [List.append_nil] at hread
  exact decodeClass_eq_ok.mpr ⟨_, hread⟩

/-- The name `A` in a longer form than it needs and in two constants, and a method with two bodies,
the last of which loads it twice through a narrow index. -/
def unusualFile : List UInt8 :=
  [0xCA, 0xFE, 0xBA, 0xBE, 0, 0, 0, 52, 0, 7, 1, 0, 2, 0xC1, 0x81, 7, 0, 1, 1, 0, 1, 0x6D,
    1, 0, 3, 0x28, 0x29, 0x56, 1, 0, 4, 0x43, 0x6F, 0x64, 0x65, 7, 0, 1,
    0, 0x21, 0, 2, 0, 0, 0, 0, 0, 0, 0, 1, 0, 1, 0, 3, 0, 4, 0, 2,
    0, 5, 0, 0, 0, 9, 0, 0, 0, 0, 0, 0, 0, 1, 0xB1,
    0, 5, 0, 0, 0, 12, 0, 0, 0, 0, 0, 0, 0, 4, 0x12, 6, 0x12, 2, 0, 0]

/-- What stands in the unusual file, with the second instruction at `offset`. -/
def loadingClass (offset : UInt32) : ClassFile where
  name := "A"
  superName := none
  methods := [⟨"m", "()V", ⟨0x0001⟩,
    [⟨0, .loadConstant, .type "A", false⟩, ⟨offset, .loadConstant, .type "A", false⟩]⟩]

theorem decodeClass_rewritable_unusualFile :
    decodeClass unusualFile = .ok (loadingClass 2)
      ∧ decodeClass (encodeClass (loadingClass 2)) = .ok (loadingClass 3) := by
  have hread : decodeClass unusualFile = .ok (loadingClass 2) := by decide +kernel
  obtain ⟨-, -, -, hback⟩ := decodeClass_rewritable unusualFile (loadingClass 2) hread
  exact ⟨hread, hback (by decide) (by decide) (by decide)⟩

end Linkage.Format

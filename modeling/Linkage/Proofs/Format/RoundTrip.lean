import Linkage.Proofs.Format.Code

/-! Class files are read as the classes they were written from. -/
namespace Linkage

/-- The method as it stands in the file: its instructions are where they were written. -/
def Method.asWritten (m : Method) : Method :=
  { m with instructions := Instruction.placed 0 m.body }

def ClassFile.asWritten (c : ClassFile) : ClassFile :=
  { c with methods := c.methods.map Method.asWritten }

def Reference.texts : Reference → List String
  | .type name => [name]
  | .method m => [m.owner, m.name, m.descriptor]
  | .field m => [m.owner, m.name, m.descriptor]

def Method.texts (m : Method) : List String :=
  m.name :: m.descriptor :: m.body.flatMap (·.reference.texts)

/-- All strings that a class file of `c` has, but for the names of attributes. -/
def ClassFile.texts (c : ClassFile) : List String :=
  c.name :: (c.superName.toList ++ c.interfaces ++ c.fields.flatMap (fun f => [f.name, f.descriptor])
    ++ c.methods.flatMap Method.texts ++ c.nestHost.toList ++ c.nestMembers)

namespace Format

/-- The class can be written: each instruction has a reference it can have, and each number has
the bytes that the format gives it. -/
structure Fits (c : ClassFile) : Prop where
  instructions : ∀ m ∈ c.methods, ∀ i ∈ m.body, i.Fits
  texts : ∀ text ∈ c.texts, (ModifiedUtf8.encode text).length ≤ 65535
  constants : ((writeBody c).run {}).2.keys.length ≤ 65534
  interfaces : c.interfaces.length ≤ 65535
  fields : c.fields.length ≤ 65535
  methods : c.methods.length ≤ 65535
  nestMembers : c.nestMembers.length ≤ 65535
  /-- The return at the end of the code counts, too. -/
  code : ∀ m ∈ c.methods, (m.body.map Instruction.size).sum + 1 < 2 ^ 32 - 12

variable {α β γ : Type}

theorem reads_all {decoder : Decoder β} {bytes : α → List UInt8} {f : α → β} {as : List α}
    (h : ∀ a ∈ as, ∀ position, Reads position decoder (bytes a) (f a)) (position : Nat) :
    Reads position (repeatDecoder decoder as.length) (as.flatMap bytes) (as.map f) := by
  induction as generalizing position with
  | nil => exact Reads.pure []
  | cons a as ih =>
    have hrest := ih fun a' ha' => h a' (List.mem_cons_of_mem a ha')
    exact (h a List.mem_cons_self position).bind ((hrest _).map _)

theorem reads_table {decoder : Decoder β} {bytes : α → List UInt8} {f : α → β} {as : List α}
    (hlength : as.length ≤ 65535)
    (h : ∀ a ∈ as, ∀ position, Reads position decoder (bytes a) (f a)) (position : Nat)
    {next : List β → Decoder γ} {more : List UInt8} {c : γ}
    (hnext : Reads (position + (tableBytes bytes as).length) (next (as.map f)) more c) :
    Reads position (do next (← repeatDecoder decoder (← readU16).toNat))
      (tableBytes bytes as ++ more) c := by
  have hcount : (UInt16.ofNat as.length).toNat = as.length :=
    UInt16.toNat_ofNat_of_lt' (show _ < 65536 by omega)
  unfold tableBytes at hnext ⊢
  rw [List.length_append, ← Nat.add_assoc] at hnext
  rw [List.append_assoc]
  refine (readU16_reads position as.length (by omega)).bind ?_
  rw [hcount]
  exact (reads_all h _).bind hnext

theorem reads_text {final : PoolBuilder} (hfinal : final.Sound) {text : String}
    (hkey : .utf8 text ∈ final.keys) {position : Nat} {next : String → Decoder β}
    {more : List UInt8} {b : β} (h : Reads (position + 2) (next text) more b) :
    Reads position (do next (← final.decoded.utf8 (← readU16)))
      (final.reference (.utf8 text) ++ more) b :=
  (readU16_reads_word position _).bind
    (Reads.bind_lift (PoolBuilder.utf8_decoded hfinal hkey) h)

theorem reads_typeName {final : PoolBuilder} (hfinal : final.Sound) {name : String}
    (hkey : .type name ∈ final.keys) (position : Nat) :
    Reads position (readTypeName final.decoded) (typeBytes final name) name := by
  rw [← List.append_nil (typeBytes final name)]
  exact (readU16_reads_word position _).bind
    (Reads.lift (PoolBuilder.typeName_decoded hfinal hkey))

theorem reads_head {final : PoolBuilder} (hfinal : final.Sound) {name descriptor : String}
    (hname : .utf8 name ∈ final.keys) (hdescriptor : .utf8 descriptor ∈ final.keys)
    (access : AccessFlags) {position : Nat} {next : UInt16 → String → String → Decoder β}
    {more : List UInt8} {b : β}
    (h : Reads (position + 6) (next access.bits name descriptor) more b) :
    Reads position
      (do
        let access ← readU16
        let name ← final.decoded.utf8 (← readU16)
        let descriptor ← final.decoded.utf8 (← readU16)
        next access name descriptor)
      (headBytes final access name descriptor ++ more) b := by
  unfold headBytes
  simp only [List.append_assoc]
  exact (readU16_reads_word position access.bits).bind
    (reads_text hfinal hname (reads_text hfinal hdescriptor h))

theorem reads_field {final : PoolBuilder} (hfinal : final.Sound) {f : Field}
    (hname : .utf8 f.name ∈ final.keys) (hdescriptor : .utf8 f.descriptor ∈ final.keys)
    (position : Nat) : Reads position (readField final.decoded) (fieldBytes final f) f :=
  reads_head hfinal hname hdescriptor f.access
    ((readU16_reads _ 0 (by decide)).bind ((Reads.pure _).bind (Reads.pure f)))

theorem reads_attribute {final : PoolBuilder} (hfinal : final.Sound) {name : String}
    (hkey : .utf8 name ∈ final.keys) {body : List UInt8} (hbody : body.length < 2 ^ 32)
    (position : Nat) :
    Reads position (readAttribute final.decoded)
      (attributeBytes (final.reference (.utf8 name)) body) (name, body) := by
  have hlength : (UInt32.ofNat body.length).toNat = body.length :=
    UInt32.toNat_ofNat_of_lt' hbody
  unfold attributeBytes
  rw [List.append_assoc]
  refine reads_text hfinal hkey ((readU32_reads _ _ hbody).bind ?_)
  rw [hlength]
  exact (takeBytes_reads _ body rfl).map _

theorem length_codeBody (code : List UInt8) : (codeBody code).length = code.length + 13 := by
  simp only [codeBody, List.length_append, length_toBigEndian, List.length_cons, List.length_nil]
  omega

/-- A method that is read knows nothing of the instructions that were not written. -/
theorem reads_method {final : PoolBuilder} (hfinal : final.Sound) {m : Method}
    (hkeys : methodKeys m ⊆ final.keys) (hfits : ∀ i ∈ m.body, i.Fits)
    (hcode : (m.body.map Instruction.size).sum + 1 < 2 ^ 32 - 12) (position : Nat) :
    Reads position (readMethod final.decoded) (methodBytes final m) m.asWritten := by
  have hname : .utf8 m.name ∈ final.keys := hkeys List.mem_cons_self
  have hdescriptor : .utf8 m.descriptor ∈ final.keys :=
    hkeys (List.mem_cons_of_mem _ List.mem_cons_self)
  refine reads_head hfinal hname hdescriptor m.access ?_
  cases hbody : m.access.hasNoBody
  · have hrest : m.body.map instructionKey ++ [.utf8 "Code"] ⊆ final.keys := by
      intro key hkey
      refine hkeys (List.mem_cons_of_mem _ (List.mem_cons_of_mem _ ?_))
      rwa [hbody]
    have hcodeName : .utf8 "Code" ∈ final.keys := hrest (by simp)
    have hinstructions : ∀ i ∈ m.body, instructionKey i ∈ final.keys :=
      fun i hi => hrest (List.mem_append_left _ (List.mem_map_of_mem hi))
    have hlength : (codeBody (m.body.flatMap (instructionBytes final))).length < 2 ^ 32 := by
      simp only [length_codeBody, List.length_flatMap, length_instructionBytes]
      change (m.body.map Instruction.size).sum + 13 < _
      omega
    have hattribute : Reads (position + 6 + 2)
        (readMethodAttributes final.decoded (m.name ++ m.descriptor) 1 [])
        (attributeBytes (final.reference (.utf8 "Code"))
          (codeBody (m.body.flatMap (instructionBytes final))))
        (Instruction.placed 0 m.body) := by
      rw [← List.append_nil (attributeBytes _ _)]
      refine (reads_attribute hfinal hcodeName hlength _).bind ?_
      exact (reads_codeBody hfinal _ hfits hinstructions (by omega) _).bind (Reads.pure _)
    exact (readU16_reads _ 1 (by decide)).bind (hattribute.map _)
  · have hnone : m.body = [] := by
      unfold Method.body
      rw [hbody]
      rfl
    rw [Method.asWritten, hnone]
    exact (readU16_reads _ 0 (by decide)).bind ((Reads.pure []).map _)

theorem reads_nestHost {final : PoolBuilder} (hfinal : final.Sound) {host : String}
    (hname : .utf8 "NestHost" ∈ final.keys) (hhost : .type host ∈ final.keys) {nest last : Nest}
    {n : Nat} {more : List UInt8} {position : Nat}
    (h : ∀ position, Reads position
      (readClassAttributes final.decoded n { nest with host := some host }) more last) :
    Reads position (readClassAttributes final.decoded (n + 1) nest)
      (attributeBytes (final.reference (.utf8 "NestHost")) (typeBytes final host) ++ more)
      last := by
  have hlength : (typeBytes final host).length < 2 ^ 32 := by
    rw [typeBytes, length_reference]
    decide
  have hbody (position : Nat) :
      Reads position ((readTypeName final.decoded).within (typeBytes final host)) [] host := by
    rw [← List.append_nil (typeBytes final host)]
    exact (reads_typeName hfinal hhost 0).within
  exact (reads_attribute hfinal hname hlength position).bind ((hbody _).bind (h _))

theorem reads_nestMembers {final : PoolBuilder} (hfinal : final.Sound) {members : List String}
    (hname : .utf8 "NestMembers" ∈ final.keys) (hmembers : ∀ m ∈ members, .type m ∈ final.keys)
    (hcount : members.length ≤ 65535) {nest last : Nest} {n : Nat} {more : List UInt8}
    {position : Nat}
    (h : ∀ position, Reads position
      (readClassAttributes final.decoded n { nest with members := nest.members ++ members })
      more last) :
    Reads position (readClassAttributes final.decoded (n + 1) nest)
      (attributeBytes (final.reference (.utf8 "NestMembers"))
        (tableBytes (typeBytes final) members) ++ more) last := by
  have hlength : (tableBytes (typeBytes final) members).length < 2 ^ 32 := by
    simp only [tableBytes, List.length_append, length_toBigEndian, List.length_flatMap, typeBytes,
      length_reference, List.map_const', List.sum_replicate, smul_eq_mul]
    omega
  have hbody (position : Nat) :
      Reads position
        (Decoder.within (do repeatDecoder (readTypeName final.decoded) (← readU16).toNat)
          (tableBytes (typeBytes final) members)) [] members := by
    have hread : Reads 0 (do repeatDecoder (readTypeName final.decoded) (← readU16).toNat)
        (tableBytes (typeBytes final) members) members := by
      have htable := reads_table hcount
        (fun m hm => reads_typeName hfinal (hmembers m hm)) 0 (Reads.pure _)
      simpa only [bind_pure, List.append_nil, List.map_id'] using htable
    rw [← List.append_nil (tableBytes _ _)]
    exact hread.within
  exact (reads_attribute hfinal hname hlength position).bind ((hbody _).bind (h _))

theorem reads_nest {final : PoolBuilder} (hfinal : final.Sound) {c : ClassFile}
    (hhost : hostKeys c.nestHost ⊆ final.keys) (hmembers : memberKeys c.nestMembers ⊆ final.keys)
    (hcount : c.nestMembers.length ≤ 65535) (position : Nat) :
    Reads position (readClassAttributes final.decoded (nestAttributes final c).length {})
      (nestAttributes final c).flatten ⟨c.nestHost, c.nestMembers⟩ := by
  have hrest (host : Option String) (position : Nat) :
      Reads position
        (readClassAttributes final.decoded (memberAttributes final c.nestMembers).length ⟨host, []⟩)
        (memberAttributes final c.nestMembers).flatten ⟨host, c.nestMembers⟩ := by
    unfold memberAttributes
    unfold memberKeys at hmembers
    cases hempty : c.nestMembers.isEmpty
    · rw [hempty] at hmembers
      exact reads_nestMembers hfinal (hmembers List.mem_cons_self)
        (fun m hm => hmembers (List.mem_cons_of_mem _ (List.mem_map_of_mem hm))) hcount
        fun _ => Reads.pure _
    · rw [List.isEmpty_iff.mp hempty]
      exact Reads.pure _
  unfold nestAttributes
  cases h : c.nestHost with
  | none => exact hrest none position
  | some host =>
    rw [h] at hhost
    rw [List.length_append, Nat.add_comm]
    exact reads_nestHost hfinal (hhost List.mem_cons_self)
      (hhost (List.mem_cons_of_mem _ List.mem_cons_self)) (hrest (some host))

theorem reads_super {final : PoolBuilder} (hfinal : final.Sound) {superName : Option String}
    (hkeys : superName.toList.map .type ⊆ final.keys) {position : Nat}
    {next : Option String → Decoder β} {more : List UInt8} {b : β}
    (h : Reads (position + 2) (next superName) more b) :
    Reads position
      (do
        let index ← readU16
        let found ← if index = 0 then pure none else some <$> final.decoded.typeName index
        next found)
      (superName.elim [0, 0] (typeBytes final) ++ more) b := by
  cases superName with
  | none => exact (readU16_reads_word position 0).bind ((Reads.pure _).bind h)
  | some s =>
    have hkey : .type s ∈ final.keys := hkeys List.mem_cons_self
    refine (readU16_reads_word position _).bind ?_
    rw [if_neg (PoolBuilder.indexOf_ne_zero hfinal hkey)]
    have hname : Reads (position + 2)
        (some <$> final.decoded.typeName (final.indexOf (.type s)) : Decoder _) [] (some s) :=
      (Reads.lift (PoolBuilder.typeName_decoded hfinal hkey)).map some
    exact hname.bind h

theorem reads_class {final : PoolBuilder} (hfinal : final.Sound) {c : ClassFile} (hfits : Fits c)
    (hkeys : classKeys c ⊆ final.keys) :
    Reads 0 readClass
      (toBigEndian 4 magic.toNat ++ [0, 0] ++ toBigEndian 2 c.majorVersion.toNat ++ final.bytes
        ++ bodyBytes final c) c.asWritten := by
  simp only [classKeys, List.cons_subset, List.append_subset] at hkeys
  obtain ⟨hname, hsuper, hinterfaces, hfields, hmethods, hhost, hmembers⟩ := hkeys
  have htypes : ∀ name ∈ c.interfaces, ∀ position,
      Reads position (readTypeName final.decoded) (typeBytes final name) name :=
    fun name hn => reads_typeName hfinal (hinterfaces (List.mem_map_of_mem hn))
  have hfieldReads : ∀ f ∈ c.fields, ∀ position,
      Reads position (readField final.decoded) (fieldBytes final f) f := by
    intro f hf
    have hkey (key : PoolKey) (hkey : key ∈ [.utf8 f.name, .utf8 f.descriptor]) :
        key ∈ final.keys := hfields (List.mem_flatMap.mpr ⟨f, hf, hkey⟩)
    exact reads_field hfinal (hkey _ (by simp)) (hkey _ (by simp))
  have hmethodReads : ∀ m ∈ c.methods, ∀ position,
      Reads position (readMethod final.decoded) (methodBytes final m) m.asWritten := by
    intro m hm
    have hkeys : methodKeys m ⊆ final.keys :=
      fun key hkey => hmethods (List.mem_flatMap.mpr ⟨m, hm, hkey⟩)
    exact reads_method hfinal hkeys (hfits.instructions m hm) (hfits.code m hm)
  simp only [bodyBytes, List.append_assoc]
  refine (readU32_reads _ magic.toNat (by decide)).bind ?_
  rw [if_neg (by decide)]
  refine (readU16_reads _ 0 (by decide)).bind ((readU16_reads_word _ _).bind ?_)
  refine (PoolBuilder.read_bytes hfinal _).bind ((readU16_reads_word _ _).bind ?_)
  refine (reads_typeName hfinal hname _).bind (reads_super hfinal hsuper ?_)
  refine reads_table hfits.interfaces htypes _ ?_
  refine reads_table hfits.fields hfieldReads _ ?_
  refine reads_table hfits.methods hmethodReads _ ?_
  have hcount : (nestAttributes final c).length < 65536 := by
    have htwo := length_nestAttributes_le final c
    omega
  refine (readU16_reads _ _ hcount).bind ?_
  rw [UInt16.toNat_ofNat_of_lt' hcount]
  have hnest := reads_nest hfinal hhost hmembers hfits.nestMembers
  rw [← List.append_nil (nestAttributes final c).flatten]
  refine (hnest _).bind ?_
  rw [List.map_id', List.map_id']
  exact Reads.pure _

/-- The names of the attributes that are written. -/
def attributeNames : List String := ["Code", "NestHost", "NestMembers"]

theorem length_attributeNames :
    ∀ name ∈ attributeNames, (ModifiedUtf8.encode name).length ≤ 65535 := by
  decide

theorem texts_of_instructionKey (i : Instruction) :
    (instructionKey i).texts = i.reference.texts := by
  unfold instructionKey
  cases i.reference <;> rfl

theorem texts_of_methodKeys {m : Method} {key : PoolKey} (h : key ∈ methodKeys m) :
    key.texts ⊆ m.texts ++ attributeNames := by
  unfold methodKeys at h
  rcases List.mem_cons.mp h with rfl | h
  · simp [PoolKey.texts, Method.texts]
  rcases List.mem_cons.mp h with rfl | h
  · simp [PoolKey.texts, Method.texts]
  split at h
  · simp at h
  rcases List.mem_append.mp h with h | h
  · obtain ⟨i, hi, rfl⟩ := List.mem_map.mp h
    rw [texts_of_instructionKey]
    intro text htext
    have htexts : text ∈ m.texts := List.mem_cons_of_mem _ (List.mem_cons_of_mem _
      (List.mem_flatMap.mpr ⟨i, hi, htext⟩))
    exact List.mem_append_left _ htexts
  · rw [List.mem_singleton.mp h]
    simp [PoolKey.texts, attributeNames]

theorem texts_of_classKeys {c : ClassFile} {key : PoolKey} (h : key ∈ classKeys c) :
    key.texts ⊆ c.texts ++ attributeNames := by
  have htypes {names : List String} (hnames : ∀ name ∈ names, name ∈ c.texts)
      (hkey : key ∈ names.map .type) : key.texts ⊆ c.texts ++ attributeNames := by
    obtain ⟨name, hname, rfl⟩ := List.mem_map.mp hkey
    simp [PoolKey.texts, hnames name hname]
  rcases List.mem_cons.mp h with rfl | h
  · simp [PoolKey.texts, ClassFile.texts]
  simp only [List.mem_append, List.mem_flatMap] at h
  rcases h with h | h | ⟨f, hf, h⟩ | ⟨m, hm, h⟩ | h | h
  · exact htypes (fun name hn => by simp [ClassFile.texts, hn]) h
  · exact htypes (fun name hn => by simp [ClassFile.texts, hn]) h
  · have htexts : ∀ text ∈ [f.name, f.descriptor], text ∈ c.texts := by
      intro text htext
      rw [ClassFile.texts, List.mem_cons]
      simp only [List.mem_append, List.mem_flatMap]
      exact Or.inr (Or.inl (Or.inl (Or.inl (Or.inr ⟨f, hf, htext⟩))))
    rcases List.mem_pair.mp h with rfl | rfl
    · simp [PoolKey.texts, htexts f.name]
    · simp [PoolKey.texts, htexts f.descriptor]
  · intro text htext
    rcases List.mem_append.mp (texts_of_methodKeys h htext) with htext | htext
    · refine List.mem_append_left _ ?_
      rw [ClassFile.texts, List.mem_cons]
      simp only [List.mem_append, List.mem_flatMap]
      exact Or.inr (Or.inl (Or.inl (Or.inr ⟨m, hm, htext⟩)))
    · exact List.mem_append_right _ htext
  · cases hhost : c.nestHost with
    | none => simp [hhost, hostKeys] at h
    | some host =>
      rw [hhost] at h
      rcases List.mem_pair.mp h with rfl | rfl <;>
        simp [PoolKey.texts, ClassFile.texts, attributeNames, hhost]
  · unfold memberKeys at h
    split at h
    · simp at h
    · rcases List.mem_cons.mp h with rfl | h
      · simp [PoolKey.texts, attributeNames]
      · exact htypes (fun name hn => by simp [ClassFile.texts, hn]) h

theorem run_writeBody (c : ClassFile) : (writeBody c).run {}
    = (bodyBytes (.internAll {} (classKeys c)) c, .internAll {} (classKeys c)) :=
  Prod.ext ((encodes_writeBody c).answer {} _ (List.prefix_refl _)) ((encodes_writeBody c).pool {})

/-- The pool of a class that can be written holds what the class says and the names of attributes,
and can be written, too. -/
theorem Fits.sound {c : ClassFile} (h : Fits c) :
    (PoolBuilder.internAll {} (classKeys c)).Sound := by
  have htexts : (PoolBuilder.internAll {} (classKeys c)).TextsIn (c.texts ++ attributeNames) :=
    PoolBuilder.textsIn_internAll (fun text htext => absurd htext (by simp))
      fun _ => texts_of_classKeys
  refine ⟨PoolBuilder.closed_internAll PoolBuilder.closed_empty _, ?_, fun text htext => ?_⟩
  · have hsize := h.constants
    rwa [run_writeBody] at hsize
  · rcases List.mem_append.mp (htexts text htext) with hc | hname
    · exact h.texts text hc
    · exact length_attributeNames text hname

theorem encodeClass_eq (c : ClassFile) :
    encodeClass c = toBigEndian 4 magic.toNat ++ [0, 0] ++ toBigEndian 2 c.majorVersion.toNat
      ++ (PoolBuilder.internAll {} (classKeys c)).bytes
      ++ bodyBytes (PoolBuilder.internAll {} (classKeys c)) c := by
  unfold encodeClass
  rw [run_writeBody]

theorem reads_encodeClass {c : ClassFile} (h : Fits c) :
    Reads 0 readClass (encodeClass c) c.asWritten := by
  rw [encodeClass_eq]
  exact reads_class h.sound h fun key hkey => PoolBuilder.mem_internAll hkey {}

/-- Reading undoes writing, but for what no file has: instructions without a body and offsets other
than those of the bytes. -/
theorem decodeClass_encodeClass (c : ClassFile) (h : Fits c) :
    decodeClass (encodeClass c) = .ok c.asWritten := by
  have hread := reads_encodeClass h []
  rw [List.append_nil] at hread
  unfold decodeClass
  rw [Cursor.start, hread]
  rfl

/-- A nested class with a body that refers to members of all kinds, and a native method to which
an instruction was given. -/
def nestedClass : ClassFile where
  name := "p/A$B"
  superName := some "p/A"
  interfaces := ["p/I"]
  fields := [⟨"f", "[[I", ⟨0x0008⟩⟩]
  methods :=
    [⟨"run", "()V", ⟨0x0001⟩,
      [⟨7, .getStatic, .field ⟨"p/A$B", "f", "[[I"⟩, false⟩,
        ⟨7, .invokeStatic, .method ⟨"p/I", "run", "()V"⟩, true⟩,
        ⟨7, .invokeInterface, .method ⟨"p/I", "run", "()V"⟩, false⟩,
        ⟨7, .newMultiArray, .type "[[I", false⟩,
        ⟨7, .loadConstant, .type "p/A", false⟩]⟩,
      ⟨"stop", "()V", ⟨0x0100⟩, [⟨0, .getField, .type "p/A", true⟩]⟩]
  nestHost := some "p/A"
  nestMembers := ["p/A$B$C"]

theorem decodeClass_encodeClass_nestedClass :
    decodeClass (encodeClass nestedClass) = .ok nestedClass.asWritten
      ∧ nestedClass.asWritten.methods.map (·.instructions.map (·.offset)) = [[0, 3, 6, 11, 15], []] :=
  have hfits : Fits nestedClass :=
    ⟨by decide, by decide, by decide, by decide, by decide, by decide, by decide, by decide⟩
  ⟨decodeClass_encodeClass nestedClass hfits, by decide⟩

end Format
end Linkage

import Linkage.Proofs.Format.Consumption
import Linkage.Proofs.Format.RoundTrip

/-! What every answer of a decoder is like, whatever bytes it reads. -/
namespace Linkage.Format

variable {α β : Type}

theorem run_bind_eq_ok {decoder : Decoder α} {next : α → Decoder β} {c last : Cursor} {b : β} :
    (decoder >>= next) c = .ok (b, last) ↔
      ∃ a between, decoder c = .ok (a, between) ∧ next a between = .ok (b, last) := by
  change (decoder c >>= fun p => next p.1 p.2) = _ ↔ _
  rw [bind_eq_ok]
  exact ⟨fun ⟨p, hp, h⟩ => ⟨p.1, p.2, hp, h⟩, fun ⟨a, between, ha, h⟩ => ⟨(a, between), ha, h⟩⟩

/-- The decoder gives good answers only. -/
def Answers (decoder : Decoder α) (good : α → Prop) : Prop :=
  ∀ c a last, decoder c = .ok (a, last) → good a

namespace Answers

variable {decoder : Decoder α} {good : α → Prop} {better : β → Prop}

protected theorem pure {a : α} (h : good a) : Answers (Pure.pure a : Decoder α) good := by
  rintro c _ _ ⟨⟩
  exact h

protected theorem throw (fault : Fault) : Answers (throw fault : Decoder α) good :=
  fun _ _ _ h => nomatch h

protected theorem lift {answer : Except Fault α} (h : ∀ a, answer = .ok a → good a) :
    Answers (liftM answer : Decoder α) good := by
  intro c a last hrun
  cases answer with
  | error fault => exact nomatch hrun
  | ok b =>
    cases hrun
    exact h _ rfl

protected theorem bind {next : α → Decoder β} (first : Answers decoder good)
    (second : ∀ a, good a → Answers (next a) better) : Answers (decoder >>= next) better := by
  intro c b last hrun
  obtain ⟨a, between, hfirst, hsecond⟩ := run_bind_eq_ok.mp hrun
  exact second a (first _ _ _ hfirst) _ _ _ hsecond

/-- A step whose answer does not matter. -/
theorem after {next : α → Decoder β} (second : ∀ a, Answers (next a) better) :
    Answers (decoder >>= next) better := by
  intro c b last hrun
  obtain ⟨a, between, -, hsecond⟩ := run_bind_eq_ok.mp hrun
  exact second a _ _ _ hsecond

protected theorem ite {condition : Prop} [Decidable condition] {yes no : Decoder α}
    (hyes : Answers yes good) (hno : Answers no good) :
    Answers (if condition then yes else no) good := by
  split
  · exact hyes
  · exact hno

/-- Nothing is answered after a fault. -/
theorem throw_bind (fault : Fault) (next : α → Decoder β) :
    Answers ((throw fault : Decoder α) >>= next) better :=
  fun _ _ _ h => nomatch h

protected theorem within (h : Answers decoder good) (bytes : List UInt8) :
    Answers (decoder.within bytes) good := by
  intro c a last hrun
  unfold Decoder.within at hrun
  split at hrun
  · next hinner =>
    cases hrun
    exact h _ _ _ hinner
  · exact nomatch hrun

protected theorem «repeat» (h : Answers decoder good) (n : Nat) :
    Answers (repeatDecoder decoder n) fun as => as.length = n ∧ ∀ a ∈ as, good a := by
  induction n with
  | zero => exact .pure ⟨rfl, by simp⟩
  | succ n ih =>
    refine h.bind fun a ha => ih.bind fun as has => .pure ⟨by simp [has.1], ?_⟩
    exact List.forall_mem_cons.mpr ⟨ha, has.2⟩

/-- A table has no more rows than two bytes can count. -/
theorem table {next : List α → Decoder β} (h : Answers decoder good)
    (hnext : ∀ as, as.length ≤ 65535 → (∀ a ∈ as, good a) → Answers (next as) better) :
    Answers (do next (← repeatDecoder decoder (← readU16).toNat)) better := by
  refine after fun count => (h.repeat count.toNat).bind fun as ⟨hlength, has⟩ => hnext as ?_ has
  exact hlength ▸ Nat.le_of_lt_succ count.toNat_lt

theorem indexed {find : UInt16 → Except Fault α} {next : α → Decoder β}
    (hfind : ∀ index a, find index = .ok a → good a)
    (hnext : ∀ a, good a → Answers (next a) better) :
    Answers (do next (← find (← readU16))) better :=
  after fun index => (Answers.lift (hfind index)).bind hnext

/-- What index zero leaves out is good or left out. -/
theorem optional (index : UInt16) {found : Except Fault α} {next : Option α → Decoder β}
    (hfound : ∀ a, found = .ok a → good a)
    (hnext : ∀ a, (∀ b ∈ a, good b) → Answers (next a) better) :
    Answers (do
      let a ← if index = 0 then pure none else some <$> found
      next a) better := by
  have hsome : Answers (some <$> found : Decoder (Option α)) fun a => ∀ b ∈ a, good b :=
    (Answers.lift hfound).bind fun a ha => .pure (by simpa using ha)
  exact .ite (hnext none (by simp)) (hsome.bind hnext)

end Answers

theorem answers_takeBytes (n : Nat) : Answers (takeBytes n) (·.length = n) := by
  intro c bytes last hrun
  unfold takeBytes at hrun
  split at hrun
  · exact nomatch hrun
  · next hlength =>
    cases hrun
    rw [shorterThan_eq, decide_eq_true_eq] at hlength
    exact List.length_take_of_le (Nat.le_of_not_lt hlength)

/-- The text has room in a constant. -/
def FitsConstant (text : String) : Prop := (ModifiedUtf8.encode text).length ≤ 65535

def Constant.TextFits (constant : Constant) : Prop :=
  ∀ text, constant = .utf8 text → FitsConstant text

/-- What is read as a text has room in a constant again: it takes no more bytes than it did. -/
theorem Constant.answers_read (index : Nat) : Answers (Constant.read index) TextFits := by
  refine .after fun tag => ?_
  split
  · refine .after fun length => (answers_takeBytes _).bind fun bytes hlength => ?_
    split
    · next text htext =>
      refine .pure fun _ h => ?_
      cases h
      have hshort := ModifiedUtf8.length_encode_le htext
      have hcount := length.toNat_lt
      unfold FitsConstant
      omega
    · exact .throw _
  -- no other constant has a text
  all_goals first
    | exact .throw _
    | exact .after fun _ => .pure nofun
    | exact .after fun _ => .after fun _ => .pure nofun

namespace Pool

def TextsFit (pool : Pool) : Prop := ∀ constant ∈ pool.slots, constant.TextFits

theorem answers_readSlots (free : Nat) (slots : Array Constant)
    (h : ∀ constant ∈ slots, constant.TextFits) :
    Answers (readSlots free slots) fun all => ∀ constant ∈ all, constant.TextFits := by
  have hpush {slots : Array Constant} {constant : Constant}
      (h : ∀ constant ∈ slots, constant.TextFits) (hnew : constant.TextFits) :
      ∀ other ∈ slots.push constant, other.TextFits := by
    intro other hother
    rcases Array.mem_push.mp hother with hold | rfl
    · exact h other hold
    · exact hnew
  fun_induction readSlots free slots with
  | case1 slots => exact .pure h
  | case2 slots =>
    refine (Constant.answers_read slots.size).bind fun constant hconstant => ?_
    split
    · exact .throw_bind _ _
    · exact .pure (hpush h hconstant)
  | case3 free slots wide single =>
    refine (Constant.answers_read slots.size).bind fun constant hconstant => ?_
    split
    · have hunusable : Constant.unusable.TextFits := fun _ h => Constant.noConfusion h
      exact wide constant (hpush (hpush h hconstant) hunusable)
    · exact single constant (hpush h hconstant)

theorem answers_read : Answers Pool.read TextsFit :=
  .after fun _ => (answers_readSlots _ _ (by simp [Constant.TextFits])).bind fun _ hslots =>
    .pure hslots

theorem mem_of_get {pool : Pool} {index : UInt16} {constant : Constant}
    (h : pool.get index = .ok constant) : constant ∈ pool.slots := by
  unfold get at h
  split at h
  · exact nomatch h
  · exact nomatch h
  · next hslot =>
    cases h
    exact Array.mem_of_getElem? hslot

variable {pool : Pool} (hpool : pool.TextsFit)
include hpool

theorem fits_utf8 (index : UInt16) (text : String) (h : pool.utf8 index = .ok text) :
    FitsConstant text := by
  obtain ⟨constant, hget, h⟩ := bind_eq_ok.mp h
  cases constant with
  | utf8 text =>
    cases h
    exact hpool _ (mem_of_get hget) text rfl
  | _ => exact nomatch h

theorem fits_typeName (index : UInt16) (name : String) (h : pool.typeName index = .ok name) :
    FitsConstant name := by
  obtain ⟨constant, -, h⟩ := bind_eq_ok.mp h
  cases constant with
  | type name => exact fits_utf8 hpool _ _ h
  | _ => exact nomatch h

theorem fits_nameAndType (index : UInt16) (name descriptor : String)
    (h : pool.nameAndType index = .ok (name, descriptor)) :
    FitsConstant name ∧ FitsConstant descriptor := by
  obtain ⟨constant, -, h⟩ := bind_eq_ok.mp h
  cases constant with
  | nameAndType name descriptor =>
    obtain ⟨name, hname, h⟩ := bind_eq_ok.mp h
    obtain ⟨descriptor, hdescriptor, ⟨⟩⟩ := bind_eq_ok.mp h
    exact ⟨fits_utf8 hpool _ _ hname, fits_utf8 hpool _ _ hdescriptor⟩
  | _ => exact nomatch h

theorem fits_member (index : UInt16) (kind : MemberKind) (m : MemberRef)
    (h : pool.member index = .ok (kind, m)) :
    ∀ text ∈ [m.owner, m.name, m.descriptor], FitsConstant text := by
  obtain ⟨constant, -, h⟩ := bind_eq_ok.mp h
  cases constant with
  | fieldRef owner signature | methodRef owner signature | interfaceMethodRef owner signature =>
    obtain ⟨_, ⟨⟩, h⟩ := bind_eq_ok.mp h
    obtain ⟨owner, howner, h⟩ := bind_eq_ok.mp h
    obtain ⟨⟨name, descriptor⟩, hsignature, ⟨⟩⟩ := bind_eq_ok.mp h
    obtain ⟨hname, hdescriptor⟩ := fits_nameAndType hpool _ _ _ hsignature
    simp [fits_typeName hpool _ _ howner, hname, hdescriptor]
  | _ => exact nomatch h

end Pool

/-- Where the bytes that are left end. -/
def Cursor.limit (c : Cursor) : Nat := c.position + c.rest.length

/-- A decoder that takes bytes from the front goes on by as many as are gone. -/
theorem Sequential.moves {decoder : Decoder α} (h : Sequential decoder) {c last : Cursor} {a : α}
    (hrun : decoder c = .ok (a, last)) :
    c.position ≤ last.position ∧ last.limit = c.limit := by
  obtain ⟨position, bytes⟩ := c
  obtain ⟨taken, rest, rfl, hreads, -⟩ := h.answer hrun
  rw [hreads rest] at hrun
  cases hrun
  unfold Cursor.limit
  rw [List.length_append]
  exact ⟨Nat.le_add_right position taken.length, Nat.add_assoc _ _ _⟩

theorem position_of_takeBytes {n : Nat} {c last : Cursor} {bytes : List UInt8}
    (h : takeBytes n c = .ok (bytes, last)) : last.position = c.position + n := by
  unfold takeBytes at h
  split at h
  · exact nomatch h
  · cases h
    rfl

theorem position_of_readU8 {c last : Cursor} {b : UInt8} (h : readU8 c = .ok (b, last)) :
    last.position = c.position + 1 := by
  obtain ⟨bytes, between, htake, ⟨⟩⟩ := run_bind_eq_ok.mp h
  exact position_of_takeBytes htake

/-- The instruction has a reference that it can have, and its strings have room in constants. -/
def WritableInstruction (i : Instruction) : Prop :=
  i.Fits ∧ ∀ text ∈ i.reference.texts, FitsConstant text

/-- What is found at `offset` is an instruction with that offset, or nothing that matters. -/
def FoundAt (offset : Nat) (found : Option Instruction) : Prop :=
  ∀ i ∈ found, i.offset = .ofNat offset ∧ WritableInstruction i

namespace Operands

theorem kind_of_type {code : UInt8} {kind : InstructionKind} {extra : Nat}
    (h : of? code = some (.type kind extra)) :
    kind.isFieldAccess = false ∧ kind.isInvocation = false := by
  unfold of? at h
  split at h
  iterate 5 exact nomatch h
  split at h
  · cases h
    exact ⟨rfl, rfl⟩
  · next found _ _ =>
    split_ifs at h with hmember
    · exact nomatch h
    · obtain ⟨rfl, -⟩ := Operands.type.inj (Option.some.inj h)
      simpa using hmember
  · cases hplain : plainOperands code <;> rw [hplain] at h <;> exact nomatch h

theorem sequential_read (pool : Pool) (method : String) (offset : Nat) (operands : Operands) :
    Sequential (operands.read pool method offset) := by
  cases operands with
  | constant wide =>
    refine .ite (sequential_readU16.bind fun index => ?_)
      ((sequential_readU8.map _).bind fun index => ?_)
    all_goals
      refine (Sequential.lift _).bind fun constant => ?_
      split
      · exact (Sequential.lift _).bind fun name => .pure _
      · exact .pure none
  | member kind =>
    refine sequential_readU16.bind fun index => .ite ((sequential_skip 2).bind fun _ => ?_) ?_
    all_goals
      refine (Sequential.lift _).bind fun found => ?_
      split
      · exact .ite (.pure _) (.throw_bind _ _)
      · exact .ite (.pure _) (.throw_bind _ _)
  | type kind extra =>
    exact sequential_readU16.bind fun index => (sequential_skip extra).bind fun _ =>
      (Sequential.lift _).bind fun name => .pure _
  | tableSwitch =>
    exact (sequential_skip _).bind fun _ => (sequential_skip 4).bind fun _ =>
      sequential_readI32.bind fun low => sequential_readI32.bind fun high =>
        .ite (.throw_bind _ _) ((sequential_skip _).bind fun _ => .pure none)
  | lookupSwitch =>
    exact (sequential_skip _).bind fun _ => (sequential_skip 4).bind fun _ =>
      sequential_readI32.bind fun pairs =>
        .ite (.throw_bind _ _) ((sequential_skip _).bind fun _ => .pure none)
  | widened => exact sequential_readU8.bind fun code => (sequential_skip _).bind fun _ => .pure _
  | plain length => exact (sequential_skip length).bind fun _ => .pure _

theorem answers_read {pool : Pool} (hpool : pool.TextsFit) (method : String) (offset : Nat)
    {code : UInt8} {operands : Operands} (hcode : of? code = some operands) :
    Answers (operands.read pool method offset) (FoundAt offset) := by
  have hnone : Answers (Pure.pure none : Decoder (Option Instruction)) (FoundAt offset) :=
    .pure (by simp [FoundAt])
  have htype {kind : InstructionKind} (hfield : kind.isFieldAccess = false)
      (hinvocation : kind.isInvocation = false) (index : UInt16) :
      Answers (do return some (Instruction.of kind (.type (← pool.typeName index)) (.ofNat offset)))
        (FoundAt offset) := by
    refine (Answers.lift (Pool.fits_typeName hpool index)).bind fun name hname => .pure ?_
    rintro i ⟨⟩
    exact ⟨rfl, ⟨hfield, hinvocation, rfl⟩, by simpa [Reference.texts, Instruction.of] using hname⟩
  cases operands with
  | constant wide =>
    refine .ite (.after fun index => .after fun constant => ?_)
      (.after fun index => .after fun constant => ?_)
    all_goals
      split
      · exact htype rfl rfl index
      · exact hnone
  | member kind =>
    refine .after fun index => .ite (.after fun _ => ?_) ?_
    all_goals
      refine (Answers.lift fun found h => Pool.fits_member hpool index found.1 found.2 h).bind
        fun found hfound => ?_
      split
      · split
        · next hkind =>
          refine .pure ?_
          rintro i ⟨⟩
          exact ⟨rfl, ⟨hkind, rfl⟩, hfound⟩
        · exact .throw_bind _ _
      · split
        · next hkind =>
          refine .pure ?_
          rintro i ⟨⟩
          exact ⟨rfl, hkind, hfound⟩
        · exact .throw_bind _ _
  | type kind extra =>
    obtain ⟨hfield, hinvocation⟩ := kind_of_type hcode
    exact .after fun index => .after fun _ => htype hfield hinvocation index
  | tableSwitch =>
    exact .after fun _ => .after fun _ => .after fun low => .after fun high =>
      .ite (.throw_bind _ _) (.after fun _ => hnone)
  | lookupSwitch =>
    exact .after fun _ => .after fun _ => .after fun pairs =>
      .ite (.throw_bind _ _) (.after fun _ => hnone)
  | widened => exact .after fun code => .after fun _ => hnone
  | plain length => exact .after fun _ => hnone

end Operands

/-- One instruction is found where the cursor stands, and moves the cursor on. -/
theorem readInstruction_found {pool : Pool} (hpool : pool.TextsFit) {method : String}
    {c last : Cursor} {found : Option Instruction}
    (h : readInstruction pool method c = .ok (found, last)) :
    FoundAt c.position found ∧ c.position < last.position ∧ last.limit = c.limit := by
  obtain ⟨_, _, ⟨⟩, h⟩ := run_bind_eq_ok.mp h
  obtain ⟨code, between, hcode, h⟩ := run_bind_eq_ok.mp h
  have hmoved := position_of_readU8 hcode
  cases hoperands : Operands.of? code with
  | none =>
    rw [hoperands] at h
    exact nomatch h
  | some operands =>
    rw [hoperands] at h
    obtain ⟨-, hcode⟩ := sequential_readU8.moves hcode
    obtain ⟨hforward, hlimit⟩ := (operands.sequential_read pool method c.position).moves h
    exact ⟨operands.answers_read hpool method c.position hoperands _ _ _ h, by omega,
      hlimit.trans hcode⟩

/-- Instructions that can be written, each behind the one before it. -/
structure WritableCode (is : List Instruction) : Prop where
  instructions : ∀ i ∈ is, WritableInstruction i
  offsets : is.Pairwise (·.offset < ·.offset)

theorem WritableCode.nil : WritableCode [] := ⟨by simp, .nil⟩

/-- In code whose offsets fit into 32 bits. -/
theorem readInstructions_found {pool : Pool} (hpool : pool.TextsFit) {method : String}
    {fuel : Nat} {c last : Cursor} (hlimit : c.limit ≤ 2 ^ 32) {is : List Instruction}
    (h : readInstructions pool method fuel c = .ok (is, last)) :
    WritableCode is ∧ ∀ i ∈ is, c.position ≤ i.offset.toNat := by
  induction fuel generalizing c is with
  | zero =>
    cases h
    exact ⟨.nil, by simp⟩
  | succ fuel ih =>
    obtain ⟨_, _, ⟨⟩, h⟩ := run_bind_eq_ok.mp h
    split at h
    · cases h
      exact ⟨.nil, by simp⟩
    obtain ⟨found, between, hfound, h⟩ := run_bind_eq_ok.mp h
    obtain ⟨rest, _, hrest, ⟨⟩⟩ := run_bind_eq_ok.mp h
    obtain ⟨hfirst, hmoved, hsame⟩ := readInstruction_found hpool hfound
    obtain ⟨⟨hfits, hordered⟩, hbehind⟩ := ih (hsame.trans_le hlimit) hrest
    cases found with
    | none => exact ⟨⟨hfits, hordered⟩, fun i hi => hmoved.le.trans (hbehind i hi)⟩
    | some i =>
      obtain ⟨hword, hwritable⟩ := hfirst i rfl
      have hlt : c.position < 2 ^ 32 :=
        hmoved.trans_le ((Nat.le_add_right _ _).trans (hsame.trans_le hlimit))
      have hoffset : i.offset.toNat = c.position := by
        rw [hword]
        exact UInt32.toNat_ofNat_of_lt' hlt
      refine ⟨⟨List.forall_mem_cons.mpr ⟨hwritable, hfits⟩, .cons ?_ hordered⟩,
        List.forall_mem_cons.mpr ⟨hoffset.ge, fun j hj => hmoved.le.trans (hbehind j hj)⟩⟩
      intro j hj
      rw [UInt32.lt_iff_toNat_lt, hoffset]
      exact hmoved.trans_le (hbehind j hj)

theorem decodeCode_writable {pool : Pool} (hpool : pool.TextsFit) {method : String}
    {code : List UInt8} (hlength : code.length ≤ 2 ^ 32) (is : List Instruction)
    (h : decodeCode code pool method = .ok is) : WritableCode is := by
  obtain ⟨last, hrun⟩ := fst_map_eq_ok.mp h
  have hlimit : (Cursor.start code).limit ≤ 2 ^ 32 := (Nat.zero_add _).trans_le hlength
  exact (readInstructions_found hpool hlimit hrun).1

end Linkage.Format

import Linkage.Proofs.Format.Answers

/-! What is read with a pool is read with every larger one, wherever in the file it stands. -/
namespace Linkage.Format

variable {α β : Type}

/-- Every constant of the pool has the same index in the other one. -/
def Pool.Within (pool more : Pool) : Prop :=
  ∀ index constant, pool.get index = .ok constant → more.get index = .ok constant

namespace Pool.Within

variable {pool more : Pool} (h : pool.Within more) {index : UInt16}
include h

theorem utf8 {text : String} (hok : pool.utf8 index = .ok text) : more.utf8 index = .ok text := by
  obtain ⟨constant, hget, hok⟩ := bind_eq_ok.mp hok
  exact bind_eq_ok.mpr ⟨constant, h index constant hget, hok⟩

theorem typeName {name : String} (hok : pool.typeName index = .ok name) :
    more.typeName index = .ok name := by
  obtain ⟨constant, hget, hok⟩ := bind_eq_ok.mp hok
  refine bind_eq_ok.mpr ⟨constant, h index constant hget, ?_⟩
  cases constant with
  | type name => exact h.utf8 hok
  | _ => cases hok

theorem nameAndType {pair : String × String} (hok : pool.nameAndType index = .ok pair) :
    more.nameAndType index = .ok pair := by
  obtain ⟨constant, hget, hok⟩ := bind_eq_ok.mp hok
  refine bind_eq_ok.mpr ⟨constant, h index constant hget, ?_⟩
  cases constant with
  | nameAndType first second =>
    obtain ⟨name, hname, hok⟩ := bind_eq_ok.mp hok
    obtain ⟨descriptor, hdescriptor, hok⟩ := bind_eq_ok.mp hok
    exact bind_eq_ok.mpr ⟨name, h.utf8 hname,
      bind_eq_ok.mpr ⟨descriptor, h.utf8 hdescriptor, hok⟩⟩
  | _ => cases hok

theorem member {found : MemberKind × MemberRef} (hok : pool.member index = .ok found) :
    more.member index = .ok found := by
  obtain ⟨constant, hget, hok⟩ := bind_eq_ok.mp hok
  refine bind_eq_ok.mpr ⟨constant, h index constant hget, ?_⟩
  have hparts {kind : MemberKind} {owner signature : UInt16}
      (hok : (do
        let owner ← pool.typeName owner
        let pair ← pool.nameAndType signature
        return (kind, (⟨owner, pair.1, pair.2⟩ : MemberRef))) = .ok found) :
      (do
        let owner ← more.typeName owner
        let pair ← more.nameAndType signature
        return (kind, (⟨owner, pair.1, pair.2⟩ : MemberRef))) = .ok found := by
    obtain ⟨owner, howner, hok⟩ := bind_eq_ok.mp hok
    obtain ⟨pair, hpair, hok⟩ := bind_eq_ok.mp hok
    exact bind_eq_ok.mpr ⟨owner, h.typeName howner, bind_eq_ok.mpr ⟨pair, h.nameAndType hpair, hok⟩⟩
  cases constant with
  | fieldRef owner signature => exact hparts hok
  | methodRef owner signature => exact hparts hok
  | interfaceMethodRef owner signature => exact hparts hok
  | _ => cases hok

end Pool.Within

/-- Where the decoder answers, the other one takes the same bytes and answers the same, at every
position that is related to its own. -/
def Carries (related : Nat → Nat → Prop) (decoder other : Decoder α) : Prop :=
  ∀ ⦃p p' : Nat⦄ ⦃bytes : List UInt8⦄ ⦃a : α⦄ ⦃c : Cursor⦄, related p p' →
    decoder ⟨p, bytes⟩ = .ok (a, c) →
      ∃ q', related c.position q' ∧ other ⟨p', bytes⟩ = .ok (a, ⟨q', c.rest⟩)

/-- Positions that are related stay so when both go on by the same way. -/
class Advances (related : Nat → Nat → Prop) : Prop where
  advance : ∀ {p p' : Nat} (n : Nat), related p p' → related (p + n) (p' + n)

instance : Advances Eq := ⟨fun _ h => h ▸ rfl⟩

/-- Wherever it is: any two positions. -/
def Anywhere (_ _ : Nat) : Prop := True

instance : Advances Anywhere := ⟨fun _ _ => trivial⟩

namespace Carries

variable {related : Nat → Nat → Prop} {decoder other : Decoder α}

protected theorem pure (a : α) : Carries related (Pure.pure a) (Pure.pure a) := by
  rintro p p' bytes _ _ hp ⟨⟩
  exact ⟨p', hp, rfl⟩

protected theorem throw (fault : Fault) : Carries related (throw fault) other :=
  fun _ _ _ _ _ _ h => nomatch h

protected theorem lift {answer otherAnswer : Except Fault α}
    (h : ∀ a, answer = .ok a → otherAnswer = .ok a) :
    Carries related (liftM answer : Decoder α) (liftM otherAnswer : Decoder α) := by
  intro p p' bytes a c hp hrun
  cases answer with
  | error fault => exact nomatch hrun
  | ok b =>
    cases hrun
    rw [h _ rfl]
    exact ⟨p', hp, rfl⟩

protected theorem bind {next otherNext : α → Decoder β} (first : Carries related decoder other)
    (second : ∀ a, Carries related (next a) (otherNext a)) :
    Carries related (decoder >>= next) (other >>= otherNext) := by
  intro p p' bytes b c hp hrun
  obtain ⟨a, ⟨q, rest⟩, hfirst, hsecond⟩ := run_bind_eq_ok.mp hrun
  obtain ⟨q', hq, hother⟩ := first hp hfirst
  obtain ⟨r', hr, hlast⟩ := second a hq hsecond
  exact ⟨r', hr, run_bind_eq_ok.mpr ⟨a, _, hother, hlast⟩⟩

protected theorem map (f : α → β) (h : Carries related decoder other) :
    Carries related (f <$> decoder) (f <$> other) :=
  h.bind fun a => .pure (f a)

protected theorem ite {condition : Prop} [Decidable condition] {yes no otherYes otherNo : Decoder α}
    (hyes : Carries related yes otherYes) (hno : Carries related no otherNo) :
    Carries related (if condition then yes else no) (if condition then otherYes else otherNo) := by
  split
  · exact hyes
  · exact hno

/-- Nothing is answered after a fault. -/
theorem throw_bind (fault : Fault) (next : α → Decoder β) {other : Decoder β} :
    Carries related ((throw fault : Decoder α) >>= next) other :=
  fun _ _ _ _ _ _ h => nomatch h

/-- A byte string of its own starts at the same position for both. -/
protected theorem within {inner : Nat → Nat → Prop} (hstart : inner 0 0)
    (h : Carries inner decoder other) (bytes : List UInt8) :
    Carries related (decoder.within bytes) (other.within bytes) := by
  intro p p' rest a c hp hrun
  unfold Decoder.within Cursor.start at *
  split at hrun
  · next hinner =>
    cases hrun
    obtain ⟨q', -, hother⟩ := h hstart hinner
    rw [hother]
    exact ⟨p', hp, rfl⟩
  · exact nomatch hrun

/-- What asks where it is, where both are at the same position. -/
theorem bind_get {next otherNext : Cursor → Decoder α}
    (h : ∀ c, Carries Eq (next c) (otherNext c)) :
    Carries Eq (get >>= next) (get >>= otherNext) := by
  rintro p _ bytes a c rfl hrun
  exact h ⟨p, bytes⟩ rfl hrun

protected theorem «repeat» (h : Carries related decoder other) (n : Nat) :
    Carries related (repeatDecoder decoder n) (repeatDecoder other n) := by
  induction n with
  | zero => exact .pure []
  | succ n ih => exact h.bind fun _ => ih.bind fun _ => .pure _

/-- What index zero leaves out. -/
theorem optional (index : UInt16) {found otherFound : Except Fault α}
    {next otherNext : Option α → Decoder β} (hfound : ∀ a, found = .ok a → otherFound = .ok a)
    (hnext : ∀ a, Carries related (next a) (otherNext a)) :
    Carries related
      (do
        let a ← if index = 0 then pure none else some <$> found
        next a)
      (do
        let a ← if index = 0 then pure none else some <$> otherFound
        otherNext a) :=
  .ite ((Carries.pure none).bind hnext) (((Carries.lift hfound).map some).bind hnext)

end Carries

section Reading

variable {related : Nat → Nat → Prop} [Advances related]

theorem carries_takeBytes (n : Nat) : Carries related (takeBytes n) (takeBytes n) := by
  intro p p' bytes a c hp hrun
  unfold takeBytes at hrun ⊢
  split at hrun
  · exact nomatch hrun
  · next hlength =>
    cases hrun
    exact ⟨p' + n, Advances.advance n hp, if_neg hlength⟩

theorem carries_skip (n : Nat) : Carries related (skip n) (skip n) :=
  (carries_takeBytes n).bind fun _ => .pure ()

theorem carries_readU8 : Carries related readU8 readU8 :=
  (carries_takeBytes 1).bind fun _ => .pure _

theorem carries_readU16 : Carries related readU16 readU16 :=
  (carries_takeBytes 2).bind fun _ => .pure _

theorem carries_readU32 : Carries related readU32 readU32 :=
  (carries_takeBytes 4).bind fun _ => .pure _

theorem carries_readI32 : Carries related readI32 readI32 :=
  carries_readU32.bind fun _ => .pure _

/-- A table: how many rows it has, and its rows. -/
theorem Carries.table {step otherStep : Decoder α} {next otherNext : List α → Decoder β}
    (h : Carries related step otherStep) (hnext : ∀ as, Carries related (next as) (otherNext as)) :
    Carries related (do next (← repeatDecoder step (← readU16).toNat))
      (do otherNext (← repeatDecoder otherStep (← readU16).toNat)) :=
  carries_readU16.bind fun count => (h.repeat count.toNat).bind hnext

/-- What takes a two-byte index and looks it up. -/
theorem Carries.indexed {find otherFind : UInt16 → Except Fault α}
    {next otherNext : α → Decoder β}
    (hfind : ∀ index a, find index = .ok a → otherFind index = .ok a)
    (hnext : ∀ a, Carries related (next a) (otherNext a)) :
    Carries related (do next (← find (← readU16))) (do otherNext (← otherFind (← readU16))) :=
  carries_readU16.bind fun index => (Carries.lift (hfind index)).bind hnext

end Reading

section Code

variable {pool more : Pool} (hpool : pool.Within more)
include hpool

/-- The offset of an instruction is part of the answer: both are at the same position. -/
theorem carries_operands (method : String) (offset : Nat) (operands : Operands) :
    Carries Eq (operands.read pool method offset) (operands.read more method offset) := by
  cases operands with
  | constant wide =>
    rw [read_constantOperands, read_constantOperands]
    have hindex : Carries Eq (if wide then readU16 else UInt8.toUInt16 <$> readU8)
        (if wide then readU16 else UInt8.toUInt16 <$> readU8) :=
      .ite carries_readU16 (carries_readU8.map _)
    refine hindex.bind fun index => (Carries.lift (hpool index)).bind fun constant => ?_
    split
    · exact (Carries.lift fun _ => hpool.typeName).bind fun _ => .pure _
    · exact .pure none
  | member kind =>
    refine carries_readU16.bind fun index =>
      .ite ((carries_skip 2).bind fun _ => ?_) ?_
    all_goals
      refine (Carries.lift fun _ => hpool.member).bind fun found => ?_
      split
      · exact .ite (.pure _) (.throw_bind _ _)
      · exact .ite (.pure _) (.throw_bind _ _)
  | type kind extra =>
    exact carries_readU16.bind fun index => (carries_skip extra).bind fun _ =>
      (Carries.lift fun _ => hpool.typeName).bind fun _ => .pure _
  | tableSwitch =>
    refine (carries_skip _).bind fun _ => (carries_skip 4).bind fun _ => ?_
    refine carries_readI32.bind fun low => carries_readI32.bind fun high => ?_
    exact .ite (.throw_bind _ _) ((carries_skip _).bind fun _ => .pure none)
  | lookupSwitch =>
    refine (carries_skip _).bind fun _ => (carries_skip 4).bind fun _ => ?_
    refine carries_readI32.bind fun pairs => ?_
    exact .ite (.throw_bind _ _) ((carries_skip _).bind fun _ => .pure none)
  | widened =>
    exact carries_readU8.bind fun _ => (carries_skip _).bind fun _ => .pure none
  | plain length => exact (carries_skip length).bind fun _ => .pure none

theorem carries_readInstruction (method : String) :
    Carries Eq (readInstruction pool method) (readInstruction more method) := by
  refine Carries.bind_get fun c => carries_readU8.bind fun code => ?_
  split
  · exact carries_operands hpool method c.position _
  · exact .throw _

theorem carries_readInstructions (method : String) (fuel : Nat) :
    Carries Eq (readInstructions pool method fuel) (readInstructions more method fuel) := by
  induction fuel with
  | zero => exact .pure []
  | succ fuel ih =>
    refine Carries.bind_get fun c => .ite (.pure []) ?_
    exact (carries_readInstruction hpool method).bind fun _ => ih.bind fun _ => .pure _

theorem decodeCode_of_within {code : List UInt8} {method : String} {is : List Instruction}
    (h : decodeCode code pool method = .ok is) : decodeCode code more method = .ok is := by
  obtain ⟨last, hrun⟩ := fst_map_eq_ok.mp h
  obtain ⟨q', -, hmore⟩ := carries_readInstructions hpool method code.length rfl hrun
  exact fst_map_eq_ok.mpr ⟨_, hmore⟩

end Code

theorem carries_skipAttribute : Carries Anywhere skipAttribute skipAttribute :=
  (carries_skip 2).bind fun _ => carries_readU32.bind fun _ =>
    carries_skip _

section Class

variable {pool more : Pool} (hpool : pool.Within more)
include hpool

theorem carries_readAttribute :
    Carries Anywhere (readAttribute pool) (readAttribute more) :=
  .indexed (fun _ _ => hpool.utf8) fun _ =>
    carries_readU32.bind fun _ =>
      (carries_takeBytes _).bind fun _ => .pure _

theorem carries_readField : Carries Anywhere (readField pool) (readField more) :=
  carries_readU16.bind fun _ =>
    .indexed (fun _ _ => hpool.utf8) fun _ =>
      .indexed (fun _ _ => hpool.utf8) fun _ =>
        carries_skipAttribute.table fun _ => .pure _

theorem carries_readCodeBody (method : String) :
    Carries Anywhere (readCodeBody pool method) (readCodeBody more method) :=
  (carries_skip 4).bind fun _ => carries_readU32.bind fun _ =>
    (carries_takeBytes _).bind fun _ =>
      .lift fun _ => decodeCode_of_within hpool

theorem carries_readMethodAttributes (method : String) (n : Nat)
    (instructions : List Instruction) :
    Carries Anywhere (readMethodAttributes pool method n instructions)
      (readMethodAttributes more method n instructions) := by
  induction n generalizing instructions with
  | zero => exact .pure instructions
  | succ n ih =>
    refine (carries_readAttribute hpool).bind fun _ => .ite ?_ (ih instructions)
    exact ((carries_readCodeBody hpool method).within trivial _).bind fun body => ih body

theorem carries_readMethod : Carries Anywhere (readMethod pool) (readMethod more) :=
  carries_readU16.bind fun _ =>
    .indexed (fun _ _ => hpool.utf8) fun _ =>
      .indexed (fun _ _ => hpool.utf8) fun _ =>
        carries_readU16.bind fun _ =>
          (carries_readMethodAttributes hpool _ _ _).bind fun _ => .pure _

theorem carries_readTypeName : Carries Anywhere (readTypeName pool) (readTypeName more) :=
  carries_readU16.bind fun _ => .lift fun _ => hpool.typeName

theorem carries_readClassAttributes (n : Nat) (nest : Nest) :
    Carries Anywhere (readClassAttributes pool n nest) (readClassAttributes more n nest) := by
  induction n generalizing nest with
  | zero => exact .pure nest
  | succ n ih =>
    refine (carries_readAttribute hpool).bind fun _ => .ite ?_ (.ite ?_ (ih nest))
    · exact ((carries_readTypeName hpool).within trivial _).bind fun host => ih _
    · have hmembers : Carries Anywhere
          (do repeatDecoder (readTypeName pool) (← readU16).toNat)
          (do repeatDecoder (readTypeName more) (← readU16).toNat) :=
        carries_readU16.bind fun count =>
          (carries_readTypeName hpool).repeat count.toNat
      exact (hmembers.within trivial _).bind fun members => ih _

end Class

/-- What stands after the pool. -/
def readBody (major : UInt16) (pool : Pool) : Decoder ClassFile := do
  let access ← readU16
  let name ← readTypeName pool
  let superIndex ← readU16
  let superName ← if superIndex = 0 then pure none else some <$> pool.typeName superIndex
  let interfaces ← repeatDecoder (readTypeName pool) (← readU16).toNat
  let fields ← repeatDecoder (readField pool) (← readU16).toNat
  let methods ← repeatDecoder (readMethod pool) (← readU16).toNat
  let nest ← readClassAttributes pool (← readU16).toNat {}
  return {
    name, superName, interfaces, access := ⟨access⟩, majorVersion := major, fields, methods
    nestHost := nest.host, nestMembers := nest.members }

/-- A class file is a head of eight bytes, the pool and the rest. -/
theorem readClass_eq : readClass = (do
    let found ← readU32
    if found ≠ magic then throw (.badMagic found)
    let _minor ← readU16
    let major ← readU16
    let pool ← Pool.read
    readBody major pool) := rfl

theorem carries_readBody {pool more : Pool} (hpool : pool.Within more) (major : UInt16) :
    Carries Anywhere (readBody major pool) (readBody major more) := by
  refine carries_readU16.bind fun access => ?_
  refine (carries_readTypeName hpool).bind fun name => ?_
  refine carries_readU16.bind fun index => ?_
  refine .optional index (fun _ => hpool.typeName) fun superName => ?_
  refine (carries_readTypeName hpool).table fun interfaces => ?_
  refine (carries_readField hpool).table fun fields => ?_
  refine (carries_readMethod hpool).table fun methods => ?_
  exact carries_readU16.bind fun _ =>
    (carries_readClassAttributes hpool _ _).bind fun nest => .pure _

end Linkage.Format

import Linkage.Format.Encode
import Linkage.Proofs.Format.Reading
import Linkage.Proofs.Text.ModifiedUtf8

/-! Constants that are written once: each index still means its constant when the pool is done. -/
namespace Linkage.Format

/-- The constants that a constant refers to by index. -/
def PoolKey.needs : PoolKey → List PoolKey
  | .utf8 _ => []
  | .type name => [.utf8 name]
  | .nameAndType name descriptor => [.utf8 name, .utf8 descriptor]
  | .member _ ref => [.type ref.owner, .nameAndType ref.name ref.descriptor]

/-- The strings that stand in a constant and below it. -/
def PoolKey.texts : PoolKey → List String
  | .utf8 text => [text]
  | .type name => [name]
  | .nameAndType name descriptor => [name, descriptor]
  | .member _ ref => [ref.owner, ref.name, ref.descriptor]

theorem PoolKey.texts_of_needs {key need : PoolKey} (h : need ∈ key.needs) :
    need.texts ⊆ key.texts := by
  cases key <;> simp only [needs, List.mem_cons, List.not_mem_nil, or_false] at h
  · subst h
    simp [texts]
  · rcases h with rfl | rfl <;> simp [texts]
  · rcases h with rfl | rfl <;> simp [texts]

/-- Members stand on classes and signatures, and these on strings. -/
theorem PoolKey.inductionOnNeeds {motive : PoolKey → Prop}
    (step : ∀ key, (∀ need ∈ key.needs, motive need) → motive key) (key : PoolKey) :
    motive key := by
  have htext (text : String) : motive (.utf8 text) := step _ (by simp [needs])
  have htype (name : String) : motive (.type name) := step _ (by simp [needs, htext])
  have hpair (name descriptor : String) : motive (.nameAndType name descriptor) :=
    step _ (by simp [needs, htext])
  cases key with
  | utf8 text => exact htext text
  | type name => exact htype name
  | nameAndType name descriptor => exact hpair name descriptor
  | member kind ref => exact step _ (by simp [needs, htype, hpair])

/-- The constant for members of a kind. -/
def MemberKind.constant : MemberKind → (owner signature : UInt16) → Constant
  | .field => .fieldRef
  | .method => .methodRef
  | .interfaceMethod => .interfaceMethodRef

namespace Pool

variable {pool : Pool} {index : UInt16}

/-- The constant stands in the slot of that index. -/
def Holds (pool : Pool) (index : UInt16) (constant : Constant) : Prop :=
  pool.slots[index.toNat]? = some constant

/-- What an index means, when all the constants that stand behind it are of the right kind. -/
inductive Means (pool : Pool) : (index : UInt16) → PoolKey → Prop
  | utf8 {index : UInt16} {text : String} (h : pool.Holds index (.utf8 text)) :
      Means pool index (.utf8 text)
  | type {index text : UInt16} {name : String} (h : pool.Holds index (.type text))
      (hname : Means pool text (.utf8 name)) : Means pool index (.type name)
  | nameAndType {index first second : UInt16} {name descriptor : String}
      (h : pool.Holds index (.nameAndType first second))
      (hname : Means pool first (.utf8 name)) (hdescriptor : Means pool second (.utf8 descriptor)) :
      Means pool index (.nameAndType name descriptor)
  | member {index owner signature : UInt16} {kind : MemberKind} {ref : MemberRef}
      (h : pool.Holds index (kind.constant owner signature))
      (howner : Means pool owner (.type ref.owner))
      (hsignature : Means pool signature (.nameAndType ref.name ref.descriptor)) :
      Means pool index (.member kind ref)

theorem get_of_holds {constant : Constant} (h : pool.Holds index constant)
    (husable : constant ≠ .unusable) : pool.get index = .ok constant := by
  unfold Holds at h
  unfold get
  rw [h]
  split
  · next heq => simp at heq
  · next heq => exact absurd (Option.some.inj heq) husable
  · next heq => rw [Option.some.inj heq]

theorem utf8_of_means {text : String} (h : pool.Means index (.utf8 text)) :
    pool.utf8 index = .ok text := by
  cases h with
  | utf8 h =>
    unfold utf8
    rw [get_of_holds h (by simp)]
    rfl

theorem typeName_of_means {name : String} (h : pool.Means index (.type name)) :
    pool.typeName index = .ok name := by
  cases h with
  | type h hname =>
    unfold typeName
    rw [get_of_holds h (by simp)]
    exact utf8_of_means hname

theorem nameAndType_of_means {name descriptor : String}
    (h : pool.Means index (.nameAndType name descriptor)) :
    pool.nameAndType index = .ok (name, descriptor) := by
  cases h with
  | @nameAndType _ first second _ _ h hname hdescriptor =>
    unfold nameAndType
    rw [get_of_holds h (by simp)]
    change (do return (← pool.utf8 first, ← pool.utf8 second) : Except Fault _) = _
    rw [utf8_of_means hname, utf8_of_means hdescriptor]
    rfl

theorem member_of_means {kind : MemberKind} {ref : MemberRef}
    (h : pool.Means index (.member kind ref)) : pool.member index = .ok (kind, ref) := by
  cases h with
  | member h howner hsignature =>
    have howner := typeName_of_means howner
    have hsignature := nameAndType_of_means hsignature
    unfold member
    rw [get_of_holds h (by cases kind <;> simp [MemberKind.constant])]
    cases kind <;>
      simp only [MemberKind.constant, bind, Except.bind, pure, Except.pure, howner, hsignature]

end Pool

namespace PoolBuilder

/-- Adds constants one after the other. -/
def internAll (pool : PoolBuilder) (keys : List PoolKey) : PoolBuilder := keys.foldl intern pool

@[simp] theorem internAll_nil (pool : PoolBuilder) : pool.internAll [] = pool := rfl

@[simp] theorem internAll_cons (pool : PoolBuilder) (key : PoolKey) (keys : List PoolKey) :
    pool.internAll (key :: keys) = (pool.intern key).internAll keys := rfl

theorem internAll_append (pool : PoolBuilder) (front back : List PoolKey) :
    pool.internAll (front ++ back) = (pool.internAll front).internAll back :=
  List.foldl_append

/-- Whatever its kind, a new constant comes right after what it needs. -/
theorem intern_eq (pool : PoolBuilder) (key : PoolKey) :
    pool.intern key = if key ∈ pool.keys then pool else (pool.internAll key.needs).add key := by
  cases key with
  | utf8 text =>
    change pool.add (.utf8 text) = _
    unfold add
    split <;> simp_all [PoolKey.needs]
  | type name => rfl
  | nameAndType name descriptor => rfl
  | member kind ref => rfl

theorem mem_add (pool : PoolBuilder) (key other : PoolKey) :
    other ∈ (pool.add key).keys ↔ other ∈ pool.keys ∨ other = key := by
  unfold add
  split
  · next h =>
    constructor
    · exact Or.inl
    · rintro (h' | rfl)
      · exact h'
      · exact h
  · simp

theorem prefix_add (pool : PoolBuilder) (key : PoolKey) : pool.keys <+: (pool.add key).keys := by
  unfold add
  split
  · exact List.prefix_refl _
  · exact List.prefix_append _ _

/-- What every single step keeps is kept by all of them. -/
theorem internAll_invariant {motive : PoolBuilder → Prop} {keys : List PoolKey}
    (step : ∀ key ∈ keys, ∀ pool, motive pool → motive (pool.intern key))
    {pool : PoolBuilder} (h : motive pool) : motive (pool.internAll keys) := by
  induction keys generalizing pool with
  | nil => exact h
  | cons key keys ih =>
    exact ih (fun k hk => step k (List.mem_cons_of_mem key hk)) (step key (by simp) pool h)

/-- What is written stays where it is. -/
theorem prefix_intern (pool : PoolBuilder) (key : PoolKey) :
    pool.keys <+: (pool.intern key).keys := by
  induction key using PoolKey.inductionOnNeeds generalizing pool with
  | step key ih =>
    rw [intern_eq]
    split
    · exact List.prefix_refl _
    · have hneeds : pool.keys <+: (pool.internAll key.needs).keys :=
        internAll_invariant (motive := fun p => pool.keys <+: p.keys)
          (fun need hneed p hp => hp.trans (ih need hneed p)) (List.prefix_refl _)
      exact hneeds.trans (prefix_add _ key)

theorem prefix_internAll (pool : PoolBuilder) (keys : List PoolKey) :
    pool.keys <+: (pool.internAll keys).keys :=
  internAll_invariant (motive := fun p => pool.keys <+: p.keys)
    (fun key _ p hp => hp.trans (prefix_intern p key)) (List.prefix_refl _)

theorem mem_intern (pool : PoolBuilder) (key : PoolKey) : key ∈ (pool.intern key).keys := by
  rw [intern_eq]
  split
  · assumption
  · exact (mem_add _ key key).mpr (Or.inr rfl)

theorem mem_internAll {keys : List PoolKey} {key : PoolKey} (h : key ∈ keys) (pool : PoolBuilder) :
    key ∈ (pool.internAll keys).keys := by
  induction keys generalizing pool with
  | nil => simp at h
  | cons first keys ih =>
    rcases List.mem_cons.mp h with rfl | h
    · exact (prefix_internAll _ keys).subset (mem_intern pool key)
    · exact ih h _

/-- Only constants of these texts are added, each when what it needs is there. -/
theorem intern_invariant {motive : PoolBuilder → Prop} {key : PoolKey}
    (step : ∀ k pool, k.texts ⊆ key.texts → k.needs ⊆ pool.keys → motive pool →
      motive (pool.add k))
    {pool : PoolBuilder} (h : motive pool) : motive (pool.intern key) := by
  induction key using PoolKey.inductionOnNeeds generalizing pool with
  | step key ih =>
    rw [intern_eq]
    split
    · exact h
    · refine step key _ (fun _ => id) (fun need hneed => mem_internAll hneed pool) ?_
      refine internAll_invariant (fun need hneed p hp => ih need hneed ?_ hp) h
      exact fun k p htexts => step k p (List.Subset.trans htexts (PoolKey.texts_of_needs hneed))

/-- Every constant that is referred to is there. -/
def Closed (pool : PoolBuilder) : Prop := ∀ key ∈ pool.keys, key.needs ⊆ pool.keys

theorem closed_empty : Closed {} := by simp [Closed]

theorem closed_add {pool : PoolBuilder} {key : PoolKey} (hpool : pool.Closed)
    (hneeds : key.needs ⊆ pool.keys) : (pool.add key).Closed := by
  intro other hother need hneed
  rw [mem_add] at hother ⊢
  left
  rcases hother with hother | rfl
  · exact hpool other hother hneed
  · exact hneeds hneed

theorem closed_internAll {pool : PoolBuilder} (hpool : pool.Closed) (keys : List PoolKey) :
    (pool.internAll keys).Closed :=
  internAll_invariant (motive := Closed) (fun _ _ _ h => intern_invariant
    (fun _ _ _ hneeds hp => closed_add hp hneeds) h) hpool

/-- All strings of the pool are among `texts`. -/
def TextsIn (pool : PoolBuilder) (texts : List String) : Prop :=
  ∀ text, .utf8 text ∈ pool.keys → text ∈ texts

theorem textsIn_internAll {pool : PoolBuilder} {texts : List String} (hpool : pool.TextsIn texts)
    {keys : List PoolKey} (hkeys : ∀ key ∈ keys, key.texts ⊆ texts) :
    (pool.internAll keys).TextsIn texts := by
  refine internAll_invariant (motive := fun p => p.TextsIn texts) (fun key hkey p hp => ?_) hpool
  refine intern_invariant (motive := fun p => p.TextsIn texts) ?_ hp
  intro k p htexts _ hp text htext
  rcases (mem_add p k _).mp htext with htext | rfl
  · exact hp text htext
  · exact hkeys key hkey (htexts (by simp [PoolKey.texts]))

/-- The index of a constant that is there does not change any more. -/
theorem indexOf_eq_of_prefix {pool final : PoolBuilder} (h : pool.keys <+: final.keys)
    {key : PoolKey} (hkey : key ∈ pool.keys) : final.indexOf key = pool.indexOf key := by
  obtain ⟨more, hmore⟩ := h
  unfold indexOf
  rw [← hmore, List.idxOf_append_of_mem hkey]

/-- The slot that a constant is read as. -/
def constant (pool : PoolBuilder) : PoolKey → Constant
  | .utf8 text => .utf8 text
  | .type name => .type (pool.indexOf (.utf8 name))
  | .nameAndType name descriptor =>
    .nameAndType (pool.indexOf (.utf8 name)) (pool.indexOf (.utf8 descriptor))
  | .member kind ref =>
    let owner := pool.indexOf (.type ref.owner)
    let signature := pool.indexOf (.nameAndType ref.name ref.descriptor)
    match kind with
    | .field => .fieldRef owner signature
    | .method => .methodRef owner signature
    | .interfaceMethod => .interfaceMethodRef owner signature

/-- The pool that a reader has when all constants are written. -/
def decoded (pool : PoolBuilder) : Pool :=
  ⟨(Constant.unusable :: pool.keys.map pool.constant).toArray⟩

/-- The pool can be written: all indices and all lengths have two bytes. -/
structure Sound (pool : PoolBuilder) : Prop where
  closed : pool.Closed
  size : pool.keys.length ≤ 65534
  texts : ∀ text, .utf8 text ∈ pool.keys → (ModifiedUtf8.encode text).length ≤ 65535

private theorem toNat_indexOf {pool : PoolBuilder} (hpool : pool.Sound) {key : PoolKey}
    (hkey : key ∈ pool.keys) : (pool.indexOf key).toNat = pool.keys.idxOf key + 1 := by
  have hlt := List.idxOf_lt_length_of_mem hkey
  have hsize := hpool.size
  exact UInt16.toNat_ofNat_of_lt' (show _ < 65536 by omega)

/-- Index zero is left for a class without a superclass. -/
theorem indexOf_ne_zero {pool : PoolBuilder} (hpool : pool.Sound) {key : PoolKey}
    (hkey : key ∈ pool.keys) : pool.indexOf key ≠ 0 := by
  intro hzero
  have hindex := toNat_indexOf hpool hkey
  rw [hzero, UInt16.toNat_zero] at hindex
  omega

theorem constant_ne_unusable (pool : PoolBuilder) (key : PoolKey) :
    pool.constant key ≠ .unusable := by
  unfold constant
  split <;> try simp
  split <;> simp

theorem isWide_constant (pool : PoolBuilder) (key : PoolKey) :
    (pool.constant key).isWide = false := by
  unfold constant
  split <;> try rfl
  dsimp only
  split <;> rfl

/-- An index leads to the constant it was given for. -/
theorem holds_decoded {pool : PoolBuilder} (hpool : pool.Sound) {key : PoolKey}
    (hkey : key ∈ pool.keys) :
    pool.decoded.Holds (pool.indexOf key) (pool.constant key) := by
  unfold Pool.Holds
  rw [toNat_indexOf hpool hkey]
  simp [decoded, List.getElem?_idxOf hkey]

theorem get_decoded {pool : PoolBuilder} (hpool : pool.Sound) {key : PoolKey}
    (hkey : key ∈ pool.keys) :
    pool.decoded.get (pool.indexOf key) = .ok (pool.constant key) :=
  Pool.get_of_holds (holds_decoded hpool hkey) (constant_ne_unusable pool key)

/-- So does each index behind it. -/
theorem means_decoded {pool : PoolBuilder} (hpool : pool.Sound) {key : PoolKey}
    (hkey : key ∈ pool.keys) : pool.decoded.Means (pool.indexOf key) key := by
  induction key using PoolKey.inductionOnNeeds with
  | step key ih =>
    have hneed (need : PoolKey) (h : need ∈ key.needs) :
        pool.decoded.Means (pool.indexOf need) need :=
      ih need h (hpool.closed _ hkey h)
    have hholds := holds_decoded hpool hkey
    cases key with
    | utf8 text => exact .utf8 hholds
    | type name => exact .type hholds (hneed _ (by simp [PoolKey.needs]))
    | nameAndType name descriptor =>
      exact .nameAndType hholds (hneed _ (by simp [PoolKey.needs]))
        (hneed _ (by simp [PoolKey.needs]))
    | member kind ref =>
      have hconstant : pool.constant (.member kind ref) = kind.constant
          (pool.indexOf (.type ref.owner))
          (pool.indexOf (.nameAndType ref.name ref.descriptor)) := by
        cases kind <;> rfl
      exact .member (hconstant ▸ hholds) (hneed _ (by simp [PoolKey.needs]))
        (hneed _ (by simp [PoolKey.needs]))

theorem utf8_decoded {pool : PoolBuilder} (hpool : pool.Sound) {text : String}
    (hkey : .utf8 text ∈ pool.keys) :
    pool.decoded.utf8 (pool.indexOf (.utf8 text)) = .ok text :=
  Pool.utf8_of_means (means_decoded hpool hkey)

theorem typeName_decoded {pool : PoolBuilder} (hpool : pool.Sound) {name : String}
    (hkey : .type name ∈ pool.keys) :
    pool.decoded.typeName (pool.indexOf (.type name)) = .ok name :=
  Pool.typeName_of_means (means_decoded hpool hkey)

theorem member_decoded {pool : PoolBuilder} (hpool : pool.Sound) {kind : MemberKind}
    {ref : MemberRef} (hkey : .member kind ref ∈ pool.keys) :
    pool.decoded.member (pool.indexOf (.member kind ref)) = .ok (kind, ref) :=
  Pool.member_of_means (means_decoded hpool hkey)

/-- The bytes of a constant are read as its slot, whatever its number. -/
theorem read_entry (pool : PoolBuilder) (key : PoolKey) (position index : Nat)
    (htext : ∀ text, key = .utf8 text → (ModifiedUtf8.encode text).length ≤ 65535) :
    Reads position (Constant.read index) (pool.entry key) (pool.constant key) := by
  cases key with
  | utf8 text =>
    let bytes := ModifiedUtf8.encode text
    have hlen : bytes.length < 65536 := Nat.lt_succ_of_le (htext text rfl)
    have hnat : (UInt16.ofNat bytes.length).toNat = bytes.length :=
      UInt16.toNat_ofNat_of_lt' (show _ < 65536 from hlen)
    refine Reads.byte ((readU16_reads _ _ hlen).bind ?_)
    rw [← List.append_nil (ModifiedUtf8.encode text), hnat]
    refine (takeBytes_reads _ bytes rfl).bind ?_
    rw [ModifiedUtf8.decode_encode]
    exact Reads.pure _
  | type name => exact Reads.byte ((readU16_reads_word _ _).map Constant.type)
  | nameAndType name descriptor =>
    exact Reads.byte ((readU16_reads_word _ _).bind ((readU16_reads_word _ _).map _))
  | member kind ref =>
    cases kind <;>
      exact Reads.byte ((readU16_reads_word _ _).bind ((readU16_reads_word _ _).map _))

private theorem readSlots_entries (pool : PoolBuilder) (keys : List PoolKey)
    (htexts : ∀ text, .utf8 text ∈ keys → (ModifiedUtf8.encode text).length ≤ 65535)
    (position : Nat) (slots : Array Constant) :
    Reads position (Pool.readSlots keys.length slots) (keys.flatMap pool.entry)
      (slots ++ (keys.map pool.constant).toArray) := by
  induction keys generalizing position slots with
  | nil => simpa [Pool.readSlots] using Reads.pure slots
  | cons key keys ih =>
    have hread := pool.read_entry key position slots.size
      fun text h => htexts text (h ▸ List.mem_cons_self)
    have hrest := ih (fun text h => htexts text (List.mem_cons_of_mem key h))
      (position + (pool.entry key).length) (slots.push (pool.constant key))
    have hslots : slots.push (pool.constant key) ++ (keys.map pool.constant).toArray
        = slots ++ ((key :: keys).map pool.constant).toArray := by simp
    rw [hslots] at hrest
    rw [List.flatMap_cons, List.length_cons]
    -- the last slot has an equation of its own: a wide constant would not fit there
    cases keys with
    | nil =>
      refine hread.bind ?_
      rw [isWide_constant]
      exact hrest
    | cons next keys =>
      refine hread.bind ?_
      rw [isWide_constant]
      exact hrest

/-- A sound pool is read as the slots of its constants. -/
theorem read_bytes {pool : PoolBuilder} (hpool : pool.Sound) (position : Nat) :
    Reads position Pool.read pool.bytes pool.decoded := by
  have hsize := hpool.size
  have hcount : (UInt16.ofNat (pool.keys.length + 1)).toNat - 1 = pool.keys.length := by
    rw [UInt16.toNat_ofNat_of_lt' (show _ < 65536 by omega)]
    omega
  refine (readU16_reads position _ (by omega)).bind ?_
  rw [hcount]
  have hslots : #[Constant.unusable] ++ (pool.keys.map pool.constant).toArray
      = pool.decoded.slots := by simp [decoded]
  have h := readSlots_entries pool pool.keys hpool.texts (position + 2) #[.unusable]
  rw [hslots] at h
  simpa using h.map Pool.mk

end PoolBuilder
end Linkage.Format

import Linkage.Format.Decode
import Linkage.Proofs.Format.Reading

/-! Decoders depend on nothing but the bytes they take. -/
namespace Linkage.Format

variable {α β : Type}

/-- More bytes are of no help against the fault. -/
def Fault.IsFinal (fault : Fault) : Prop := ∀ offset needed, fault ≠ .unexpectedEnd offset needed

/-- The decoder cannot do with fewer than these bytes, and finds that out before it is past those
that there are. -/
def NeedsAll (position : Nat) (decoder : Decoder α) (bytes : List UInt8) : Prop :=
  ∀ k < bytes.length, ∃ offset needed,
    decoder ⟨position, bytes.take k⟩ = .error (.unexpectedEnd offset needed)
      ∧ offset ≤ position + k

theorem NeedsAll.nil (position : Nat) (decoder : Decoder α) : NeedsAll position decoder [] :=
  fun _ hk => absurd hk (Nat.not_lt_zero _)

/-- A cut falls within what the first step takes, or within what the second one does. -/
theorem NeedsAll.bind {position : Nat} {decoder : Decoder α} {next : α → Decoder β}
    {bytes more : List UInt8} {a : α} (reads : Reads position decoder bytes a)
    (first : NeedsAll position decoder bytes)
    (second : NeedsAll (position + bytes.length) (next a) more) :
    NeedsAll position (decoder >>= next) (bytes ++ more) := by
  intro k hk
  by_cases hfirst : k < bytes.length
  · obtain ⟨offset, needed, hfault, hoffset⟩ := first k hfirst
    refine ⟨offset, needed, ?_, hoffset⟩
    rw [List.take_append_of_le_length hfirst.le]
    change (decoder ⟨position, bytes.take k⟩ >>= fun p => next p.1 p.2) = _
    rw [hfault]
    rfl
  · rw [List.length_append] at hk
    obtain ⟨offset, needed, hfault, hoffset⟩ := second (k - bytes.length) (by omega)
    refine ⟨offset, needed, ?_, by omega⟩
    rw [List.take_append, List.take_of_length_le (by omega)]
    change (decoder ⟨position, bytes ++ more.take _⟩ >>= fun p => next p.1 p.2) = _
    rw [reads]
    exact hfault

/-- Where the decoder answers, the answer is in the bytes that it takes and in no fewer of them;
where it fails for good, it does so whatever follows. -/
structure Sequential (decoder : Decoder α) : Prop where
  answer : ∀ {position : Nat} {bytes : List UInt8} {a : α} {c : Cursor},
    decoder ⟨position, bytes⟩ = .ok (a, c) → ∃ taken rest, bytes = taken ++ rest
      ∧ Reads position decoder taken a ∧ NeedsAll position decoder taken
  fault : ∀ {position : Nat} {bytes : List UInt8} {fault : Fault},
    decoder ⟨position, bytes⟩ = .error fault → fault.IsFinal →
      ∀ more, decoder ⟨position, bytes ++ more⟩ = .error fault

namespace Sequential

/-- A step that answers without a look at the bytes. -/
theorem of_constant {decoder : Decoder α} (answer : Except Fault α)
    (h : ∀ c, decoder c = (·, c) <$> answer) : Sequential decoder := by
  constructor
  · intro position bytes a c hrun
    cases answer with
    | error fault => rw [h] at hrun; exact nomatch hrun
    | ok b =>
      rw [h] at hrun
      cases hrun
      refine ⟨[], bytes, rfl, fun rest => h _, NeedsAll.nil position decoder⟩
  · intro position bytes fault hrun _ more
    rw [h] at hrun ⊢
    cases answer with
    | error _ => exact hrun
    | ok b => exact nomatch hrun

protected theorem pure (a : α) : Sequential (Pure.pure a : Decoder α) :=
  of_constant (.ok a) fun _ => rfl

protected theorem throw (fault : Fault) : Sequential (throw fault : Decoder α) :=
  of_constant (.error fault) fun _ => rfl

/-- Nothing is done after a fault. -/
theorem throw_bind (fault : Fault) (next : α → Decoder β) :
    Sequential ((throw fault : Decoder α) >>= next) :=
  of_constant (.error fault) fun _ => rfl

protected theorem lift (answer : Except Fault α) : Sequential (liftM answer : Decoder α) :=
  of_constant answer fun _ => rfl

protected theorem within (decoder : Decoder α) (bytes : List UInt8) :
    Sequential (decoder.within bytes) := by
  refine of_constant (Prod.fst <$> decoder (.start bytes)) fun c => ?_
  unfold Decoder.within
  cases decoder (.start bytes) <;> rfl

protected theorem bind {decoder : Decoder α} {next : α → Decoder β} (first : Sequential decoder)
    (second : ∀ a, Sequential (next a)) : Sequential (decoder >>= next) := by
  constructor
  · intro position bytes b c hrun
    change (decoder ⟨position, bytes⟩ >>= fun p => next p.1 p.2) = _ at hrun
    cases hfirst : decoder ⟨position, bytes⟩ with
    | error fault => rw [hfirst] at hrun; exact nomatch hrun
    | ok p =>
      obtain ⟨a, last⟩ := p
      obtain ⟨taken, rest, rfl, hreads, hall⟩ := first.answer hfirst
      rw [hreads rest] at hrun
      obtain ⟨more, rest, rfl, hmore, hmoreAll⟩ := (second a).answer hrun
      exact ⟨taken ++ more, rest, (List.append_assoc ..).symm, hreads.bind hmore,
        .bind hreads hall hmoreAll⟩
  · intro position bytes fault hrun hfinal more
    change (decoder ⟨position, bytes⟩ >>= fun p => next p.1 p.2) = _ at hrun
    change (decoder ⟨position, bytes ++ more⟩ >>= fun p => next p.1 p.2) = _
    cases hfirst : decoder ⟨position, bytes⟩ with
    | error found =>
      rw [hfirst] at hrun
      cases hrun
      rw [first.fault hfirst hfinal]
      rfl
    | ok p =>
      obtain ⟨a, last⟩ := p
      obtain ⟨taken, rest, rfl, hreads, -⟩ := first.answer hfirst
      rw [hreads rest] at hrun
      rw [List.append_assoc, hreads]
      exact (second a).fault hrun hfinal more

protected theorem map {decoder : Decoder α} (f : α → β) (h : Sequential decoder) :
    Sequential (f <$> decoder) :=
  h.bind fun a => .pure (f a)

protected theorem ite {condition : Prop} [Decidable condition] {yes no : Decoder α}
    (hyes : Sequential yes) (hno : Sequential no) :
    Sequential (if condition then yes else no) := by
  split
  · exact hyes
  · exact hno

end Sequential

theorem sequential_takeBytes (n : Nat) : Sequential (takeBytes n) := by
  have htake (c : Cursor) : takeBytes n c = if c.rest.length < n then
      .error (.unexpectedEnd c.position (n - c.rest.length))
      else .ok (c.rest.take n, ⟨c.position + n, c.rest.drop n⟩) := by
    unfold takeBytes
    simp only [shorterThan_eq, decide_eq_true_eq]
  constructor
  · intro position bytes a c hrun
    rw [htake] at hrun
    split at hrun
    · exact nomatch hrun
    rename_i hlength
    cases hrun
    have htaken : (bytes.take n).length = n := List.length_take_of_le (by simpa using hlength)
    refine ⟨bytes.take n, bytes.drop n, (List.take_append_drop n bytes).symm,
      takeBytes_reads position _ htaken, fun k hk => ?_⟩
    have hcut : ((bytes.take n).take k).length < n := by
      rw [List.length_take]
      omega
    exact ⟨position, _, by rw [htake, if_pos hcut], Nat.le_add_right position k⟩
  · intro position bytes fault hrun hfinal
    rw [htake] at hrun
    split at hrun
    · cases hrun
      exact absurd rfl (hfinal _ _)
    · exact nomatch hrun

theorem sequential_skip (n : Nat) : Sequential (skip n) :=
  (sequential_takeBytes n).bind fun _ => .pure ()

theorem sequential_readU8 : Sequential readU8 := (sequential_takeBytes 1).bind fun _ => .pure _

theorem sequential_readU16 : Sequential readU16 := (sequential_takeBytes 2).bind fun _ => .pure _

theorem sequential_readU32 : Sequential readU32 := (sequential_takeBytes 4).bind fun _ => .pure _

theorem sequential_readU64 : Sequential readU64 := (sequential_takeBytes 8).bind fun _ => .pure _

theorem sequential_readI32 : Sequential readI32 := sequential_readU32.bind fun _ => .pure _

theorem Sequential.repeat {step : Decoder α} (h : Sequential step) (n : Nat) :
    Sequential (repeatDecoder step n) := by
  induction n with
  | zero => exact .pure []
  | succ n ih => exact h.bind fun _ => ih.bind fun _ => .pure _

/-- A table: how many rows it has, and its rows. -/
theorem Sequential.table {step : Decoder α} {next : List α → Decoder β} (h : Sequential step)
    (hnext : ∀ as, Sequential (next as)) :
    Sequential (do next (← repeatDecoder step (← readU16).toNat)) :=
  sequential_readU16.bind fun count => (h.repeat count.toNat).bind hnext

/-- What takes a two-byte index and looks it up. -/
theorem Sequential.indexed {find : UInt16 → Except Fault α} {next : α → Decoder β}
    (hnext : ∀ a, Sequential (next a)) : Sequential (do next (← find (← readU16))) :=
  sequential_readU16.bind fun index => (Sequential.lift (find index)).bind hnext

/-- What index zero leaves out. -/
theorem Sequential.optional (index : UInt16) (found : Except Fault α)
    {next : Option α → Decoder β} (hnext : ∀ a, Sequential (next a)) :
    Sequential (do
      let a ← if index = 0 then pure none else some <$> found
      next a) :=
  .ite ((Sequential.pure none).bind hnext) (((Sequential.lift found).map some).bind hnext)

theorem Constant.sequential_read (index : Nat) : Sequential (Constant.read index) := by
  have hpair (f : UInt16 → UInt16 → Constant) :
      Sequential (do return f (← readU16) (← readU16)) :=
    sequential_readU16.bind fun _ => sequential_readU16.bind fun _ => .pure _
  have hword (f : UInt16 → Constant) : Sequential (do return f (← readU16)) :=
    sequential_readU16.bind fun _ => .pure _
  refine sequential_readU8.bind fun tag => ?_
  split
  · refine sequential_readU16.bind fun length => (sequential_takeBytes _).bind fun text => ?_
    split
    · exact .pure _
    · exact .throw _
  · exact sequential_readI32.bind fun _ => .pure _
  · exact sequential_readU32.bind fun _ => .pure _
  · exact sequential_readU64.bind fun _ => .pure _
  · exact sequential_readU64.bind fun _ => .pure _
  · exact hword _
  · exact hword _
  · exact hpair _
  · exact hpair _
  · exact hpair _
  · exact hpair _
  · exact sequential_readU8.bind fun _ => hword _
  · exact hword _
  · exact hpair _
  · exact hpair _
  · exact hword _
  · exact hword _
  · exact .throw _

namespace Pool

theorem sequential_readSlots (free : Nat) (slots : Array Constant) :
    Sequential (readSlots free slots) := by
  fun_induction readSlots free slots with
  | case1 slots => exact .pure slots
  | case2 slots =>
    refine (Constant.sequential_read slots.size).bind fun constant => ?_
    split
    · exact .throw_bind _ _
    · exact .pure _
  | case3 free slots wide single =>
    exact (Constant.sequential_read slots.size).bind fun constant =>
      .ite (wide constant) (single constant)

theorem sequential_read : Sequential Pool.read :=
  sequential_readU16.bind fun _ => (sequential_readSlots _ _).bind fun _ => .pure _

end Pool

theorem sequential_readAttribute (pool : Pool) : Sequential (readAttribute pool) :=
  .indexed fun _ => sequential_readU32.bind fun _ => (sequential_takeBytes _).bind fun _ => .pure _

theorem sequential_skipAttribute : Sequential skipAttribute :=
  (sequential_skip 2).bind fun _ => sequential_readU32.bind fun _ => sequential_skip _

theorem sequential_readField (pool : Pool) : Sequential (readField pool) :=
  sequential_readU16.bind fun _ => .indexed fun _ => .indexed fun _ =>
    sequential_skipAttribute.table fun _ => .pure _

theorem sequential_readMethodAttributes (pool : Pool) (method : String) (n : Nat)
    (instructions : List Instruction) :
    Sequential (readMethodAttributes pool method n instructions) := by
  induction n generalizing instructions with
  | zero => exact .pure instructions
  | succ n ih =>
    exact (sequential_readAttribute pool).bind fun _ =>
      .ite ((Sequential.within _ _).bind fun body => ih body) (ih instructions)

theorem sequential_readMethod (pool : Pool) : Sequential (readMethod pool) :=
  sequential_readU16.bind fun _ => .indexed fun _ => .indexed fun _ =>
    sequential_readU16.bind fun _ =>
      (sequential_readMethodAttributes pool _ _ _).bind fun _ => .pure _

theorem sequential_readTypeName (pool : Pool) : Sequential (readTypeName pool) :=
  sequential_readU16.bind fun _ => .lift _

theorem sequential_readClassAttributes (pool : Pool) (n : Nat) (nest : Nest) :
    Sequential (readClassAttributes pool n nest) := by
  induction n generalizing nest with
  | zero => exact .pure nest
  | succ n ih =>
    refine (sequential_readAttribute pool).bind fun _ => .ite ?_ (.ite ?_ (ih nest))
    · exact (Sequential.within _ _).bind fun host => ih _
    · exact (Sequential.within _ _).bind fun members => ih _

theorem sequential_readClass : Sequential readClass := by
  refine sequential_readU32.bind fun found => .ite (.throw_bind _ _) ?_
  refine sequential_readU16.bind fun _ => sequential_readU16.bind fun major => ?_
  refine Pool.sequential_read.bind fun pool => sequential_readU16.bind fun access => ?_
  refine (sequential_readTypeName pool).bind fun name => sequential_readU16.bind fun index => ?_
  refine .optional index (pool.typeName index) fun superName => ?_
  refine (sequential_readTypeName pool).table fun interfaces => ?_
  refine (sequential_readField pool).table fun fields => ?_
  refine (sequential_readMethod pool).table fun methods => ?_
  exact sequential_readU16.bind fun _ =>
    (sequential_readClassAttributes pool _ _).bind fun nest => .pure _

theorem fst_map_eq_ok {run : Except Fault (α × Cursor)} {a : α} :
    Prod.fst <$> run = .ok a ↔ ∃ last, run = .ok (a, last) := by
  cases run with
  | error fault => exact ⟨nofun, nofun⟩
  | ok p =>
    constructor
    · rintro ⟨⟩
      exact ⟨p.2, rfl⟩
    · rintro ⟨last, ⟨⟩⟩
      rfl

theorem decodeClass_eq_ok {bytes : List UInt8} {c : ClassFile} :
    decodeClass bytes = .ok c ↔ ∃ last, readClass ⟨0, bytes⟩ = .ok (c, last) :=
  fst_map_eq_ok

theorem decodeClass_eq_error {bytes : List UInt8} {fault : Fault} :
    decodeClass bytes = .error fault ↔ readClass ⟨0, bytes⟩ = .error fault := by
  unfold decodeClass Cursor.start
  cases readClass ⟨0, bytes⟩ with
  | error found => exact ⟨fun h => congrArg _ (Except.error.inj h), fun h => by rw [h]; rfl⟩
  | ok p => exact ⟨nofun, nofun⟩

/-- A class is in the bytes that it takes, whatever follows them and in no fewer of them; a fault
other than a missing end is there whatever follows. -/
theorem decodeClass_consumes (bytes : List UInt8) :
    (∀ c, decodeClass bytes = .ok c → ∃ n ≤ bytes.length,
      readClass (.start bytes) = .ok (c, ⟨n, bytes.drop n⟩)
        ∧ (∀ more, decodeClass (bytes.take n ++ more) = .ok c)
        ∧ ∀ k < n, ∃ offset needed,
          decodeClass (bytes.take k) = .error (.unexpectedEnd offset needed) ∧ offset ≤ k)
    ∧ ∀ fault, decodeClass bytes = .error fault →
      (∀ offset needed, fault ≠ .unexpectedEnd offset needed) →
        ∀ more, decodeClass (bytes ++ more) = .error fault := by
  constructor
  · intro c hdecode
    obtain ⟨last, hrun⟩ := decodeClass_eq_ok.mp hdecode
    obtain ⟨taken, rest, rfl, hreads, hall⟩ := sequential_readClass.answer hrun
    refine ⟨taken.length, by simp, ?_, fun more => ?_, fun k hk => ?_⟩
    · rw [List.drop_left, ← Nat.zero_add taken.length]
      exact hreads rest
    · rw [List.take_left]
      exact decodeClass_eq_ok.mpr ⟨_, hreads more⟩
    · obtain ⟨offset, needed, hfault, hoffset⟩ := hall k hk
      rw [List.take_append_of_le_length hk.le]
      exact ⟨offset, needed, decodeClass_eq_error.mpr hfault, Nat.zero_add k ▸ hoffset⟩
  · intro fault hdecode hfinal more
    rw [decodeClass_eq_error] at hdecode ⊢
    exact sequential_readClass.fault hdecode hfinal more

/-- The interface `A` without members, and two bytes that follow it. -/
def bytesAfterClass : List UInt8 :=
  [0xCA, 0xFE, 0xBA, 0xBE, 0, 0, 0, 52, 0, 3, 1, 0, 1, 0x41, 7, 0, 1, 6, 0, 0, 2, 0, 0, 0, 0, 0, 0,
    0, 0, 0, 0, 0xCA, 0xFE]

theorem decodeClass_consumes_bytesAfterClass :
    (∀ more, (decodeClass (bytesAfterClass.take 31 ++ more)).isOk)
      ∧ (∀ k < 31, ∃ offset needed,
        decodeClass (bytesAfterClass.take k) = .error (.unexpectedEnd offset needed) ∧ offset ≤ k)
      ∧ ∀ more, decodeClass ([0xCA, 0xFE, 0xBA, 0xBF] ++ more) = .error (.badMagic 0xCAFEBABF) := by
  have hclass : decodeClass bytesAfterClass
      = .ok { name := "A", superName := none, access := ⟨0x0600⟩, majorVersion := 52 } := by rfl
  have hrun : (Prod.snd <$> readClass (.start bytesAfterClass)) = .ok ⟨31, [0xCA, 0xFE]⟩ := by rfl
  obtain ⟨n, -, hread, hmore, hcut⟩ := (decodeClass_consumes bytesAfterClass).1 _ hclass
  rw [hread] at hrun
  obtain rfl : n = 31 := congrArg Cursor.position (Except.ok.inj hrun)
  exact ⟨fun more => by rw [hmore more]; rfl, hcut,
    (decodeClass_consumes [0xCA, 0xFE, 0xBA, 0xBF]).2 _ rfl nofun⟩

end Linkage.Format

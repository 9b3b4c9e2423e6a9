import Linkage.Format.Cursor
import Mathlib.Tactic

/-! Which bytes a decoder takes and what it answers, one step after the other. -/
namespace Linkage.Format

variable {α β : Type}

/-- At `position` the decoder takes exactly `bytes`, whatever follows them, and answers `a`. -/
def Reads (position : Nat) (decoder : Decoder α) (bytes : List UInt8) (a : α) : Prop :=
  ∀ rest, decoder ⟨position, bytes ++ rest⟩ = .ok (a, ⟨position + bytes.length, rest⟩)

namespace Reads

variable {position : Nat}

protected theorem pure (a : α) : Reads position (Pure.pure a) [] a := fun _ => rfl

protected theorem bind {decoder : Decoder α} {next : α → Decoder β} {bytes more : List UInt8}
    {a : α} {b : β} (first : Reads position decoder bytes a)
    (second : Reads (position + bytes.length) (next a) more b) :
    Reads position (decoder >>= next) (bytes ++ more) b := by
  intro rest
  change (decoder ⟨position, bytes ++ more ++ rest⟩ >>= fun p => next p.1 p.2) = _
  rw [List.append_assoc, first, List.length_append, ← Nat.add_assoc]
  exact second rest

/-- A step that looks at no bytes. -/
protected theorem lift {answer : Except Fault α} {a : α} (h : answer = .ok a) :
    Reads position (liftM answer : Decoder α) [] a := by
  subst h
  intro rest
  rfl

theorem bind_lift {answer : Except Fault α} {next : α → Decoder β} {bytes : List UInt8} {a : α}
    {b : β} (h : answer = .ok a) (second : Reads position (next a) bytes b) :
    Reads position ((liftM answer : Decoder α) >>= next) bytes b :=
  (Reads.lift h).bind second

/-- A step that asks where it is. -/
theorem bind_get {next : Cursor → Decoder α} {bytes : List UInt8} {a : α}
    (h : ∀ rest, Reads position (next ⟨position, bytes ++ rest⟩) bytes a) :
    Reads position (get >>= next) bytes a :=
  fun rest => h rest rest

protected theorem map {decoder : Decoder α} {bytes : List UInt8} {a : α} (f : α → β)
    (h : Reads position decoder bytes a) : Reads position (f <$> decoder) bytes (f a) := by
  intro rest
  change (decoder ⟨position, bytes ++ rest⟩ >>= fun p => Pure.pure (f p.1, p.2)) = _
  rw [h]
  rfl

protected theorem within {decoder : Decoder α} {bytes rest : List UInt8} {a : α}
    (h : Reads 0 decoder bytes a) :
    Reads position (decoder.within (bytes ++ rest)) [] a := by
  intro more
  unfold Decoder.within
  rw [Cursor.start, h]
  rfl

end Reads

theorem takeBytes_reads (position : Nat) (bytes : List UInt8) {n : Nat} (hn : bytes.length = n) :
    Reads position (takeBytes n) bytes bytes := by
  intro rest
  subst hn
  unfold takeBytes
  rw [if_neg (by simp [shorterThan_eq])]
  simp

theorem skip_reads (position : Nat) (bytes : List UInt8) {n : Nat} (hn : bytes.length = n) :
    Reads position (skip n) bytes () := by
  rw [← List.append_nil bytes]
  exact (takeBytes_reads position bytes hn).bind (Reads.pure ())

@[simp] theorem length_toBigEndian (width n : Nat) : (toBigEndian width n).length = width := by
  induction width generalizing n with
  | zero => rfl
  | succ width ih => rw [toBigEndian, List.length_append, ih, List.length_singleton]

theorem bigEndian_toBigEndian (width n : Nat) (hn : n < 256 ^ width) :
    bigEndian (toBigEndian width n) = n := by
  induction width generalizing n with
  | zero =>
    have h0 : n = 0 := by simpa using hn
    rw [h0]
    rfl
  | succ width ih =>
    have hdiv : n / 256 < 256 ^ width := by
      rw [pow_succ] at hn
      omega
    have hsplit : bigEndian (toBigEndian (width + 1) n) =
        bigEndian (toBigEndian width (n / 256)) * 256 + (UInt8.ofNat n).toNat := by
      rw [toBigEndian, bigEndian, List.foldl_append]
      rfl
    rw [hsplit, ih _ hdiv, UInt8.toNat_ofNat']
    omega

theorem readU16_reads (position n : Nat) (hn : n < 65536) :
    Reads position readU16 (toBigEndian 2 n) (UInt16.ofNat n) := by
  have h := (takeBytes_reads position _ (length_toBigEndian 2 n)).map
    fun bytes => UInt16.ofNat (bigEndian bytes)
  rwa [bigEndian_toBigEndian 2 n hn] at h

/-- Two bytes give back the word whose digits they are. -/
theorem readU16_reads_word (position : Nat) (w : UInt16) :
    Reads position readU16 (toBigEndian 2 w.toNat) w := by
  have h := readU16_reads position w.toNat w.toNat_lt
  rwa [UInt16.ofNat_toNat] at h

theorem readU32_reads (position n : Nat) (hn : n < 4294967296) :
    Reads position readU32 (toBigEndian 4 n) (UInt32.ofNat n) := by
  have h := (takeBytes_reads position _ (length_toBigEndian 4 n)).map
    fun bytes => UInt32.ofNat (bigEndian bytes)
  rwa [bigEndian_toBigEndian 4 n hn] at h

theorem readU8_reads (position : Nat) (b : UInt8) : Reads position readU8 [b] b := by
  have h := (takeBytes_reads position [b] rfl).map fun bytes => UInt8.ofNat (bigEndian bytes)
  have hb : UInt8.ofNat (bigEndian [b]) = b := by simp [bigEndian]
  rwa [hb] at h

/-- A byte in front, and then the rest. -/
protected theorem Reads.byte {position : Nat} {b : UInt8} {next : UInt8 → Decoder α}
    {more : List UInt8} {a : α} (second : Reads (position + 1) (next b) more a) :
    Reads position (readU8 >>= next) (b :: more) a :=
  (readU8_reads position b).bind second

end Linkage.Format

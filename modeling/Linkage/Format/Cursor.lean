import Linkage.Format.Fault

/-! Reading bytes from the front, big end first. -/
namespace Linkage.Format

/-- What is left of a byte string, and how many of its bytes came before. -/
structure Cursor where
  position : Nat
  rest : List UInt8
  deriving DecidableEq, Repr

def Cursor.start (bytes : List UInt8) : Cursor := ⟨0, bytes⟩

/-- A step that takes bytes off the front, or fails. -/
abbrev Decoder := StateT Cursor (Except Fault)

/-- Tells whether a list has fewer than `n` elements, looking at no more than `n` of them. -/
def shorterThan {α : Type} : List α → Nat → Bool
  | _, 0 => false
  | [], _ + 1 => true
  | _ :: xs, n + 1 => shorterThan xs n

theorem shorterThan_eq {α : Type} (xs : List α) (n : Nat) :
    shorterThan xs n = decide (xs.length < n) := by
  induction n generalizing xs with
  | zero => simp [shorterThan]
  | succ n ih => cases xs <;> simp [shorterThan, ih]

/-- The next `n` bytes. -/
def takeBytes (n : Nat) : Decoder (List UInt8) := fun c =>
  if shorterThan c.rest n then .error (.unexpectedEnd c.position (n - c.rest.length))
  else .ok (c.rest.take n, ⟨c.position + n, c.rest.drop n⟩)

def skip (n : Nat) : Decoder Unit := do
  let _ ← takeBytes n

/-- The number that bytes write, the most significant first. -/
def bigEndian (bytes : List UInt8) : Nat := bytes.foldl (fun n b => n * 256 + b.toNat) 0

def readU8 : Decoder UInt8 := return UInt8.ofNat (bigEndian (← takeBytes 1))
def readU16 : Decoder UInt16 := return UInt16.ofNat (bigEndian (← takeBytes 2))
def readU32 : Decoder UInt32 := return UInt32.ofNat (bigEndian (← takeBytes 4))
def readU64 : Decoder UInt64 := return UInt64.ofNat (bigEndian (← takeBytes 8))
def readI32 : Decoder Int32 := return (← readU32).toInt32

/-- The last `width` base-256 digits of `n`, the most significant first. -/
def toBigEndian : (width : Nat) → (n : Nat) → List UInt8
  | 0, _ => []
  | width + 1, n => toBigEndian width (n / 256) ++ [UInt8.ofNat n]

/-- Runs `step` `n` times and keeps the answers in order. -/
def repeatDecoder {α : Type} (step : Decoder α) : Nat → Decoder (List α)
  | 0 => return []
  | n + 1 => return (← step) :: (← repeatDecoder step n)

/-- Decodes a byte string of its own, such as the body of an attribute. -/
def Decoder.within {α : Type} (step : Decoder α) (bytes : List UInt8) : Decoder α := fun c =>
  match step (.start bytes) with
  | .ok (a, _) => .ok (a, c)
  | .error fault => .error fault

end Linkage.Format

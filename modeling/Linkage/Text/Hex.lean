/-! Hexadecimal text of bytes and words. -/
namespace Linkage.Hex

/-- The lower-case digit of a number below sixteen. -/
def digit (n : Nat) : Char :=
  Char.ofNat (if n < 10 then 48 + n else 87 + n)

/-- The last `width` hexadecimal digits of `n`, leading zeros included. -/
def padded : (width : Nat) → (n : Nat) → String
  | 0, _ => ""
  | width + 1, n => (padded width (n / 16)).push (digit (n % 16))

/-- Two digits a byte, without separators. -/
def ofBytes (bytes : List UInt8) : String :=
  bytes.foldl (fun text b => (text.push (digit (b.toNat / 16))).push (digit (b.toNat % 16))) ""

def digit? (c : Char) : Option Nat :=
  if '0' ≤ c ∧ c ≤ '9' then some (c.toNat - 48)
  else if 'a' ≤ c ∧ c ≤ 'f' then some (c.toNat - 87)
  else if 'A' ≤ c ∧ c ≤ 'F' then some (c.toNat - 55)
  else none

/-- The number that a non-empty run of hexadecimal digits writes. -/
def toNat? (digits : List Char) : Option Nat :=
  if digits.isEmpty then none
  else digits.foldl (fun n? c => do return (← n?) * 16 + (← digit? c)) (some 0)

private def bytesOfDigits : List Char → List UInt8
  | hi :: lo :: rest =>
    UInt8.ofNat ((digit? hi).getD 0 * 16 + (digit? lo).getD 0) :: bytesOfDigits rest
  | _ => []

/-- The bytes that pairs of digits write; an odd last digit stands for nothing. -/
def toBytes (text : String) : List UInt8 := bytesOfDigits text.toList

end Linkage.Hex

/-! Text as 16-bit units: characters beyond the first plane take a surrogate pair. -/
namespace Linkage.Utf16

def isHighSurrogate (u : UInt16) : Bool := 0xD800 ≤ u && u < 0xDC00

def isLowSurrogate (u : UInt16) : Bool := 0xDC00 ≤ u && u < 0xE000

/-- One unit, or the two halves of what lies beyond the first plane. -/
def encodeChar (c : Char) : List UInt16 :=
  if c.toNat < 0x10000 then [UInt16.ofNat c.toNat]
  else
    let rest := c.toNat - 0x10000
    [UInt16.ofNat (0xD800 + rest / 0x400), UInt16.ofNat (0xDC00 + rest % 0x400)]

def encode (text : List Char) : List UInt16 := text.flatMap encodeChar

/-- The character beyond the first plane that a surrogate pair writes. -/
def pairChar (high low : UInt16) : Char :=
  Char.ofNat (0x10000 + (high.toNat - 0xD800) * 0x400 + (low.toNat - 0xDC00))

/-- The text of well paired units; a surrogate without its partner has none. -/
def decode : List UInt16 → Option (List Char)
  | [] => some []
  | u :: rest =>
    if isHighSurrogate u then
      match rest with
      | v :: rest => if isLowSurrogate v then (decode rest).map (pairChar u v :: ·) else none
      | [] => none
    else if isLowSurrogate u then none
    else (decode rest).map (Char.ofNat u.toNat :: ·)

end Linkage.Utf16

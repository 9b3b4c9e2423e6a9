import Linkage.Text.Property
import Linkage.Text.Segment

/-! The columns that text takes on a terminal. What follows a character decides whether both are
shown as one, so texts are read from their end. -/
namespace Linkage

/-- Characters that take two columns. -/
def wideChars : CharSet := .ofTable "
    glKdSgsOCNChIEDBCBuBCVCbAIQMbRBKGDBNBICRCFCIBFBVBHCBBEBCBHBECbCBbJBBBEDBBcJDYBOBbhBCbZBEBbfE
    bABdLMiGbAdBCdICdZFbRBdQBdIJbWBbOIbrgVDcDbtHbDyTqnSmqMtSbeEKWbJBTBEfTdSeXHbqkNFLCOjcAIbvQbPK
    nfREBHBCBlFPBbDDCBOEIpGmdGdJJXkvDBhUBhIBCKdXDNbSEJHCOGfYbHMJBcSBWMbREFMRDBDcTBBBhFCcLNEBYSBb
    ACNBdIdHbWcSGBDDCDEELCHJiTMEBkXbVBKBhDeINDKFcEHPCLGJbxNdsyOCdsyO"

/-- Vowels and finals that are shown in the column of the letter before them. -/
def hangulTails : CharSet :=
  .unions [.range 0x1160 0x11FF, .range 0xD7B0 0xD7C6, .range 0xD7CB 0xD7FB]

/-- Signs that are shown on top of the characters after them. -/
def coveringSigns : CharSet :=
  let before := ((NamedSet.find? "prepend" graphemeBreaks).getD {}).minus
    (property "prependedconcatenationmark")
  before.union (.ofList [0x605, 0x70F, 0x890, 0x891, 0x8E2, 0xA8FA])

/-- Characters that take no column of their own. -/
def zeroWidthChars : CharSet :=
  (CharSet.unions [defaultIgnorable, graphemeExtend, hangulTails, coveringSigns]).minus
    (.ofList [0x115F, 0x2D7F])

/-- The columns of a character by itself. -/
def charWidth (c : Char) : Nat :=
  if c.toNat ≤ 0xA0 then 1
  else if c = '\u17a4' then 2
  else if c = '\u17d8' then 3
  else if zeroWidthChars.contains c then 0
  else if wideChars.contains c then 2
  else 1

/-- Characters that are shown as emoji or as text, by the mark that follows. -/
def emojiBases : CharSet := .ofTable "
    bJBGBFKeHBEBlyRBMBiIBWBdMGPCoDCMBgKBZLEDhRBiXCKBJBcGEBFJBCBCCCBEBCBBCCBDBDCIDFBBBFMLCCBBCBBS
    BCCSGBBBCDCFBCCECLCFCCBFCBBBCUCFGBECBEBCBCGBBCBBBBBGBDBGBKCPBCBEBBBEDBBLCbWDJBOBOBoICrVDTCbZ
    BEBbvUBMBxDBBBgmrQBnZCMCfABXBUBHBiFDFBGBEBCJJBcNBEBVBCCBDCCHBEDTBBBBBDFFNMBFBBBBBQBMBJBGBYBB
    CDEDCEBWBSBbLBMBCBHBDBLBOBEBEDDEJBBDBBKBEBECcBCFYHCCHNBCECBUBCBICJBFDMDIDCBBBEBGBDBGBVBeOBFB
    DBCBDBUBEBGCBBOBBDQGDBGBCB"

/-- Characters that are shown as emoji without a mark. -/
def emojiChars : CharSet := property "emojipresentation"

/-- Characters that a mark for text makes narrow. -/
def narrowBases : CharSet := (emojiBases.inter emojiChars).minus (.range 0x1F200 0x1F2FF)

/-- Emoji that skin tones colour. -/
private def skinBases : CharSet := property "emojimodifierbase"

private def regionalIndicators : CharSet := .range 0x1F1E6 0x1F1FF

private def skinTones : CharSet := .range 0x1F3FB 0x1F3FF

private def tifinaghConsonants : CharSet := (CharSet.range 0x2D31 0x2D65).union (.single '\u2d6f')

/-- Khmer letters that a sign before them puts below the letter before it. -/
private def khmerSubscripts : CharSet := .unions [
  .range 0x1780 0x1782, .range 0x1784 0x1787, .range 0x1789 0x178C, .range 0x178E 0x1793,
  .range 0x1795 0x1798, .range 0x179B 0x179D, .range 0x17AB 0x17AC,
  .ofList [0x17A0, 0x17A2, 0x17A7, 0x17AF]]

/-- Forms of the letter alef, which a lam before them takes in. -/
private def alefs : CharSet :=
  .unions [.range 0x622 0x623, .range 0x671 0x673, .range 0x773 0x774, .range 0x870 0x882,
    .ofList [0x625, 0x627, 0x675]]

private def lams : CharSet := .unions [.range 0x6B5 0x6B8, .ofList [0x644, 0x76A, 0x8A6, 0x8C7]]

/-- Marks that do not part the letters of a script that joins its letters. -/
private def joiningMarks : CharSet :=
  let others := CharSet.unions [.range 0x600 0x605, .range 0x890 0x891, .range 0x200C 0x200D,
    .range 0x2066 0x2069, .ofList [0x6DD, 0x8E2, 0x180E, 0x110BD, 0x110CD]]
  ((CharSet.unions [category "mn", category "me", category "cf"]).minus others).inter zeroWidthChars

/-- Characters that may stand between the letters of a ligature. -/
private def betweenLetters : CharSet :=
  .unions [.range 0x17B4 0x17B5, .range 0x180B 0x180D, .range 0xFE00 0xFE0F,
    .range 0xE0100 0xE01EF, .ofList [0x34F, 0x180F, 0x200D]]

/-- Letters that make one sign with what stands before them. -/
inductive Ligature where
  | lamed | ya | iYa | consonant | joinedConsonant | tone | orkhon | khmer
  deriving DecidableEq, Repr

/-- The beginning of what follows a character, as far as it changes the character's columns. -/
inductive Follower where
  | plain
  | lineFeed
  | alef
  /-- A ligature's end, and whether a joiner stands before it. -/
  | ligature (l : Ligature) (joined : Bool)
  | emoji
  | skinTone
  | indicator
  | indicators
  /-- A joiner and an emoji. -/
  | joinedEmoji
  | joinedKeycap
  | joinedIndicator
  /-- Two or more indicators after which an emoji is joined. -/
  | joinedIndicators (even : Bool)
  /-- The letters of a flag's tag and its end, after which an emoji is joined. -/
  | tagLetters (n : Nat)
  /-- The digits of a flag's tag, its letters and its end. -/
  | tagDigits (n : Nat)
  | kiratE | kiratAi
  deriving DecidableEq, Repr

/-- What follows a character, and the marks before it that ask for text and for emoji. -/
structure Following where
  first : Follower := .plain
  asText : Bool := false
  asEmoji : Bool := false
  deriving DecidableEq, Repr

namespace Follower

/-- Marks for text or emoji do not part these from what stands before. -/
def isLetter : Follower → Bool
  | .alef | .ligature .. => true
  | _ => false

/-- What a character is to the one before it, whatever follows. -/
def ofChar (c : Char) : Follower :=
  if alefs.contains c then .alef
  else if c = '\u05dc' then .ligature .lamed false
  else if khmerSubscripts.contains c then .ligature .khmer true
  else if c = '\u1a10' then .ligature .ya false
  else if tifinaghConsonants.contains c then .ligature .consonant false
  else if c = '\ua4fc' || c = '\ua4fd' then .ligature .tone true
  else if c.toNat = 0x10C03 then .ligature .orkhon false
  else if c.toNat = 0x16D67 then .kiratE
  else if c.toNat = 0x16D68 then .kiratAi
  else if regionalIndicators.contains c then .indicator
  else if skinTones.contains c then .skinTone
  else if emojiChars.contains c then .emoji
  else .plain

/-- How many columns a letter before a ligature's end adds, and what it is to the one before. -/
private def joinLigature (c : Char) : Ligature → (joined : Bool) → Option (Int × Follower)
  | .lamed, true => if c = '\u05d0' then some (0, .plain) else none
  | .khmer, _ => if c = '\u17d2' then some (-1, .plain) else none
  | .ya, true => if c = '\u1a17' then some (0, .ligature .iYa true) else none
  | .iYa, _ => if c = '\u1a15' then some (0, .plain) else none
  | .consonant, joined =>
    if c = '\u2d7f' then some (1, .ligature .joinedConsonant true)
    else if joined && tifinaghConsonants.contains c then some (0, .plain)
    else none
  | .joinedConsonant, _ => if tifinaghConsonants.contains c then some (-1, .plain) else none
  | .tone, _ => if 0xA4F8 ≤ c.toNat && c.toNat ≤ 0xA4FB then some (0, .plain) else none
  | .orkhon, true => if c.toNat = 0x10C32 then some (0, .plain) else none
  | _, _ => none

/-- The emoji that a joiner, and no mark, makes one with the emoji before. -/
private def joinEmoji (c : Char) : Option (Int × Follower) :=
  if c = '\u20e3' then some (0, .joinedKeycap)
  else if regionalIndicators.contains c then some (1, .joinedIndicator)
  else if skinTones.contains c then some (0, .skinTone)
  else if c.toNat = 0xE007F then some (0, .tagLetters 0)
  else if emojiChars.contains c then some (0, .emoji)
  else none

private def isTagLetter (c : Char) : Bool := 0xE0061 ≤ c.toNat && c.toNat ≤ 0xE007A

private def isTagDigit (c : Char) : Bool := 0xE0030 ≤ c.toNat && c.toNat ≤ 0xE0039

private def isBlackFlag (c : Char) : Bool := c.toNat = 0x1F3F4

/-- How many columns a character adds to what follows, and what it is to the one before; nothing if
the two have nothing to do with each other. -/
def join (c : Char) (f : Follower) : Option (Int × Follower) :=
  match f with
  | .plain | .lineFeed | .joinedKeycap => none
  | .alef =>
    if lams.contains c then some (0, .plain)
    else if joiningMarks.contains c then some (0, .alef)
    else none
  | .ligature l joined =>
    if c = '\u200d' then some (0, .ligature l true)
    else if betweenLetters.contains c then some (0, .ligature l joined)
    else joinLigature c l joined
  | .emoji => joined c
  | .skinTone => if skinBases.contains c then some (0, .emoji) else joined c
  | .indicator => indicated c 1 .indicators
  | .indicators => indicated c 1 .indicators <|> joined c
  | .joinedEmoji => joinEmoji c
  | .joinedIndicator => indicated c (-1) (.joinedIndicators true)
  | .joinedIndicators true => indicated c 3 (.joinedIndicators false) <|> joined c
  | .joinedIndicators false => indicated c (-1) (.joinedIndicators true) <|> joined c
  | .tagLetters n =>
    if isTagLetter c && n < 6 then some (0, .tagLetters (n + 1))
    else if isTagDigit c && n < 5 then some (0, .tagDigits 1)
    else if isBlackFlag c && 3 ≤ n then some (0, .emoji)
    else none
  | .tagDigits n =>
    if isTagDigit c && n < 3 then some (0, .tagDigits (n + 1))
    else if isBlackFlag c && n = 3 then some (0, .emoji)
    else none
  | .kiratE =>
    if c.toNat = 0x16D63 || c.toNat = 0x16D69 then some (0, .plain)
    else if c.toNat = 0x16D67 then some (0, .kiratAi)
    else none
  | .kiratAi => if c.toNat = 0x16D63 then some (0, .plain) else none
where
  joined (c : Char) : Option (Int × Follower) :=
    if c = '\u200d' then some (0, .joinedEmoji) else none
  indicated (c : Char) (width : Int) (f : Follower) : Option (Int × Follower) :=
    if regionalIndicators.contains c then some (width, f) else none

end Follower

namespace Following

/-- Adds a mark that asks for an emoji. -/
private def markEmoji (f : Following) : Following :=
  if f.first.isLetter || f.first = .joinedEmoji || f.first = .joinedKeycap then
    { f with asEmoji := true }
  else { asEmoji := true }

/-- Adds a mark that asks for text. -/
private def markText (f : Following) : Following :=
  if f.first.isLetter then { f with asText := true } else { asText := true }

/-- What follows without a mark that asks for an emoji, where there is none to show. -/
private def withoutEmojiMark (f : Following) : Following :=
  if !f.asEmoji then f
  else if f.first.isLetter then { f with asEmoji := false }
  else {}

/-- The columns that a character adds to what follows, and both together. -/
def step (f : Following) (c : Char) : Int × Following :=
  if f.asEmoji && emojiBases.contains c then
    (if f.first = .joinedEmoji || f.first = .joinedKeycap then 0 else 2, { first := .emoji })
  else
    let f := f.withoutEmojiMark
    if c = '\n' then (1, { first := .lineFeed })
    else if c = '\r' && f.first = .lineFeed then (0, {})
    else if c.toNat ≤ 0xA0 then (1, {})
    else if c = '\ufe0f' then (0, f.markEmoji)
    else if c = '\ufe0e' then (0, f.markText)
    else if f.asText && narrowBases.contains c then (1, {})
    else
      let (width, first) := (Follower.join c f.first).getD (charWidth c, .ofChar c)
      (width, { first })

end Following

/-- The columns of characters, and what the first of them are to one before. -/
private def columns : List Char → Int × Following
  | [] => (0, {})
  | c :: cs =>
    let (width, following) := columns cs
    let (more, following) := following.step c
    (width + more, following)

/-- The columns of a text. A line end counts as one. -/
def textWidth (text : String) : Nat := (columns text.toList).1.toNat

end Linkage

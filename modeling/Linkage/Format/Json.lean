import Linkage.Data.Json
import Linkage.Format.Pool

/-! Constants as JSON: the tag, and then the parts in the order of the class file. -/
namespace Linkage.Format

private def word (w : UInt16) : Json := .nat w.toNat

/-- The parts of a constant. Floating point numbers are written by their bits, and what may be too
large for a JSON number is text. -/
def Constant.parts : Constant → List Json
  | .utf8 text => [.str text]
  | .integer n => [.int n.toInt]
  | .float bits => [.str (Hex.padded 8 bits.toNat)]
  | .long n => [.str s!"{n.toInt}"]
  | .double bits => [.str (Hex.padded 16 bits.toNat)]
  | .type i | .string i | .methodType i | .module i | .package i => [word i]
  | .fieldRef i k | .methodRef i k | .interfaceMethodRef i k | .nameAndType i k
  | .dynamic i k | .invokeDynamic i k => [word i, word k]
  | .methodHandle kind i => [.nat kind.toNat, word i]
  | .unusable => []

def Constant.toJson (c : Constant) : Json := .arr (.str c.tagName :: c.parts)

end Linkage.Format

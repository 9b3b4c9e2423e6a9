import Linkage.Text.Age
import Linkage.Text.Property
import Linkage.Text.Script
import Linkage.Text.Segment

/-! Sets of characters by the names of their properties. -/
namespace Linkage

/-- A name without what does not matter in it: case, spaces, hyphens, underscores, what is not ASCII
and an "is" before it. What would be left of "isc" is another name. -/
def looseName (name : String) : String :=
  let kept := name.toList.map Char.toLower |>.filter fun c =>
    c.toNat < 128 && c ≠ ' ' && c ≠ '_' && c ≠ '-'
  match name.toList with
  | c :: d :: _ =>
    if c.toLower = 'i' && d.toLower = 's' && kept ≠ ['i', 's', 'c'] then String.ofList (kept.drop 2)
    else String.ofList kept
  | _ => String.ofList kept

namespace CharSet

/-- The set that a name stands for by itself: a property, a general category or a script. -/
def named? (name : String) : Option CharSet :=
  let name := looseName name
  NamedSet.find? name properties <|> NamedSet.find? name generalCategories
    <|> NamedSet.find? name scripts

/-- The characters that have this value of a property. -/
def withValue? (property value : String) : Option CharSet :=
  let value := looseName value
  match looseName property with
  | "gc" | "generalcategory" => NamedSet.find? value generalCategories
  | "sc" | "script" => NamedSet.find? value scripts
  | "scx" | "scriptextensions" => scriptExtension? value
  | "age" => charsOfAge? value
  | "gcb" | "graphemeclusterbreak" => NamedSet.find? value graphemeBreaks
  | "wb" | "wordbreak" => NamedSet.find? value wordBreaks
  | "sb" | "sentencebreak" => NamedSet.find? value sentenceBreaks
  | _ => none

end CharSet
end Linkage

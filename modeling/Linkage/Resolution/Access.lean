import Linkage.Resolution.Members

/-! Who may use which classes and members. -/
namespace Linkage

/-- Why a class or a member is out of reach. -/
inductive Restriction where
  | privateMember | protectedMember | packagePrivate
  deriving DecidableEq, Repr

def Restriction.display : Restriction → String
  | .privateMember => "private"
  | .protectedMember => "protected"
  | .packagePrivate => "package-private"

namespace Classpath

/-- What keeps `accessor` from using a member of `declaring`. Private members are open to the nest,
protected ones to the package and to subclasses, others to the package. -/
def memberRestriction? (cp : Classpath) (access : AccessFlags) (declaring accessor : ClassFile) :
    Option Restriction :=
  if access.isPublic then none
  else if access.isPrivate then
    if declaring.name == accessor.name || declaring.isNestmateOf accessor then none
    else some .privateMember
  else
    let samePackage := declaring.package == accessor.package
    if access.isProtected then
      if samePackage || cp.isSubclassOf accessor declaring.name then none
      else some .protectedMember
    else if samePackage then none
    else some .packagePrivate

end Classpath

/-- What keeps `accessor` from referring to `target`. -/
def classRestriction? (target accessor : ClassFile) : Option Restriction :=
  if target.isPublic || target.package == accessor.package || target.isNestmateOf accessor then none
  else some .packagePrivate

end Linkage

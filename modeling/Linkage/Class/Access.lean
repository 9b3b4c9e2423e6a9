/-! Access flags of classes, fields and methods. -/
namespace Linkage

/-- Sixteen flag bits; some mean different things on a class and on a member. -/
structure AccessFlags where
  bits : UInt16
  deriving DecidableEq, Repr

namespace AccessFlags

/-- All bits of `mask` are set. -/
def contains (flags : AccessFlags) (mask : UInt16) : Bool := flags.bits &&& mask == mask

/-- Some bit of `mask` is set. -/
def intersects (flags : AccessFlags) (mask : UInt16) : Bool := flags.bits &&& mask != 0

def isPublic (flags : AccessFlags) : Bool := flags.contains 0x0001
def isPrivate (flags : AccessFlags) : Bool := flags.contains 0x0002
def isProtected (flags : AccessFlags) : Bool := flags.contains 0x0004
def isStatic (flags : AccessFlags) : Bool := flags.contains 0x0008
def isFinal (flags : AccessFlags) : Bool := flags.contains 0x0010
def isInterface (flags : AccessFlags) : Bool := flags.contains 0x0200
def isAbstract (flags : AccessFlags) : Bool := flags.contains 0x0400

/-- None of public, private and protected. -/
def isPackagePrivate (flags : AccessFlags) : Bool := !flags.intersects 0x0007

/-- Abstract and native methods have no body. -/
def hasNoBody (flags : AccessFlags) : Bool := flags.intersects 0x0500

end AccessFlags
end Linkage

namespace Vcrtl.EhFlags

variable {n : Nat}

def hasAnyOf (value mask : BitVec n) : Bool := value &&& mask != 0

namespace CatchFlag

def isConst : BitVec 32 := 0x1
def isVolatile : BitVec 32 := 0x2
def isUnaligned : BitVec 32 := 0x4
def isReference : BitVec 32 := 0x8
def isEllipsis : BitVec 32 := 0x40

end CatchFlag

namespace ThrowFlag

def isConst : BitVec 32 := 0x1
def isVolatile : BitVec 32 := 0x2
def isUnaligned : BitVec 32 := 0x4

end ThrowFlag

namespace CatchableProperty

def isSimpleType : BitVec 32 := 0x1
def byReferenceOnly : BitVec 32 := 0x2
def hasVirtualBase : BitVec 32 := 0x4

end CatchableProperty

namespace EhFlag

def isNoexcept : BitVec 32 := 0x4

end EhFlag

namespace Eh4Flag

def isCatchFunclet : BitVec 8 := 0x01
def hasMultipleFunclets : BitVec 8 := 0x02
def bbt : BitVec 8 := 0x04
def hasUnwindMap : BitVec 8 := 0x08
def hasTryBlockMap : BitVec 8 := 0x10
def isNoexcept : BitVec 8 := 0x40

end Eh4Flag

namespace CatchBlockFlag

def hasTypeFlags : BitVec 8 := 0x01
def hasTypeInfo : BitVec 8 := 0x02
def hasCatchVar : BitVec 8 := 0x04
def imageRva : BitVec 8 := 0x08
def continuationAddrCount : BitVec 8 := 0x30

end CatchBlockFlag

namespace ExceptionFlag

def unwinding : BitVec 32 := 0x2

end ExceptionFlag

end Vcrtl.EhFlags

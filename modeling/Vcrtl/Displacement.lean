import Vcrtl.Lib.Memory

namespace Vcrtl.Displacement

open Lib.Memory

/-- Where a base subobject lies in a complete object. A negative
`vbtablePtrOffset` stands for a base that is not virtual. -/
structure PtrToMember where
  memberOffset : BitVec 32
  vbtablePtrOffset : BitVec 32
  vbaseOffset : BitVec 32
  deriving DecidableEq

variable {w : Nat}

def PtrToMember.apply (d : PtrToMember) (m : Mem w) (obj : BitVec w) : BitVec w :=
  let obj :=
    if 0 ≤ d.vbtablePtrOffset.toInt then
      let vbtablePtr := obj + d.vbtablePtrOffset.signExtend w
      let vbtable := readWord m vbtablePtr
      vbtablePtr + (read32 m (vbtable + d.vbaseOffset.signExtend w)).signExtend w
    else obj
  obj + d.memberOffset.signExtend w

end Vcrtl.Displacement

import Vcrtl.Displacement

namespace Vcrtl.X64.EhStructs

open Displacement

abbrev Ptr := BitVec 64

abbrev Rva := BitVec 32

def null : Ptr := 0

def displace (base : Ptr) (r : Rva) : Ptr := base + r.setWidth 64

def Mapped (imageBase : Ptr) : Prop := ∀ r, displace imageBase r ≠ null

theorem mapped_of_le {imageBase : Ptr} (hpos : 0 < imageBase.toNat)
    (hfits : imageBase.toNat + 2 ^ 32 ≤ 2 ^ 64) : Mapped imageBase := by
  intro r h
  have hr := r.isLt
  simp only [displace, null] at h
  bv_omega

theorem displace_inj {base : Ptr} {r s : Rva} :
    displace base r = displace base s ↔ r = s := by
  constructor
  · intro heq
    have hwide := (BitVec.add_right_inj base).mp heq
    apply BitVec.eq_of_toNat_eq
    have hnat := congrArg BitVec.toNat hwide
    have hr := r.isLt
    have hs := s.isLt
    simp only [BitVec.toNat_setWidth] at hnat
    omega
  · rintro rfl
    rfl

structure CatchableType where
  properties : BitVec 32
  desc : Rva
  offset : PtrToMember
  size : BitVec 32
  copyFn : Rva
  deriving DecidableEq

structure ThrowInfo where
  attributes : BitVec 32
  destroyExcObj : Rva
  catchables : List CatchableType
  deriving DecidableEq

structure CatchHandler where
  adjectives : BitVec 32
  typeDesc : Rva
  catchObjectOffset : Rva
  handler : Rva
  nodeOffset : Rva
  deriving DecidableEq

structure TryBlock where
  tryLow : Int
  tryHigh : Int
  catchHigh : Int
  catchHandlers : List CatchHandler
  deriving DecidableEq

structure EhRegion where
  firstIp : Rva
  state : Int
  deriving DecidableEq

structure UnwindGraphEdge where
  next : Int
  cleanupHandler : Rva
  deriving DecidableEq

structure FunctionEhInfo where
  unwindGraph : List UnwindGraphEdge
  tryBlocks : List TryBlock
  regions : List EhRegion
  ehFlags : BitVec 32
  deriving DecidableEq

end Vcrtl.X64.EhStructs

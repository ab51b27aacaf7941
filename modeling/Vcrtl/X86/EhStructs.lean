import Vcrtl.Displacement

namespace Vcrtl.X86.EhStructs

open Displacement

abbrev Ptr := BitVec 32

def null : Ptr := 0

structure CatchableType where
  properties : BitVec 32
  desc : Ptr
  offset : PtrToMember
  size : BitVec 32
  copyFnRva : Ptr
  deriving DecidableEq

structure ThrowInfo where
  attributes : BitVec 32
  destroyExcObj : Ptr
  catchables : List CatchableType
  deriving DecidableEq

structure UnwindGraphEdge where
  next : Int
  cleanupHandler : Ptr
  deriving DecidableEq

structure CatchHandler where
  adjectives : BitVec 32
  typeDesc : Ptr
  catchObjectOffset : BitVec 32
  handler : Ptr
  deriving DecidableEq

structure TryBlock where
  tryLow : Int
  tryHigh : Int
  catchHigh : Int
  catchHandlers : List CatchHandler
  deriving DecidableEq

structure FunctionEhInfo where
  magic : Nat
  unwindGraph : List UnwindGraphEdge
  tryBlocks : List TryBlock
  esTypes : BitVec 32
  ehFlags : BitVec 32
  deriving DecidableEq

end Vcrtl.X86.EhStructs

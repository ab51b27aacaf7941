import Vcrtl.BugCheck
import Vcrtl.X64.EhStructs

namespace Vcrtl.X64.Throw

open BugCheck EhStructs

/-- `cxx_catch_info_t`. The word `exceptionObjectOrLink` is the address of the
exception object when `throwInfoIfOwner` is there, otherwise null or the
address of another catch info. -/
structure CatchInfo where
  continuationAddress0 : Ptr
  continuationAddress1 : Ptr
  primaryFramePtr : Ptr
  exceptionObjectOrLink : Ptr
  throwInfoIfOwner : Option ThrowInfo
  unwindContext : BitVec 64
  deriving DecidableEq

abbrev InfoAt := Ptr → Option CatchInfo

def deref (infoAt : InfoAt) (p : Ptr) : Exec CatchInfo :=
  match infoAt p with
  | some other => .ok other
  | none => .error .fault

def CatchInfo.getExceptionObject (ci : CatchInfo) (infoAt : InfoAt) : Exec Ptr :=
  if ci.throwInfoIfOwner.isSome then
    .ok ci.exceptionObjectOrLink
  else if ci.exceptionObjectOrLink ≠ null then do
    let other ← deref infoAt ci.exceptionObjectOrLink
    return other.exceptionObjectOrLink
  else
    .ok null

def CatchInfo.getThrowInfo (ci : CatchInfo) (infoAt : InfoAt) : Exec (Option ThrowInfo) :=
  if ci.exceptionObjectOrLink ≠ null then
    if ci.throwInfoIfOwner.isNone then do
      let other ← deref infoAt ci.exceptionObjectOrLink
      return other.throwInfoIfOwner
    else
      .ok ci.throwInfoIfOwner
  else
    .ok none

section

variable {ci other : CatchInfo} {infoAt : InfoAt} {ti : ThrowInfo}

theorem getThrowInfo_null (h : ci.exceptionObjectOrLink = null) :
    ci.getThrowInfo infoAt = .ok none := by
  simp [CatchInfo.getThrowInfo, h]

theorem getThrowInfo_owner (h : ci.exceptionObjectOrLink ≠ null)
    (ht : ci.throwInfoIfOwner = some ti) : ci.getThrowInfo infoAt = .ok (some ti) := by
  simp [CatchInfo.getThrowInfo, h, ht]

theorem getThrowInfo_link (h : ci.exceptionObjectOrLink ≠ null) (ht : ci.throwInfoIfOwner = none)
    (ha : infoAt ci.exceptionObjectOrLink = some other) :
    ci.getThrowInfo infoAt = .ok other.throwInfoIfOwner := by
  simp [CatchInfo.getThrowInfo, h, ht, deref, ha, bind, Except.bind, pure, Except.pure]

theorem getExceptionObject_owner (ht : ci.throwInfoIfOwner = some ti) :
    ci.getExceptionObject infoAt = .ok ci.exceptionObjectOrLink := by
  simp [CatchInfo.getExceptionObject, ht]

theorem getExceptionObject_link (h : ci.exceptionObjectOrLink ≠ null)
    (ht : ci.throwInfoIfOwner = none) (ha : infoAt ci.exceptionObjectOrLink = some other) :
    ci.getExceptionObject infoAt = .ok other.exceptionObjectOrLink := by
  simp [CatchInfo.getExceptionObject, h, ht, deref, ha, bind, Except.bind, pure, Except.pure]

end

structure DestroyCall where
  destroyExcObj : Rva
  object : Ptr
  deriving DecidableEq

def cxxDestroyException (ci : CatchInfo) : List DestroyCall :=
  match ci.throwInfoIfOwner with
  | some ti => if ti.destroyExcObj ≠ 0 then [⟨ti.destroyExcObj, ci.exceptionObjectOrLink⟩] else []
  | none => []

end Vcrtl.X64.Throw

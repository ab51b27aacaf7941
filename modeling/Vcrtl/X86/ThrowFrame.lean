import Vcrtl.Algorithm
import Vcrtl.BugCheck
import Vcrtl.X86.EhStructs

namespace Vcrtl.X86.ThrowFrame

open BugCheck EhStructs

/-- `cxx_throw_frame_t`. The word `exceptionObjectOrLink` is the address of the
exception object when `throwInfoIfOwner` is there, otherwise null or the
address of another throw frame. -/
structure CxxThrowFrame where
  ehInfo : Option FunctionEhInfo
  unwoundState : Int
  primaryFrameBase : Ptr
  exceptionObjectOrLink : Ptr
  throwInfoIfOwner : Option ThrowInfo
  deriving DecidableEq

abbrev FrameAt := Ptr → Option CxxThrowFrame

def deref (frameAt : FrameAt) (p : Ptr) : Exec CxxThrowFrame :=
  match frameAt p with
  | some link => .ok link
  | none => .error .fault

def CxxThrowFrame.getThrowInfo (tf : CxxThrowFrame) (frameAt : FrameAt) : Exec (Option ThrowInfo) :=
  if tf.throwInfoIfOwner.isSome then
    .ok tf.throwInfoIfOwner
  else if tf.exceptionObjectOrLink = null then
    .ok none
  else do
    let link ← deref frameAt tf.exceptionObjectOrLink
    return link.throwInfoIfOwner

def CxxThrowFrame.getExceptionObject (tf : CxxThrowFrame) (frameAt : FrameAt) : Exec Ptr :=
  if tf.throwInfoIfOwner.isSome then
    .ok tf.exceptionObjectOrLink
  else do
    let link ← deref frameAt tf.exceptionObjectOrLink
    return link.exceptionObjectOrLink

section

variable {tf link : CxxThrowFrame} {frameAt : FrameAt} {ti : ThrowInfo}

theorem getThrowInfo_owner (ht : tf.throwInfoIfOwner = some ti) :
    tf.getThrowInfo frameAt = .ok (some ti) := by
  simp [CxxThrowFrame.getThrowInfo, ht]

theorem getThrowInfo_link (h : tf.exceptionObjectOrLink ≠ null) (ht : tf.throwInfoIfOwner = none)
    (ha : frameAt tf.exceptionObjectOrLink = some link) :
    tf.getThrowInfo frameAt = .ok link.throwInfoIfOwner := by
  simp [CxxThrowFrame.getThrowInfo, h, ht, deref, ha, bind, Except.bind, pure, Except.pure]

theorem getExceptionObject_owner (ht : tf.throwInfoIfOwner = some ti) :
    tf.getExceptionObject frameAt = .ok tf.exceptionObjectOrLink := by
  simp [CxxThrowFrame.getExceptionObject, ht]

theorem getExceptionObject_link (ht : tf.throwInfoIfOwner = none)
    (ha : frameAt tf.exceptionObjectOrLink = some link) :
    tf.getExceptionObject frameAt = .ok link.exceptionObjectOrLink := by
  simp [CxxThrowFrame.getExceptionObject, ht, deref, ha, bind, Except.bind, pure, Except.pure]

end

structure DestroyCall where
  destroyExcObj : Ptr
  object : Ptr
  deriving DecidableEq

def cxxDestroyThrowFrame (tf : CxxThrowFrame) : List DestroyCall :=
  match tf.throwInfoIfOwner with
  | some ti =>
    if ti.destroyExcObj ≠ null then [⟨ti.destroyExcObj, tf.exceptionObjectOrLink⟩] else []
  | none => []

/-- What a record of the registration chain stands for, by its handler: the
frame of a function, known by its frame base, or a catch frame. -/
inductive Target
  | primary (ehInfo : FunctionEhInfo) (frameBase : Ptr)
  | catchFrame (throwFrame : Ptr) (tf : CxxThrowFrame)
  deriving DecidableEq

structure SehRegistration where
  addr : Ptr
  handler : Ptr
  target : Target
  deriving DecidableEq

structure SehVerifier where
  stackBase : Ptr
  stackLimit : Ptr
  imageBase : Ptr
  safeSeHandlerTable : List (BitVec 32)

def SehVerifier.verifySehRegistration (v : SehVerifier) (p : SehRegistration) : Exec Unit :=
  if p.addr < v.stackLimit ∨ v.stackBase ≤ p.addr then
    onBugCheck .corruptedExceptionRegistrationChain
  else
    match Algorithm.binarySearch (fun a b => decide (a < b)) v.safeSeHandlerTable
        (p.handler - v.imageBase) with
    | some true => .ok ()
    | some false => onBugCheck .sehHandlerNotInSafeseh
    | none => .error .fault

/-- What the handler of one record answers a probe. -/
def probeRegistration (p : SehRegistration) (tf : CxxThrowFrame) : Exec CxxThrowFrame :=
  match p.target with
  | .primary ehInfo _ =>
    if ehInfo.magic < 0x19930520 ∨ ehInfo.magic ≥ 0x19940000 then
      onBugCheck .corruptedEhUnwindData
    else
      .ok tf
  | .catchFrame addr _ => .ok { tf with exceptionObjectOrLink := addr }

/-- Walk the chain until a catch frame is linked. The record after the last
one is `0xffffffff`, which the verifier refuses. -/
def probeForExceptionObject (v : SehVerifier) : List SehRegistration → CxxThrowFrame →
    Exec CxxThrowFrame
  | [], tf =>
    if tf.exceptionObjectOrLink ≠ null then
      .ok tf
    else
      onBugCheck .corruptedExceptionRegistrationChain
  | p :: rest, tf =>
    if tf.exceptionObjectOrLink ≠ null then
      .ok tf
    else do
      v.verifySehRegistration p
      let tf ← probeRegistration p tf
      probeForExceptionObject v rest tf

def ensureThrowInfo (v : SehVerifier) (regs : List SehRegistration) (frameAt : FrameAt)
    (tf : CxxThrowFrame) : Exec CxxThrowFrame := do
  let throwInfo ← tf.getThrowInfo frameAt
  if throwInfo.isNone then
    probeForExceptionObject v regs tf
  else
    return tf

def enterCatchFrame (addr : Ptr) (frame tf : CxxThrowFrame) : CxxThrowFrame :=
  if tf.exceptionObjectOrLink = addr then
    { tf with
      exceptionObjectOrLink := frame.exceptionObjectOrLink
      throwInfoIfOwner := frame.throwInfoIfOwner }
  else if tf.exceptionObjectOrLink = null then
    { tf with exceptionObjectOrLink := addr }
  else
    tf

def leaveCatchFrame (addr : Ptr) (frame tf : CxxThrowFrame) : CxxThrowFrame × List DestroyCall :=
  if tf.exceptionObjectOrLink = addr then
    ({ tf with
      exceptionObjectOrLink := frame.exceptionObjectOrLink
      throwInfoIfOwner := frame.throwInfoIfOwner }, [])
  else
    (tf, cxxDestroyThrowFrame frame)

end Vcrtl.X86.ThrowFrame

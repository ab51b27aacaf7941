import Vcrtl.EhFlags
import Vcrtl.X64.Throw

namespace Vcrtl.X64.CatchFrame

open BugCheck EhFlags EhStructs Throw

inductive ExceptionDisposition
  | continueExecution
  | continueSearch
  | nested
  | collided
  | cxxHandler
  deriving DecidableEq

structure ExceptionRecord where
  flags : BitVec 32
  deriving DecidableEq

/-- The cookie of a dispatcher context tells who walks the stack. -/
inductive Cookie
  | unwind
  | rethrowProbe
  | foreign
  deriving DecidableEq

/-- Where `_catch_frame_t` keeps its catch info: after the red zone and the
machine frame. -/
def catchInfoAddr (framePtr : Ptr) : Ptr := framePtr + 0x48

def cxxSehFrameHandler (exceptionRecord : Option ExceptionRecord) : Exec ExceptionDisposition := do
  if let some rec := exceptionRecord then
    verify (hasAnyOf rec.flags ExceptionFlag.unwinding)
  return .continueSearch

/-- `__cxx_call_catch_frame_handler`. The catch info `frame` is the one of the
frame that called the catch funclet, `ci` the one of the throw in flight. -/
def cxxCallCatchFrameHandler (exceptionRecord : Option ExceptionRecord) (framePtr : Ptr)
    (frame : CatchInfo) (cookie : Cookie) (ci : CatchInfo) :
    Exec (ExceptionDisposition × CatchInfo × List DestroyCall) :=
  match exceptionRecord with
  | some rec => do
    verify (hasAnyOf rec.flags ExceptionFlag.unwinding)
    return (.continueSearch, ci, [])
  | none =>
    match cookie with
    | .rethrowProbe => do
      verify (frame.exceptionObjectOrLink ≠ null)
      if frame.throwInfoIfOwner.isSome then
        return (.cxxHandler, { ci with exceptionObjectOrLink := catchInfoAddr framePtr }, [])
      else
        return (.cxxHandler, { ci with exceptionObjectOrLink := frame.exceptionObjectOrLink }, [])
    | .unwind =>
      let (ci, calls) :=
        if ci.exceptionObjectOrLink = null ∨ ci.exceptionObjectOrLink = catchInfoAddr framePtr then
          ({ ci with
            exceptionObjectOrLink := frame.exceptionObjectOrLink
            throwInfoIfOwner := frame.throwInfoIfOwner }, [])
        else
          (ci, cxxDestroyException frame)
      .ok (.cxxHandler, { ci with
        primaryFramePtr := frame.primaryFramePtr
        unwindContext := frame.unwindContext }, calls)
    | .foreign => .ok (.continueSearch, ci, [])

theorem callCatch_probe {framePtr : Ptr} {frame ci : CatchInfo}
    {x : ExceptionDisposition × CatchInfo × List DestroyCall} :
    cxxCallCatchFrameHandler none framePtr frame .rethrowProbe ci = .ok x ↔
      frame.exceptionObjectOrLink ≠ null ∧ x = (.cxxHandler, { ci with
        exceptionObjectOrLink :=
          if frame.throwInfoIfOwner.isSome then catchInfoAddr framePtr
          else frame.exceptionObjectOrLink }, []) := by
  simp only [cxxCallCatchFrameHandler, bind_ok, verify_ok]
  constructor
  · rintro ⟨-, hne, hx⟩
    split at hx <;> cases hx <;> simp_all
  · rintro ⟨hne, rfl⟩
    refine ⟨(), hne, ?_⟩
    split <;> rfl

theorem callCatch_take {framePtr : Ptr} {frame ci : CatchInfo}
    (h : ci.exceptionObjectOrLink = null ∨ ci.exceptionObjectOrLink = catchInfoAddr framePtr) :
    cxxCallCatchFrameHandler none framePtr frame .unwind ci = .ok (.cxxHandler, { ci with
      exceptionObjectOrLink := frame.exceptionObjectOrLink
      throwInfoIfOwner := frame.throwInfoIfOwner
      primaryFramePtr := frame.primaryFramePtr
      unwindContext := frame.unwindContext }, []) := by
  simp only [cxxCallCatchFrameHandler]
  rw [if_pos h]

theorem callCatch_drop {framePtr : Ptr} {frame ci : CatchInfo}
    (h : ¬ (ci.exceptionObjectOrLink = null ∨ ci.exceptionObjectOrLink = catchInfoAddr framePtr)) :
    cxxCallCatchFrameHandler none framePtr frame .unwind ci = .ok (.cxxHandler, { ci with
      primaryFramePtr := frame.primaryFramePtr
      unwindContext := frame.unwindContext }, cxxDestroyException frame) := by
  simp only [cxxCallCatchFrameHandler]
  rw [if_neg h]

theorem callCatch_resumes {framePtr : Ptr} {frame ci ci' : CatchInfo}
    {disposition : ExceptionDisposition} {calls : List DestroyCall}
    (h : cxxCallCatchFrameHandler none framePtr frame .unwind ci = .ok (disposition, ci', calls)) :
    ci'.primaryFramePtr = frame.primaryFramePtr ∧ ci'.unwindContext = frame.unwindContext := by
  by_cases hci : ci.exceptionObjectOrLink = null ∨ ci.exceptionObjectOrLink = catchInfoAddr framePtr
  · rw [callCatch_take hci] at h
    cases h
    exact ⟨rfl, rfl⟩
  · rw [callCatch_drop hci] at h
    cases h
    exact ⟨rfl, rfl⟩

inductive EhData
  | none
  | fh3 (ehInfo : FunctionEhInfo)
  | fh4 (funcInfo : Rva)
  deriving DecidableEq

structure FunctionFrame where
  framePtr : Ptr
  rip : Ptr
  fnBegin : Rva
  ehData : EhData
  deriving DecidableEq

/-- A frame on the path of a stack walk, by the handler registered for it. -/
inductive Frame
  | function (f : FunctionFrame)
  | callCatch (framePtr : Ptr) (info : CatchInfo)
  | seh
  deriving DecidableEq

/-- What the handler of one frame answers a probe. The handlers of functions
ignore it. -/
def probeFrame (frame : Frame) (ci : CatchInfo) : Exec (ExceptionDisposition × CatchInfo) :=
  match frame with
  | .function _ => .ok (.cxxHandler, ci)
  | .callCatch framePtr info => do
    let (disposition, ci, _) ← cxxCallCatchFrameHandler none framePtr info .rethrowProbe ci
    return (disposition, ci)
  | .seh => do
    let disposition ← cxxSehFrameHandler none
    return (disposition, ci)

/-- Walk up until a frame links the throw to an exception. Past the last frame
the unwinder finds no function and stops the machine. -/
def probeForExceptionObject : List Frame → CatchInfo → Exec CatchInfo
  | [], _ => onBugCheck .assertionFailure
  | frame :: rest, ci => do
    let (disposition, ci) ← probeFrame frame ci
    verify (disposition = .cxxHandler)
    if ci.exceptionObjectOrLink ≠ null then
      return ci
    else
      probeForExceptionObject rest ci

theorem probeFrame_link {frame : Frame} {ci ci' : CatchInfo} {disposition : ExceptionDisposition}
    (h : probeFrame frame ci = .ok (disposition, ci')) :
    ∃ link, ci' = { ci with exceptionObjectOrLink := link } := by
  cases frame with
  | function f =>
    cases h
    exact ⟨_, rfl⟩
  | callCatch framePtr info =>
    simp only [probeFrame, bind_ok, callCatch_probe] at h
    obtain ⟨-, ⟨-, rfl⟩, h⟩ := h
    cases h
    exact ⟨_, rfl⟩
  | seh =>
    simp only [probeFrame, bind_ok, pure_ok, Prod.mk.injEq] at h
    obtain ⟨_, -, -, rfl⟩ := h
    exact ⟨_, rfl⟩

theorem probe_link {frames : List Frame} {ci ci' : CatchInfo}
    (h : probeForExceptionObject frames ci = .ok ci') :
    ∃ link, ci' = { ci with exceptionObjectOrLink := link } := by
  induction frames generalizing ci with
  | nil => cases h
  | cons frame rest ih =>
    simp only [probeForExceptionObject, bind_ok] at h
    obtain ⟨⟨disposition, ci₁⟩, hframe, -, -, h⟩ := h
    obtain ⟨link, rfl⟩ := probeFrame_link hframe
    split at h
    · cases h
      exact ⟨link, rfl⟩
    · obtain ⟨link', rfl⟩ := ih h
      exact ⟨link', rfl⟩

/-- What both frame handlers do before they compare a handler with the throw. -/
def ensureThrowInfo (frames : List Frame) (infoAt : InfoAt) (ci : CatchInfo) : Exec CatchInfo := do
  let throwInfo ← ci.getThrowInfo infoAt
  if throwInfo.isNone then
    probeForExceptionObject frames ci
  else
    return ci

end Vcrtl.X64.CatchFrame

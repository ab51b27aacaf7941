import Mathlib.Logic.Relation
import Vcrtl.Lib.Links
import Vcrtl.X64.CatchFrame

namespace Vcrtl.X64.Steps

open Lib.Custody Lib.Links BugCheck EhStructs Throw CatchFrame

/-- What stands on the stack, innermost first. A throw in flight has its throw
frame, a running catch funclet the frame that called it, and a frame whose
exception is being destroyed is closed to walks. The number is the exception
that a throw or handler is about; only the proofs look at it. -/
inductive Cell
  | function (f : FunctionFrame)
  | throwing (throwFrame : Ptr) (info : CatchInfo) (subject : Nat)
  | catching (framePtr : Ptr) (info : CatchInfo) (subject : Nat)
  | finishing (framePtr : Ptr)

def throwInfoAddr (throwFrame : Ptr) : Ptr := throwFrame + 0x128

/-- The throw frame shrinks to a catch frame at its upper end. -/
def shrink (throwFrame : Ptr) : Ptr := throwFrame + 0xe0

theorem catchInfoAddr_shrink (throwFrame : Ptr) :
    catchInfoAddr (shrink throwFrame) = throwInfoAddr throwFrame := by
  simp only [catchInfoAddr, shrink, throwInfoAddr, BitVec.add_assoc]
  rfl

def frame : Cell → Frame
  | .function f => .function f
  | .throwing _ _ _ | .finishing _ => .seh
  | .catching framePtr info _ => .callCatch framePtr info

def slot : Cell → Option (Slot Ptr ThrowInfo)
  | .throwing tf info n =>
    some ⟨throwInfoAddr tf, info.exceptionObjectOrLink, info.throwInfoIfOwner, n, false⟩
  | .catching fp info n =>
    some ⟨catchInfoAddr fp, info.exceptionObjectOrLink, info.throwInfoIfOwner, n, true⟩
  | .function _ | .finishing _ => none

/-- The catch info at an address. Those of finished frames are gone. -/
def infoAt : List Cell → InfoAt
  | [], _ => none
  | .throwing tf info _ :: rest, p => if throwInfoAddr tf = p then some info else infoAt rest p
  | .catching fp info _ :: rest, p => if catchInfoAddr fp = p then some info else infoAt rest p
  | .function _ :: rest, p | .finishing _ :: rest, p => infoAt rest p

structure State where
  stack : List Cell
  record : Record Ptr ThrowInfo

def State.initial : State := ⟨[], .empty⟩

/-- The address is not null and not in use by a live frame or exception. -/
def Fresh (s : State) (a : Ptr) : Prop :=
  a ≠ null ∧ a ∉ addrs (slots slot s.stack) ∧ a ∉ (owners (slots slot s.stack)).map Prod.fst

/-- The first lines of `__cxx_dispatch_exception`. -/
def initCatchInfo (uninit : CatchInfo) (exceptionObject : Ptr) (throwInfo : Option ThrowInfo) :
    CatchInfo :=
  { uninit with
    exceptionObjectOrLink := exceptionObject
    throwInfoIfOwner := throwInfo
    primaryFramePtr := null }

/-- The fields a frame handler may write directly are the other ones. -/
def SameException (a b : CatchInfo) : Prop :=
  a.exceptionObjectOrLink = b.exceptionObjectOrLink ∧ a.throwInfoIfOwner = b.throwInfoIfOwner

def destroyAll (r : Record Ptr ThrowInfo) (calls : List DestroyCall) : Record Ptr ThrowInfo :=
  r.destroyAll (calls.map DestroyCall.object)

/-- The steps of a run. Code may be entered, left or throw at any time, also
in a cleanup action or destructor that runs during a dispatch; a throw in
flight moves on when it is innermost. A walk that meets the frame of another
throw stops the machine, so it has no step. -/
inductive Step : State → State → Prop
  | call (f stack r) : Step ⟨stack, r⟩ ⟨.function f :: stack, r⟩
  | ret (f stack r) : Step ⟨.function f :: stack, r⟩ ⟨stack, r⟩
  | throwNew (s : State) (tf obj ti uninit) (hframe : Fresh s (throwInfoAddr tf))
      (hobj : Fresh s obj) (hne : obj ≠ throwInfoAddr tf) :
      Step s ⟨.throwing tf (initCatchInfo uninit obj (some ti)) s.record.thrown.length :: s.stack,
        s.record.hand obj ti⟩
  | rethrow (s : State) (tf n uninit) (hframe : Fresh s (throwInfoAddr tf))
      (hlive : current (slots slot s.stack) = some n) :
      Step s ⟨.throwing tf (initCatchInfo uninit null none) n :: s.stack, s.record⟩
  | search (tf info n f stack r info' info'')
      (h : ensureThrowInfo (.function f :: stack.map frame)
        (infoAt (.throwing tf info n :: .function f :: stack)) info = .ok info')
      (hsame : SameException info'' info') :
      Step ⟨.throwing tf info n :: .function f :: stack, r⟩
        ⟨.throwing tf info'' n :: .function f :: stack, r⟩
  | skip (tf info n f stack r) :
      Step ⟨.throwing tf info n :: .function f :: stack, r⟩ ⟨.throwing tf info n :: stack, r⟩
  | land (tf info n f stack r ti info')
      (h : info.getThrowInfo (infoAt (.throwing tf info n :: .function f :: stack)) = .ok (some ti))
      (hsame : SameException info' info) :
      Step ⟨.throwing tf info n :: .function f :: stack, r⟩
        ⟨.catching (shrink tf) info' n :: .function f :: stack, r⟩
  | pass (tf info n fp ci m stack r info' calls)
      (h : cxxCallCatchFrameHandler none fp ci .unwind info = .ok (.cxxHandler, info', calls)) :
      Step ⟨.throwing tf info n :: .catching fp ci m :: stack, r⟩
        ⟨.throwing tf info' n :: stack, destroyAll r calls⟩
  | finish (fp ci n stack r) :
      Step ⟨.catching fp ci n :: stack, r⟩
        ⟨.finishing fp :: stack, destroyAll r (cxxDestroyException ci)⟩
  | resume (fp stack r) : Step ⟨.finishing fp :: stack, r⟩ ⟨stack, r⟩

def Reach (s : State) : Prop := Relation.ReflTransGen Step .initial s

end Vcrtl.X64.Steps

import Vcrtl.CatchVariable
import Vcrtl.X86.ThrowFrame

namespace Vcrtl.X86.Handler

open Lib.Memory BugCheck EhFlags EhStructs ThrowFrame CatchVariable

/-- The member `state` of the `fh3_frame_t` that `next_frame_base` ends. -/
def frameState (m : Mem 32) (frameBase : Ptr) : Int := (read32 m (frameBase - 4)).toInt

def setFrameState (frameBase : Ptr) (state : Int) (s : World 32) : World 32 :=
  { s with mem := write s.mem (frameBase - 4) (bytesLE 4 (BitVec.ofInt 32 state).toNat) }

def unwindEdge (code : Code 32) (frameBase : Ptr) (edge : UnwindGraphEdge) (s : World 32) :
    World 32 :=
  let s := setFrameState frameBase edge.next s
  if edge.cleanupHandler ≠ null then
    s.perform code (.funclet edge.cleanupHandler frameBase)
  else
    s

/-- The loop of `_unwind_frame`. A longer walk than the graph has edges has met
one of them twice. -/
def unwindFrom (code : Code 32) (graph : List UnwindGraphEdge) (frameBase : Ptr)
    (targetState : Int) : Nat → Int → World 32 → Exec (World 32)
  | 0, state, s => if state ≤ targetState then .ok s else .error .hang
  | fuel + 1, state, s =>
    if state ≤ targetState then
      .ok s
    else do
      let edge ← Algorithm.elementAt graph state
      unwindFrom code graph frameBase targetState fuel edge.next (unwindEdge code frameBase edge s)

def unwindFrame (code : Code 32) (frameBase : Ptr) (ehInfo : FunctionEhInfo) (targetState : Int)
    (s : World 32) : Exec (World 32) :=
  unwindFrom code ehInfo.unwindGraph frameBase targetState ehInfo.unwindGraph.length
    (frameState s.mem frameBase) s

structure Dispatch where
  throwFrame : CxxThrowFrame
  handler : Ptr
  world : World 32

section

variable (code : Code 32) (v : SehVerifier) (regs : List SehRegistration) (frameAt : FrameAt)

def matchHandlers : List CatchHandler → CxxThrowFrame →
    Exec (CxxThrowFrame × Option (CatchHandler × Option CatchableType))
  | [], tf => .ok (tf, none)
  | h :: hs, tf =>
    if hasAnyOf h.adjectives CatchFlag.isEllipsis then
      .ok (tf, some (h, none))
    else do
      let tf ← ensureThrowInfo v regs frameAt tf
      match ← tf.getThrowInfo frameAt with
      | none => .error .fault
      | some throwInfo =>
        match throwInfo.catchables.find? fun c => c.desc == h.typeDesc with
        | some c => .ok (tf, some (h, some c))
        | none => matchHandlers hs tf

/-- Search the try blocks around a state, as far as they were not left before. -/
def matchTryBlocks (unwoundState state : Int) : List TryBlock → CxxThrowFrame →
    Exec (CxxThrowFrame × Option (TryBlock × CatchHandler × Option CatchableType))
  | [], tf => .ok (tf, none)
  | t :: ts, tf =>
    if t.tryLow ≤ unwoundState then
      .ok (tf, none)
    else if t.tryLow > state ∨ state > t.tryHigh then
      matchTryBlocks unwoundState state ts tf
    else do
      let (tf, found) ← matchHandlers v regs frameAt t.catchHandlers tf
      match found with
      | some (h, c) => .ok (tf, some (t, h, c))
      | none => matchTryBlocks unwoundState state ts tf

def initCatchVariable (tf : CxxThrowFrame) (frameBase : Ptr) (h : CatchHandler)
    (matching : Option CatchableType) (s : World 32) : Exec (World 32) :=
  if hasAnyOf h.adjectives CatchFlag.isReference then do
    let object ← tf.getExceptionObject frameAt
    return s.perform code (.reference (frameBase + h.catchObjectOffset) object)
  else
    match matching with
    | none => .ok s
    | some c =>
      if h.catchObjectOffset ≠ 0 then do
        let object ← tf.getExceptionObject frameAt
        let copyFn := if c.copyFnRva = null then none else some c.copyFnRva
        return initByValue code c.properties c.offset c.size copyFn
          (tf.primaryFrameBase + h.catchObjectOffset) object s
      else
        .ok s

def fh3Handler (frameBase : Ptr) (ehInfo : FunctionEhInfo) (unwoundState : Int) (d : Dispatch) :
    Exec Dispatch :=
  if ehInfo.magic ≥ 0x19930521 ∧ ehInfo.esTypes ≠ 0 then
    onBugCheck .exceptionSpecificationNotSupported
  else do
    let _ ← d.throwFrame.getThrowInfo frameAt
    let state := frameState d.world.mem frameBase
    let (tf, found) ← matchTryBlocks v regs frameAt unwoundState state ehInfo.tryBlocks d.throwFrame
    match found with
    | some (t, h, c) =>
      let tf := { tf with
        primaryFrameBase := frameBase
        ehInfo := some ehInfo
        unwoundState := t.tryLow - 1 }
      let s ← unwindFrame code frameBase ehInfo t.tryLow d.world
      let s ← initCatchVariable code frameAt tf frameBase h c
        (setFrameState frameBase (t.tryHigh + 1) s)
      return ⟨tf, h.handler, s⟩
    | none =>
      let s ← unwindFrame code frameBase ehInfo unwoundState d.world
      if state = -1 ∧ ehInfo.magic ≥ 0x19930522 ∧ hasAnyOf ehInfo.ehFlags EhFlag.isNoexcept ∧
          d.handler = null then
        onBugCheck .noexceptViolation
      else
        return { d with throwFrame := tf, world := s }

def fh3PrimaryHandler (ehInfo : FunctionEhInfo) (frameBase : Ptr) (d : Dispatch) : Exec Dispatch :=
  if ehInfo.magic < 0x19930520 ∨ ehInfo.magic ≥ 0x19940000 then
    onBugCheck .corruptedEhUnwindData
  else
    fh3Handler code v regs frameAt frameBase ehInfo (-1) d

def cxxCatchFrameHandler (addr : Ptr) (frame : CxxThrowFrame) (d : Dispatch) : Exec Dispatch :=
  match frame.ehInfo with
  | none => .error .fault
  | some ehInfo => do
    let d ← fh3Handler code v regs frameAt frame.primaryFrameBase ehInfo frame.unwoundState
      { d with throwFrame := enterCatchFrame addr frame d.throwFrame }
    if d.handler = null then
      let (tf, calls) := leaveCatchFrame addr frame d.throwFrame
      return { d with
        throwFrame := tf
        world := calls.foldl
          (fun s c => s.perform code (.destroy c.destroyExcObj c.object)) d.world }
    else
      return d

def visit (p : SehRegistration) (d : Dispatch) : Exec Dispatch :=
  match p.target with
  | .primary ehInfo frameBase => fh3PrimaryHandler code v regs frameAt ehInfo frameBase d
  | .catchFrame addr frame => cxxCatchFrameHandler code v regs frameAt addr frame d

end

def dispatch (code : Code 32) (v : SehVerifier) (frameAt : FrameAt) :
    List SehRegistration → Dispatch → Exec Dispatch
  | [], _ => onBugCheck .corruptedExceptionRegistrationChain
  | p :: rest, d => do
    v.verifySehRegistration p
    let d ← visit code v (p :: rest) frameAt p d
    if d.handler ≠ null then
      return d
    else
      dispatch code v frameAt rest d

def takes (ti : ThrowInfo) (h : CatchHandler) : Bool :=
  hasAnyOf h.adjectives CatchFlag.isEllipsis || ti.catchables.any (·.desc == h.typeDesc)

def Resolves (v : SehVerifier) (regs : List SehRegistration) (frameAt : FrameAt)
    (tf : CxxThrowFrame) (ti : ThrowInfo) : Prop :=
  ∃ tf', ensureThrowInfo v regs frameAt tf = .ok tf' ∧ tf'.getThrowInfo frameAt = .ok (some ti)

section

variable {v : SehVerifier} {regs : List SehRegistration} {frameAt : FrameAt} {tf : CxxThrowFrame}
  {ti : ThrowInfo}

theorem Resolves.found {tf' : CxxThrowFrame} (h : tf'.getThrowInfo frameAt = .ok (some ti)) :
    Resolves v regs frameAt tf' ti :=
  ⟨tf', by simp [ensureThrowInfo, h, bind, Except.bind, pure, Except.pure], h⟩

theorem matchHandlers_find (hs : List CatchHandler) (htf : Resolves v regs frameAt tf ti) :
    ∃ tf' found, matchHandlers v regs frameAt hs tf = .ok (tf', found) ∧
      found.map Prod.fst = hs.find? (takes ti) ∧ Resolves v regs frameAt tf' ti := by
  induction hs generalizing tf with
  | nil => exact ⟨tf, none, rfl, rfl, htf⟩
  | cons h hs ih =>
    rw [matchHandlers]
    by_cases hellipsis : hasAnyOf h.adjectives CatchFlag.isEllipsis = true
    · refine ⟨tf, some (h, none), if_pos hellipsis, ?_, htf⟩
      rw [List.find?_cons_of_pos (by simp [takes, hellipsis])]
      rfl
    · obtain ⟨tf', hensure, hthrow⟩ := htf
      rw [if_neg hellipsis]
      simp only [bind, Except.bind, hensure, hthrow]
      cases hfind : ti.catchables.find? (·.desc == h.typeDesc) with
      | some c =>
        have hany : ti.catchables.any (·.desc == h.typeDesc) = true := by
          rw [List.any_eq_true]
          exact ⟨c, List.mem_of_find?_eq_some hfind, by simpa using List.find?_some hfind⟩
        refine ⟨tf', some (h, some c), rfl, ?_, .found hthrow⟩
        rw [List.find?_cons_of_pos (by simp [takes, hany])]
        rfl
      | none =>
        have hany : ti.catchables.any (·.desc == h.typeDesc) = false := by
          rw [List.any_eq_false]
          exact List.find?_eq_none.mp hfind
        rw [List.find?_cons_of_neg (by simp [takes, hany, hellipsis])]
        exact ih (.found hthrow)

end

end Vcrtl.X86.Handler

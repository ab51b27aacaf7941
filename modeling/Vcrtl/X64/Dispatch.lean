import Vcrtl.X64.Fh3
import Vcrtl.X64.Fh4

namespace Vcrtl.X64.Dispatch

open BugCheck EhStructs Throw CatchFrame CatchVariable Cleanup DispatcherContext

/-- `_execute_handler` in an unwinding dispatch, on the first of the frames. -/
def executeHandler (env : Env) (frames : List Frame) (frame : Frame) (d : Dispatch) :
    Exec Dispatch :=
  match frame with
  | .function f =>
    match f.ehData with
    | .none => .ok d
    | .fh3 ehInfo => Fh3.frameHandler env frames f ehInfo d
    | .fh4 funcInfo => Fh4.frameHandler env frames f funcInfo d
  | .callCatch framePtr info => do
    let (disposition, ci, calls) ← cxxCallCatchFrameHandler none framePtr info .unwind d.catchInfo
    verify (disposition = .cxxHandler)
    return { d with
      catchInfo := ci
      world := calls.foldl (fun s c => s.perform env.code
        (.destroy (displace env.imageBase c.destroyExcObj) c.object)) d.world }
  | .seh => do
    let disposition ← cxxSehFrameHandler none
    verify (disposition = .cxxHandler)
    return d

def dispatch (env : Env) : List Frame → Dispatch → Exec Dispatch
  | [], _ => onBugCheck .assertionFailure
  | frame :: rest, d => do
    let d ← executeHandler env (frame :: rest) frame d
    if d.handler ≠ null then
      return d
    else
      dispatch env rest d

/-- The dispatch gets from one frame to a later one, in whatever way the
handlers in between change the program. -/
inductive Visits (env : Env) : List Frame → Dispatch → List Frame → Dispatch → Prop
  | here (frames d) : Visits env frames d frames d
  | next {frame rest d d₁ frames' d'}
      (hexecute : executeHandler env (frame :: rest) frame d = .ok d₁)
      (hhandler : d₁.handler = null) (hrest : Visits env rest d₁ frames' d') :
      Visits env (frame :: rest) d frames' d'

theorem Visits.handler {env : Env} {frames frames' : List Frame} {d d' : Dispatch}
    (h : Visits env frames d frames' d') (hd : d.handler = null) : d'.handler = null := by
  induction h with
  | here => exact hd
  | next _ hhandler _ ih => exact ih hhandler

theorem Visits.dispatch {env : Env} {frames frames' : List Frame} {d d' : Dispatch}
    (h : Visits env frames d frames' d') : dispatch env frames d = dispatch env frames' d' := by
  induction h with
  | here => rfl
  | next hexecute hhandler _ ih =>
    simp only [Dispatch.dispatch, hexecute, bind, Except.bind]
    rw [if_neg (not_not.mpr hhandler)]
    exact ih

/-- What the handler of a function's frame selects, and the cleanup it leaves to do. -/
def Selects (env : Env) (frames : List Frame) (f : FunctionFrame) (d : Dispatch) (c : Selection)
    (actions : List Action) : Prop :=
  match f.ehData with
  | .none => False
  | .fh3 ehInfo => Fh3.select env frames f ehInfo d = .ok c ∧
      descend (Fh3.edges env.imageBase ehInfo.unwindGraph) c.targetState
        ehInfo.unwindGraph.length c.state = .ok actions
  | .fh4 funcInfo =>
    let ehInfo := Fh4.ehInfoOf env f funcInfo
    Fh4.select env frames f ehInfo d = .ok c ∧
      Fh4.cleanupActions env ehInfo.unwindGraph c.state c.targetState = .ok actions

theorem select_cleanup {code : Code 64} {framePtr : Ptr} {select : Exec Selection}
    {actionsOf : Selection → Exec (List Action)} {d' : Dispatch} :
    (do
      let c ← select
      let s ← (fun as => runAll code framePtr as c.dispatch.world) <$> actionsOf c
      return { c.dispatch with world := s }) = Except.ok d' ↔
      ∃ c actions, (select = .ok c ∧ actionsOf c = .ok actions) ∧
        d' = { c.dispatch with world := runAll code framePtr actions c.dispatch.world } := by
  simp only [bind_ok, map_ok]
  constructor
  · rintro ⟨c, hselect, s, ⟨actions, hactions, rfl⟩, hd⟩
    exact ⟨c, actions, ⟨hselect, hactions⟩, (pure_ok.mp hd).symm⟩
  · rintro ⟨c, actions, ⟨hselect, hactions⟩, rfl⟩
    exact ⟨c, hselect, _, ⟨actions, hactions, rfl⟩, rfl⟩

theorem executeHandler_function {env : Env} {frames : List Frame} {f : FunctionFrame}
    {d d' : Dispatch}
    (hdata : f.ehData ≠ .none) : executeHandler env frames (.function f) d = .ok d' ↔
      ∃ c actions, Selects env frames f d c actions ∧
        d' = { c.dispatch with world := runAll env.code f.framePtr actions c.dispatch.world } := by
  cases hf : f.ehData with
  | none => exact absurd hf hdata
  | fh3 ehInfo =>
    simp only [executeHandler, Selects, hf, Fh3.frameHandler, Fh3.cleanupFrom_descend]
    exact select_cleanup
  | fh4 funcInfo =>
    simp only [executeHandler, Selects, hf, Fh4.frameHandler, Fh4.cleanup_cleanupActions]
    exact select_cleanup

end Vcrtl.X64.Dispatch

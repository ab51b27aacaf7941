import Vcrtl.X64.UnwindStates

namespace Vcrtl.X64.Resumption

open Lib.Descent BugCheck EhStructs Throw CatchFrame CatchVariable Cleanup DispatcherContext
  Dispatch UnwindStates

def Catches (env : Env) (frames : List Frame) (f : FunctionFrame) (d d' : Dispatch) (tryLow : Int) :
    Prop :=
  executeHandler env frames (.function f) d = .ok d' ∧
    match f.ehData with
    | .none => False
    | .fh3 ehInfo => ∃ entry r t h,
        Fh3.enter env.imageBase f ehInfo d.catchInfo d.world.mem = .ok entry ∧
        Fh3.search env frames ehInfo entry d = .ok r ∧ r.found = some (t, h) ∧ t.tryLow = tryLow
    | .fh4 funcInfo => ∃ primaryFramePtr state r t,
        Fh4.enter env f (Fh4.ehInfoOf env f funcInfo) d.catchInfo d.world.mem =
          .ok (primaryFramePtr, state) ∧
        Fh4.search env frames f (Fh4.ehInfoOf env f funcInfo) primaryFramePtr state d = .ok r ∧
        r.found = some t ∧ (t.toNat : Int) = tryLow

def handlerState (env : Env) (f : FunctionFrame) (d : Dispatch) : Exec Int :=
  match f.ehData with
  | .none => .ok (-1)
  | .fh3 ehInfo => Prod.fst <$> Fh3.frameState env.imageBase f ehInfo d.catchInfo
  | .fh4 funcInfo =>
    Prod.snd <$> Fh4.enter env f (Fh4.ehInfoOf env f funcInfo) d.catchInfo d.world.mem

/-- A frame goes on from the state around a try block, and cleans up nothing but that
state and those around it. -/
def ResumesAround (env : Env) (frames : List Frame) (f : FunctionFrame) (d : Dispatch)
    (g : UnwindGraph) (tryLow : Int) : Prop :=
  handlerState env f d = .ok (g.next tryLow.toNat) ∧
    ∀ c actions, Selects env frames f d c actions →
      actions.Sublist ((chain g.forest (g.next tryLow.toNat)).filterMap g.action)

variable {env : Env} {frames : List Frame} {f : FunctionFrame} {d d' : Dispatch} {g : UnwindGraph}
  {tryLow : Int}

theorem handlerState_resumed (hdata : f.ehData ≠ .none)
    (h : f.framePtr ≤ d.catchInfo.primaryFramePtr) :
    handlerState env f d = .ok (contextState d.catchInfo.unwindContext) := by
  cases hf : f.ehData with
  | none => exact absurd hf hdata
  | fh3 ehInfo =>
    simp only [handlerState, hf, Fh3.frameState]
    rw [if_neg (BitVec.not_lt.mpr h)]
    rfl
  | fh4 funcInfo =>
    simp only [handlerState, hf, Fh4.enter]
    rw [if_pos h]
    rfl

theorem saved_state (htable : UnwindTable env f g) (h : Catches env frames f d d' tryLow) :
    0 ≤ tryLow ∧ contextState d'.catchInfo.unwindContext = tryLow - 1 := by
  obtain ⟨hexecute, hcatch⟩ := h
  cases hf : f.ehData with
  | none => simp only [UnwindTable, hf] at htable
  | fh3 ehInfo =>
    simp only [UnwindTable, hf] at htable hcatch
    obtain ⟨-, hlen, hbounds⟩ := htable
    obtain ⟨entry, r, t, handler, henter, hsearch, hfound, rfl⟩ := hcatch
    have hdata : f.ehData ≠ .none := hf ▸ EhData.noConfusion
    obtain ⟨c, actions, hselects, rfl⟩ := (executeHandler_function hdata).mp hexecute
    simp only [Selects, hf] at hselects
    obtain ⟨entry', r', henter', hsearch', -, -, rfl⟩ := Fh3.select_ok.mp hselects.1
    obtain rfl := Except.ok.inj (henter.symm.trans henter')
    obtain rfl := Except.ok.inj (hsearch.symm.trans hsearch')
    obtain ⟨hlow, hhigh⟩ := hbounds t (Fh3.search_found hsearch hfound)
    refine ⟨hlow, ?_⟩
    simp only [Fh3.Search.dispatch, hfound]
    exact contextState_set _ (by omega) (by omega)
  | fh4 funcInfo =>
    simp only [hf] at hcatch
    obtain ⟨primaryFramePtr, state, r, t, henter, hsearch, hfound, rfl⟩ := hcatch
    have hdata : f.ehData ≠ .none := hf ▸ EhData.noConfusion
    obtain ⟨c, actions, hselects, rfl⟩ := (executeHandler_function hdata).mp hexecute
    simp only [Selects, hf] at hselects
    obtain ⟨primaryFramePtr', state', r', henter', hsearch', rfl⟩ := Fh4.select_ok.mp hselects.1
    cases henter.symm.trans henter'
    obtain rfl := Except.ok.inj (hsearch.symm.trans hsearch')
    obtain ⟨hcontext, hle⟩ := Fh4.search_found hsearch hfound
    have hlt := Fh4.enter_lt henter
    refine ⟨Int.natCast_nonneg _, ?_⟩
    rw [← Fh4.toInt_pred (by omega)]
    exact hcontext

theorem state_of_selects {c : Selection} {actions : List Action}
    (h : Selects env frames f d c actions) : handlerState env f d = .ok c.state := by
  cases hf : f.ehData with
  | none => simp only [Selects, hf] at h
  | fh3 ehInfo =>
    simp only [Selects, hf] at h
    obtain ⟨entry, r, henter, -, -, -, rfl⟩ := Fh3.select_ok.mp h.1
    obtain ⟨home, hframe⟩ := Fh3.enter_state henter
    simp only [handlerState, hf, hframe]
    rfl
  | fh4 funcInfo =>
    simp only [Selects, hf] at h
    obtain ⟨primaryFramePtr, state, r, henter, -, rfl⟩ := Fh4.select_ok.mp h.1
    simp only [handlerState, hf, henter]
    rfl

theorem leave_resumes {rest : List Frame} {framePtr : Ptr} {info : CatchInfo}
    (h : executeHandler env (.callCatch framePtr info :: rest) (.callCatch framePtr info) d =
      .ok d') :
    d'.catchInfo.primaryFramePtr = info.primaryFramePtr ∧
      d'.catchInfo.unwindContext = info.unwindContext := by
  simp only [executeHandler, bind_ok, pure_ok] at h
  obtain ⟨⟨disposition, ci, calls⟩, hcall, -, -, rfl⟩ := h
  exact callCatch_resumes hcall

/-- An exception that leaves the handler of a try block goes on from the state around
the block exactly if that is the one numbered just below it. -/
theorem resumes_around_iff {rest : List Frame} {f' : FunctionFrame} {d₁ d₂ d₃ : Dispatch}
    {framePtr : Ptr} {info : CatchInfo} (htable : UnwindTable env f g)
    (hcatch : Catches env frames f d d₁ tryLow)
    (hprimary : info.primaryFramePtr = d₁.catchInfo.primaryFramePtr)
    (hcontext : info.unwindContext = d₁.catchInfo.unwindContext)
    (hleave : executeHandler env (.callCatch framePtr info :: rest) (.callCatch framePtr info) d₂ =
      .ok d₃)
    (htable' : UnwindTable env f' g) (hframe : f'.framePtr ≤ d₁.catchInfo.primaryFramePtr) :
    ResumesAround env rest f' d₃ g tryLow ↔ g.next tryLow.toNat = tryLow - 1 := by
  obtain ⟨hlow, hsaved⟩ := saved_state htable hcatch
  obtain ⟨hleavePrimary, hleaveContext⟩ := leave_resumes hleave
  rw [← hprimary, ← hleavePrimary] at hframe
  have hstate : handlerState env f' d₃ = _ := handlerState_resumed (data_of_table htable') hframe
  rw [hleaveContext, hcontext, hsaved] at hstate
  constructor
  · intro h
    exact Except.ok.inj (h.1.symm.trans hstate)
  · intro hnext
    rw [← hnext] at hstate
    refine ⟨hstate, fun c actions hselects => ?_⟩
    have hc := Except.ok.inj (hstate.symm.trans (state_of_selects hselects))
    rw [hc]
    exact cleanup_sublist htable' hselects

def oneTry (outer : Int) : FunctionEhInfo where
  unwindGraph := [⟨-1, 0x30⟩, ⟨outer, 0⟩, ⟨outer, 0⟩]
  tryBlocks := [⟨1, 1, 2, [⟨EhFlags.CatchFlag.isEllipsis, 0, 0, 0x100, 0x20⟩]⟩]
  regions := [⟨0x10, -1⟩, ⟨0x18, 1⟩]
  ehFlags := 0

def nestedTry : UnwindGraph := ⟨Fh3.edges 0x400000 (oneTry 0).unwindGraph, by decide⟩

def siblingTry : UnwindGraph := ⟨Fh3.edges 0x400000 (oneTry (-1)).unwindGraph, by decide⟩

def tryFrame (outer : Int) : FunctionFrame := ⟨0x5000, 0x40001a, 0x10, .fh3 (oneTry outer)⟩

def savedInfo : CatchInfo := ⟨0, 0, 0x5000, 0x2000, some ⟨0, 0, []⟩, 0xffffffff00000000⟩

def thrown (primaryFramePtr : Ptr) (context : BitVec 64) : Dispatch :=
  ⟨⟨0, 0, primaryFramePtr, 0x2000, some ⟨0, 0, []⟩, context⟩, null, ⟨fun _ => 0, []⟩⟩

theorem resumes_around_nested : ResumesAround bareEnv [] (tryFrame 0)
    (thrown 0x5000 0xffffffff00000000) nestedTry 1 := by
  have htable : UnwindTable bareEnv (tryFrame 0) nestedTry := ⟨rfl, by decide, by decide⟩
  have hcatch : Catches bareEnv [] (tryFrame 0) (thrown 0 0)
      ⟨savedInfo, 0x400100, ⟨fun _ => 0, []⟩⟩ 1 := ⟨rfl, _, _, _, _, rfl, rfl, rfl, rfl⟩
  have hleave : executeHandler bareEnv [.callCatch 0x4000 savedInfo] (.callCatch 0x4000 savedInfo)
      (thrown 0 0) = .ok (thrown 0x5000 0xffffffff00000000) := rfl
  exact (resumes_around_iff htable hcatch rfl rfl hleave htable (by decide)).mpr rfl

/-- If the object was destroyed before the try block was entered, it is destroyed again. -/
theorem resumes_in_closed_scope : ∃ d₁ d₃ d₄,
    Catches bareEnv [] (tryFrame (-1)) (thrown 0 0) d₁ 1 ∧
    executeHandler bareEnv [.callCatch 0x4000 d₁.catchInfo] (.callCatch 0x4000 d₁.catchInfo)
      (thrown 0 0) = .ok d₃ ∧
    handlerState bareEnv (tryFrame (-1)) d₃ = .ok 0 ∧ siblingTry.next 1 = -1 ∧
    executeHandler bareEnv [] (.function (tryFrame (-1))) d₃ = .ok d₄ ∧
    d₄.world.trace = [.funclet 0x400030 0x5000] ∧
    ¬ ResumesAround bareEnv [] (tryFrame (-1)) d₃ siblingTry 1 := by
  refine ⟨_, _, _, ⟨rfl, _, _, _, _, rfl, rfl, rfl, rfl⟩, rfl, rfl, rfl, rfl, rfl, fun h => ?_⟩
  cases h.1

end Vcrtl.X64.Resumption

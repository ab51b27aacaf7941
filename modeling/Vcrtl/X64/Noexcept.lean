import Vcrtl.X64.Dispatch
import Vcrtl.X64.MapWalk

namespace Vcrtl.X64.Noexcept

open Lib.Memory BugCheck EhFlags EhStructs Throw CatchFrame CatchVariable Cleanup DispatcherContext
  Dispatch MapWalk

def IsNoexcept (env : Env) (f : FunctionFrame) : Prop :=
  match f.ehData with
  | .none => False
  | .fh3 ehInfo => hasAnyOf ehInfo.ehFlags EhFlag.isNoexcept = true
  | .fh4 funcInfo => hasAnyOf (Fh4.ehInfoOf env f funcInfo).flags Eh4Flag.isNoexcept = true

def FindsNone (env : Env) (frames : List Frame) (f : FunctionFrame) (d : Dispatch) : Prop :=
  match f.ehData with
  | .none => True
  | .fh3 ehInfo => ∃ entry r, Fh3.enter env.imageBase f ehInfo d.catchInfo d.world.mem = .ok entry ∧
      Fh3.search env frames ehInfo entry d = .ok r ∧ r.found = none
  | .fh4 funcInfo => ∃ primaryFramePtr state r,
      Fh4.enter env f (Fh4.ehInfoOf env f funcInfo) d.catchInfo d.world.mem =
        .ok (primaryFramePtr, state) ∧
      Fh4.search env frames f (Fh4.ehInfoOf env f funcInfo) primaryFramePtr state d = .ok r ∧
        r.found = none

def HasUnwindMap (env : Env) (f : FunctionFrame) (d : Dispatch) : Prop :=
  match f.ehData with
  | .none | .fh3 _ => True
  | .fh4 funcInfo => ∀ primaryFramePtr state,
      Fh4.enter env f (Fh4.ehInfoOf env f funcInfo) d.catchInfo d.world.mem =
        .ok (primaryFramePtr, state) →
      0 ≤ state → ∃ u : UnwindMap,
        u.At env.image (displace env.imageBase (Fh4.ehInfoOf env f funcInfo).unwindGraph) ∧
          state < u.entries.length

/-- Every walk that arrives at a frame stops the machine there, and none goes on to
the frame's caller. -/
def StopsWalks (env : Env) (frame : Frame) (rest : List Frame) (d' : Dispatch) : Prop :=
  ∀ frames d, Visits env frames d (frame :: rest) d' →
    dispatch env frames d = .error (.bugCheck .assertionFailure) ∧
      ∀ d'', ¬ Visits env (frame :: rest) d' rest d''

variable {env : Env} {frame : Frame} {rest : List Frame} {f : FunctionFrame} {d : Dispatch}

theorem visits_caller {d'' : Dispatch} (h : Visits env (frame :: rest) d rest d'') :
    ∃ d₁, executeHandler env (frame :: rest) frame d = .ok d₁ ∧ d₁.handler = null := by
  generalize hframes : frame :: rest = frames at h
  cases h with
  | here =>
    have hlen := congrArg List.length hframes
    simp at hlen
  | next hexecute hhandler hrest =>
    cases hframes
    exact ⟨_, hexecute, hhandler⟩

theorem stopsWalks_iff : StopsWalks env frame rest d ↔
    executeHandler env (frame :: rest) frame d = .error (.bugCheck .assertionFailure) := by
  constructor
  · intro h
    obtain ⟨hdispatch, hcaller⟩ := h _ d (.here _ _)
    rw [Dispatch.dispatch] at hdispatch
    cases hexecute : executeHandler env (frame :: rest) frame d with
    | error e =>
      rw [hexecute] at hdispatch
      exact hdispatch
    | ok d₁ =>
      by_cases hhandler : d₁.handler = null
      · exact absurd (.next hexecute hhandler (.here _ _)) (hcaller d₁)
      · rw [hexecute] at hdispatch
        simp only [bind, Except.bind] at hdispatch
        rw [if_pos hhandler] at hdispatch
        cases hdispatch
  · intro h frames d₀ hvisits
    constructor
    · rw [hvisits.dispatch, Dispatch.dispatch, h]
      rfl
    · intro d'' hrest
      obtain ⟨d₁, hexecute, -⟩ := visits_caller hrest
      rw [h] at hexecute
      cases hexecute

theorem descend_no_bugCheck (edges : List Edge) (target state : Int) (fuel : Nat)
    (reason : BugCheckReason) : descend edges target fuel state ≠ .error (.bugCheck reason) := by
  induction fuel generalizing state with
  | zero =>
    rw [descend]
    split <;> simp
  | succ fuel ih =>
    rw [descend]
    by_cases hdone : state ≤ target
    · rw [if_pos hdone]
      simp
    · rw [if_neg hdone]
      intro h
      obtain h | ⟨edge, -, h⟩ := bind_error.mp h
      · exact Algorithm.elementAt_no_bugCheck _ _ _ h
      · obtain h | ⟨rest, -, h⟩ := bind_error.mp h
        · exact ih _ h
        · cases h

theorem fh3_stops_iff {frames : List Frame} {ehInfo : FunctionEhInfo} {entry : Fh3.Entry}
    {r : Fh3.Search} (hflag : hasAnyOf ehInfo.ehFlags EhFlag.isNoexcept = true)
    (henter : Fh3.enter env.imageBase f ehInfo d.catchInfo d.world.mem = .ok entry)
    (hsearch : Fh3.search env frames ehInfo entry d = .ok r) (hfound : r.found = none) :
    Fh3.frameHandler env frames f ehInfo d = .error (.bugCheck .assertionFailure) ↔
      entry.homeBlockIndex = -1 := by
  constructor
  · intro h
    by_contra hhome
    have htarget : entry.funcletLowState ≤ r.targetState entry := by
      simp only [Fh3.Search.targetState, hfound, Int.le_refl]
    have hselect := Fh3.select_ok.mpr
      ⟨entry, r, henter, hsearch, fun h => hhome h.1, htarget, rfl⟩
    rw [Fh3.frameHandler, hselect] at h
    obtain h | ⟨c, -, h⟩ := bind_error.mp h
    · cases h
    · obtain h | ⟨s, -, h⟩ := bind_error.mp h
      · rw [Fh3.cleanupFrom_descend] at h
        exact descend_no_bugCheck _ _ _ _ _ (map_error.mp h)
      · cases h
  · intro hhome
    simp only [Fh3.frameHandler, Fh3.select, henter, hsearch, bind, Except.bind]
    rw [if_pos ⟨hhome, hfound, hflag⟩]
    rfl

/-- Without a match the FH4 handler cleans up, and that is all. -/
theorem fh4_continues {frames : List Frame} {funcInfo : Rva} {primaryFramePtr : Ptr} {state : Int}
    {r : Fh4.Search} (hmap : HasUnwindMap env f d) (hf : f.ehData = .fh4 funcInfo)
    (henter : Fh4.enter env f (Fh4.ehInfoOf env f funcInfo) d.catchInfo d.world.mem =
      .ok (primaryFramePtr, state))
    (hsearch : Fh4.search env frames f (Fh4.ehInfoOf env f funcInfo) primaryFramePtr state d =
      .ok r)
    (hfound : r.found = none) : ∃ d', executeHandler env frames (.function f) d = .ok d' := by
  have hselect := Fh4.select_ok.mpr ⟨_, _, r, henter, hsearch, rfl⟩
  have htarget : r.targetState = -1 := by simp only [Fh4.Search.targetState, hfound]
  have hactions : ∃ actions,
      Fh4.cleanupActions env (Fh4.ehInfoOf env f funcInfo).unwindGraph state (-1) =
      .ok actions := by
    by_cases hstate : state ≤ -1
    · exact ⟨[], if_pos hstate⟩
    · simp only [HasUnwindMap, hf] at hmap
      obtain ⟨u, hat, hlen⟩ := hmap _ _ henter (by omega)
      exact ⟨_, cleanupActions_at hat (Int.le_refl _) (by omega) hlen⟩
  obtain ⟨actions, hactions⟩ := hactions
  have hdata : f.ehData ≠ .none := by
    rw [hf]
    exact fun h => EhData.noConfusion h
  have hselects :
      Selects env frames f d ⟨r.dispatch, primaryFramePtr, state, r.targetState⟩ actions := by
    simp only [Selects, hf]
    exact ⟨hselect, htarget.symm ▸ hactions⟩
  exact ⟨_, (executeHandler_function hdata).mpr ⟨_, actions, hselects, rfl⟩⟩

/-- An exception that a `noexcept` function has no handler for is stopped at the
primary frame exactly if the function has the tables of FH3, and none of its handlers
claims the code of that frame. -/
theorem noexcept_enforced_iff (hnoexcept : IsNoexcept env f)
    (hprimary : d.catchInfo.primaryFramePtr ≤ f.framePtr)
    (hmap : HasUnwindMap env f d) (hnone : FindsNone env (.function f :: rest) f d) :
    StopsWalks env (.function f) rest d ↔ ∃ ehInfo, f.ehData = .fh3 ehInfo ∧
      (d.catchInfo.primaryFramePtr = f.framePtr ∨ Fh3.OutsideHandlers env.imageBase f ehInfo) := by
  rw [stopsWalks_iff]
  cases hf : f.ehData with
  | none => simp only [IsNoexcept, hf] at hnoexcept
  | fh3 ehInfo =>
    simp only [IsNoexcept, FindsNone, hf] at hnoexcept hnone
    obtain ⟨entry, r, henter, hsearch, hfound⟩ := hnone
    simp only [executeHandler, hf, EhData.fh3.injEq, exists_eq_left']
    rw [fh3_stops_iff hnoexcept henter hsearch hfound, Fh3.enter_home_iff hprimary henter]
  | fh4 funcInfo =>
    simp only [FindsNone, hf] at hnone
    obtain ⟨primaryFramePtr, state, r, henter, hsearch, hfound⟩ := hnone
    obtain ⟨d', hexecute⟩ := fh4_continues hmap hf henter hsearch hfound
    simp [hexecute]

def noexceptEnv : Env := ⟨fun _ m => m, 0x400000, write (fun _ => 0) 0x400100 [0x40], fun _ => none⟩

def entered : Dispatch := ⟨⟨0, 0, 0, 0x2000, some ⟨0, 0, []⟩, 0⟩, null, ⟨fun _ => 0, []⟩⟩

def frameOf (ehData : EhData) : FunctionFrame := ⟨0x5000, 0x400018, 0x10, ehData⟩

def liveLocal : FunctionEhInfo := ⟨[⟨-1, 0x30⟩], [], [⟨0x10, 0⟩], 0x4⟩

theorem noexcept_enforced_fh3 :
    StopsWalks noexceptEnv (.function (frameOf (.fh3 liveLocal))) [] entered := by
  have hnoexcept : IsNoexcept noexceptEnv (frameOf (.fh3 liveLocal)) := rfl
  have hnone : FindsNone noexceptEnv [.function (frameOf (.fh3 liveLocal))]
      (frameOf (.fh3 liveLocal)) entered := ⟨_, _, rfl, rfl, rfl⟩
  exact (noexcept_enforced_iff hnoexcept (by decide) trivial hnone).mpr
    ⟨_, rfl, .inr fun _ _ _ _ t ht => (nomatch ht)⟩

/-- Through a `noexcept` function with the tables of FH4 an exception reaches the caller. -/
theorem noexcept_ignored_fh4 : ∃ d, IsNoexcept noexceptEnv (frameOf (.fh4 0x100)) ∧
    FindsNone noexceptEnv [.function (frameOf (.fh4 0x100)), .seh] (frameOf (.fh4 0x100)) entered ∧
    Visits noexceptEnv [.function (frameOf (.fh4 0x100)), .seh] entered [.seh] d := by
  refine ⟨entered, rfl, ⟨_, _, _, rfl, rfl, rfl⟩, ?_⟩
  exact .next rfl rfl (.here _ _)

end Vcrtl.X64.Noexcept

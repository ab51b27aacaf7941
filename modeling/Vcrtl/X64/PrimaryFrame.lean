import Vcrtl.X64.FuncletSearch
import Vcrtl.X64.UnwindStates

namespace Vcrtl.X64.PrimaryFrame

open Lib.Memory BugCheck EhFlags EhStructs Throw CatchFrame CatchVariable Cleanup DispatcherContext
  Dispatch UnwindStates FuncletSearch

/-- The handler whose funclet runs in a state, if one does: it begins where the funclet does,
and is one of the innermost block whose handlers contain the state. -/
def runningHandler (ehInfo : FunctionEhInfo) (state : Int) (fnBegin : Rva) : Option CatchHandler :=
  (ehInfo.tryBlocks.reverse.find? fun t => Fh3.InCatchRange state t).bind fun t =>
    t.catchHandlers.find? fun h => h.handler == fnBegin

/-- The primary frame pointer that is recorded for a function's frame. A frame in which a catch
was left has it in the catch info; a catch funclet has it in its frame, in the node of its
handler or in the slot that its header names. Any other frame is the primary one. -/
def recordedPrimary (env : Env) (f : FunctionFrame) (d : Dispatch) : Exec Ptr :=
  if f.framePtr ≤ d.catchInfo.primaryFramePtr then
    .ok d.catchInfo.primaryFramePtr
  else
    match f.ehData with
    | .none => .ok f.framePtr
    | .fh3 ehInfo => do
      let pc ← makeRva f.rip env.imageBase
      let state ← Fh3.lookupRegion ehInfo.regions pc
      match runningHandler ehInfo state f.fnBegin with
      | some h => return readWord d.world.mem (displace f.framePtr h.nodeOffset)
      | none => return f.framePtr
    | .fh4 funcInfo =>
      let ehInfo := Fh4.ehInfoOf env f funcInfo
      if hasAnyOf ehInfo.flags Eh4Flag.isCatchFunclet then
        .ok (readWord d.world.mem (displace f.framePtr ehInfo.primaryFramePtr))
      else
        .ok f.framePtr

variable {env : Env} {frames : List Frame} {f : FunctionFrame} {d d' : Dispatch} {c : Selection}
  {actions : List Action} {g : UnwindGraph}

theorem find_home {tryBlocks : List TryBlock} {state home : Int} {block : Option TryBlock}
    (h : HomeOf tryBlocks state home block) :
    (tryBlocks.reverse.find? fun t => Fh3.InCatchRange state t) = block := by
  cases h with
  | none hnone =>
    rw [List.find?_eq_none]
    intro t ht
    simpa using hnone t (List.mem_reverse.mp ht)
  | block hsplit hrange hafter =>
    rename_i before t after
    have hskip : (after.reverse.find? fun t => Fh3.InCatchRange state t) = none := by
      rw [List.find?_eq_none]
      intro u hu
      simpa using hafter u (List.mem_reverse.mp hu)
    rw [hsplit, List.reverse_append, List.reverse_cons, List.append_assoc, List.find?_append, hskip,
      List.singleton_append, List.find?_cons_of_pos (by simpa using hrange)]
    rfl

theorem enter_resumed {imageBase : Ptr} {ehInfo : FunctionEhInfo} {ci : CatchInfo} {m : Mem 64}
    {entry : Fh3.Entry} (hresumed : ¬ ci.primaryFramePtr < f.framePtr)
    (h : Fh3.enter imageBase f ehInfo ci m = .ok entry) :
    entry.primaryFramePtr = ci.primaryFramePtr := by
  simp only [Fh3.enter, bind_ok] at h
  obtain ⟨⟨state, home⟩, -, h⟩ := h
  split at h
  · cases h
    rfl
  · simp only [bind_ok, pure_ok] at h
    obtain ⟨⟨home', block⟩, -, primaryFramePtr, hprimary, rfl⟩ := h
    have hsame : primaryFramePtr = ci.primaryFramePtr := by
      cases block with
      | none => exact (Except.ok.inj hprimary).symm
      | some t =>
        simp only [Fh3.findPrimaryFramePtr, if_neg hresumed] at hprimary
        exact (Except.ok.inj hprimary).symm
    subst hsame
    exact if_neg hresumed

theorem enter_own {imageBase : Ptr} {ehInfo : FunctionEhInfo} {ci : CatchInfo} {m : Mem 64}
    {entry : Fh3.Entry} (hlt : ci.primaryFramePtr < f.framePtr)
    (h : Fh3.enter imageBase f ehInfo ci m = .ok entry) :
    ∃ pc, makeRva f.rip imageBase = .ok pc ∧
      Fh3.lookupRegion ehInfo.regions pc = .ok entry.state ∧
      entry.primaryFramePtr =
        match runningHandler ehInfo entry.state f.fnBegin with
        | some h => readWord m (displace f.framePtr h.nodeOffset)
        | none => f.framePtr := by
  have hne : ci.primaryFramePtr ≠ f.framePtr := BitVec.ne_of_lt hlt
  obtain ⟨home, block, hfind, hhome⟩ := findHomeBlock_home ehInfo.tryBlocks entry.state
  simp only [Fh3.enter, Fh3.frameState, if_pos hlt, if_neg hne, bind_ok, pure_ok] at h
  obtain ⟨-, ⟨pc, hpc, state, hstate, rfl⟩, ⟨home', block'⟩, hfind', primary, hprimary, rfl⟩ := h
  have hfuel : ((ehInfo.tryBlocks.length : Int) - 1 + 1).toNat = ehInfo.tryBlocks.length := by
    omega
  rw [hfuel] at hfind'
  obtain ⟨rfl, rfl⟩ := Prod.mk.inj (Except.ok.inj (hfind.symm.trans hfind'))
  refine ⟨pc, hpc, hstate, ?_⟩
  simp only [runningHandler, find_home hhome]
  cases block with
  | none =>
    cases hprimary
    exact if_pos hlt
  | some t =>
    simp only [Fh3.findPrimaryFramePtr, if_pos hlt] at hprimary
    simp only [Option.bind_some]
    cases hhandler : t.catchHandlers.find? fun h => h.handler == f.fnBegin with
    | none =>
      simp only [hhandler] at hprimary
      cases hprimary
      exact if_pos hlt
    | some handler =>
      simp only [hhandler, bind_ok, pure_ok, verify_ok] at hprimary
      obtain ⟨-, hverify, rfl⟩ := hprimary
      exact if_neg (BitVec.not_lt.mpr hverify)

theorem enter_recorded {ehInfo : FunctionEhInfo} {entry : Fh3.Entry} (hf : f.ehData = .fh3 ehInfo)
    (h : Fh3.enter env.imageBase f ehInfo d.catchInfo d.world.mem = .ok entry) :
    recordedPrimary env f d = .ok entry.primaryFramePtr := by
  rw [recordedPrimary, hf]
  by_cases hresumed : f.framePtr ≤ d.catchInfo.primaryFramePtr
  · rw [if_pos hresumed, enter_resumed (BitVec.not_lt.mpr hresumed) h]
  · obtain ⟨pc, hpc, hstate, hprimary⟩ := enter_own (BitVec.not_le.mp hresumed) h
    rw [if_neg hresumed, hprimary]
    simp only [hpc, hstate, bind, Except.bind]
    cases runningHandler ehInfo entry.state f.fnBegin <;> rfl

theorem fh4_enter_recorded {funcInfo : Rva} {primaryFramePtr : Ptr} {state : Int}
    (hf : f.ehData = .fh4 funcInfo)
    (h : Fh4.enter env f (Fh4.ehInfoOf env f funcInfo) d.catchInfo d.world.mem =
      .ok (primaryFramePtr, state)) : recordedPrimary env f d = .ok primaryFramePtr := by
  simp only [recordedPrimary, hf]
  rw [Fh4.enter] at h
  split at h
  · rename_i hresumed
    rw [if_pos hresumed, (Prod.mk.inj (Except.ok.inj h)).1]
  · rename_i hresumed
    obtain ⟨state', -, h⟩ := bind_ok.mp h
    rw [if_neg hresumed]
    split at h
    · rename_i hfunclet
      rw [if_pos hfunclet, (Prod.mk.inj (pure_ok.mp h)).1]
    · rename_i hfunclet
      rw [if_neg hfunclet, (Prod.mk.inj (pure_ok.mp h)).1]

theorem recordedPrimary_of_selects (h : Selects env frames f d c actions) :
    recordedPrimary env f d = .ok c.primaryFramePtr := by
  cases hf : f.ehData with
  | none => simp only [Selects, hf] at h
  | fh3 ehInfo =>
    simp only [Selects, hf] at h
    obtain ⟨entry, r, henter, -, -, -, rfl⟩ := Fh3.select_ok.mp h.1
    exact enter_recorded hf henter
  | fh4 funcInfo =>
    simp only [Selects, hf] at h
    obtain ⟨primaryFramePtr, state, r, henter, -, rfl⟩ := Fh4.select_ok.mp h.1
    exact fh4_enter_recorded hf henter

theorem addresses_eq_iff {p q : Ptr} :
    actions.map (fun a => some (a.address p)) = actions.map (fun a => some (a.address q)) ↔
      p = q ∨ actions = [] := by
  constructor
  · intro h
    cases actions with
    | nil => exact .inr rfl
    | cons a as => exact .inl (address_inj (Option.some.inj (List.cons.inj h).1))
  · rintro (rfl | rfl)
    · rfl
    · rfl

/-- Whatever a function's handler cleans up is addressed in the function's primary
frame exactly if that is the frame it is called for, or the table has nothing to do in the
states that are left. -/
theorem cleanup_on_primary_iff (htable : UnwindTable env f g)
    (h : executeHandler env frames (.function f) d = .ok d') :
    ∃ primary c actions, recordedPrimary env f d = .ok primary ∧ c.primaryFramePtr = primary ∧
      Selects env frames f d c actions ∧
      ((d'.world.trace.drop c.dispatch.world.trace.length).map cleanupAddress =
          actions.map (fun a => some (a.address primary)) ↔
        f.framePtr = primary ∨ NothingToDo f.ehData g c.targetState c.state) := by
  obtain ⟨c, actions, hselects, rfl⟩ := (executeHandler_function (data_of_table htable)).mp h
  refine ⟨_, c, actions, recordedPrimary_of_selects hselects, rfl, hselects, ?_⟩
  obtain ⟨effects, htrace, haddress⟩ := @trace_runAll env.code f.framePtr c.dispatch.world actions
  simp only [htrace, List.drop_left, haddress]
  rw [addresses_eq_iff, actions_eq_nil_iff htable hselects]

def localInHandler : FunctionEhInfo where
  unwindGraph := [⟨-1, 0x30⟩, ⟨0, 0⟩, ⟨0, 0⟩, ⟨2, 0x40⟩]
  tryBlocks := [⟨1, 1, 3, [⟨EhFlags.CatchFlag.isEllipsis, 0, 0, 0x100, 0x20⟩]⟩]
  regions := [⟨0x10, -1⟩, ⟨0x18, 0⟩, ⟨0x20, 1⟩, ⟨0x100, 3⟩]
  ehFlags := 0

def localGraph : UnwindGraph := ⟨Fh3.edges 0x400000 localInHandler.unwindGraph, by decide⟩

def thrown : Dispatch :=
  ⟨⟨0, 0, 0, 0x2000, some ⟨0, 0, []⟩, 0⟩, null, ⟨write (fun _ => 0) 0x4020 [0, 0x50], []⟩⟩

theorem cleanup_on_primary_frame : ∃ primary c actions,
    recordedPrimary bareEnv ⟨0x5000, 0x40001a, 0x10, .fh3 localInHandler⟩ thrown = .ok primary ∧
    c.primaryFramePtr = primary ∧
    Selects bareEnv [] ⟨0x5000, 0x40001a, 0x10, .fh3 localInHandler⟩ thrown c actions ∧
    ((([.funclet 0x400030 0x5000] : List (Effect 64)).drop c.dispatch.world.trace.length).map
      cleanupAddress =
        actions.map (fun a => some (a.address primary)) ↔
      0x5000 = primary ∨ NothingToDo (.fh3 localInHandler) localGraph c.targetState c.state) := by
  have htable :
      UnwindTable bareEnv ⟨0x5000, 0x40001a, 0x10, .fh3 localInHandler⟩ localGraph :=
    ⟨rfl, by decide, by decide⟩
  have h :
      executeHandler bareEnv [] (.function ⟨0x5000, 0x40001a, 0x10, .fh3 localInHandler⟩) thrown =
      .ok ⟨thrown.catchInfo, null, ⟨thrown.world.mem, [.funclet 0x400030 0x5000]⟩⟩ := rfl
  exact cleanup_on_primary_iff htable h

/-- The object in the handler is looked for in the handler's own frame. -/
theorem cleanup_in_funclet_frame : ∃ d',
    UnwindTable bareEnv ⟨0x4000, 0x400110, 0x100, .fh3 localInHandler⟩ localGraph ∧
    recordedPrimary bareEnv ⟨0x4000, 0x400110, 0x100, .fh3 localInHandler⟩ thrown = .ok 0x5000 ∧
    executeHandler bareEnv [] (.function ⟨0x4000, 0x400110, 0x100, .fh3 localInHandler⟩) thrown =
      .ok d' ∧ d'.world.trace = [.funclet 0x400040 0x4000] := by
  exact ⟨_, ⟨rfl, by decide, by decide⟩, rfl, rfl, rfl⟩

end Vcrtl.X64.PrimaryFrame

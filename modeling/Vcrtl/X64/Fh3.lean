import Vcrtl.X64.CatchBlock
import Vcrtl.X64.Cleanup
import Vcrtl.X64.DispatcherContext

namespace Vcrtl.X64.Fh3

open Lib.Memory BugCheck EhFlags EhStructs Throw CatchFrame CatchVariable CatchBlock Cleanup
  DispatcherContext

/-- The state of the last region that starts at or before an address, if it is
not before the second one. -/
def stateFrom (state : Int) (pc : Rva) : List EhRegion → Int
  | [] => state
  | r :: rest => if pc < r.firstIp then state else stateFrom r.state pc rest

/-- The state of the frame's code. A function without regions has no last one to read. -/
def lookupRegion (regions : List EhRegion) (pc : Rva) : Exec Int :=
  match regions with
  | [] => .error .fault
  | r :: rest => .ok (stateFrom r.state pc rest)

/-- The catch ranges do not contain their handlers' try block. -/
def InCatchRange (state : Int) (t : TryBlock) : Prop := t.tryHigh < state ∧ state ≤ t.catchHigh

instance (state : Int) (t : TryBlock) : Decidable (InCatchRange state t) :=
  inferInstanceAs (Decidable (_ ∧ _))

/-- The scan down for the last try block, from the home block on, whose handlers
contain the state. -/
def findHomeBlock (tryBlocks : List TryBlock) (state : Int) :
    Nat → Int → Exec (Int × Option TryBlock)
  | 0, home => .ok (home, none)
  | fuel + 1, home =>
    if home > -1 then do
      let t ← Algorithm.elementAt tryBlocks home
      if InCatchRange state t then
        return (home, some t)
      else
        findHomeBlock tryBlocks state fuel (home - 1)
    else
      .ok (home, none)

theorem findHomeBlock_none {tryBlocks : List TryBlock} {state : Int} {n : Nat} {home : Int}
    {block : Option TryBlock} (hn : n ≤ tryBlocks.length)
    (h : findHomeBlock tryBlocks state n (n - 1) = .ok (home, block)) :
    home = -1 ↔ ∀ t ∈ tryBlocks.take n, ¬ InCatchRange state t := by
  induction n with
  | zero =>
    rw [findHomeBlock] at h
    cases h
    simp
  | succ n ih =>
    have hcast : ((n + 1 : Nat) : Int) - 1 = n := by omega
    rw [findHomeBlock, hcast, if_pos (by omega), Algorithm.elementAt_natCast (by omega)] at h
    rw [List.take_succ_eq_append_getElem (by omega)]
    simp only [bind, Except.bind] at h
    by_cases hrange : InCatchRange state tryBlocks[n]
    · rw [if_pos hrange] at h
      cases h
      constructor
      · intro hhome
        omega
      · exact fun hall => absurd hrange
          (hall _ (List.mem_append_right _ (List.mem_singleton_self _)))
    · rw [if_neg hrange] at h
      rw [ih (by omega) h]
      constructor
      · intro hall t ht
        obtain ht | ht := List.mem_append.mp ht
        · exact hall t ht
        · rwa [List.mem_singleton.mp ht]
      · exact fun hall t ht => hall t (List.mem_append_left _ ht)

theorem findHomeBlock_mem {tryBlocks : List TryBlock} {state home home' : Int} {fuel : Nat}
    {t : TryBlock}
    (h : findHomeBlock tryBlocks state fuel home = .ok (home', some t)) : t ∈ tryBlocks := by
  induction fuel generalizing home with
  | zero => cases h
  | succ fuel ih =>
    rw [findHomeBlock] at h
    split at h
    · obtain ⟨t', ht', h⟩ := bind_ok.mp h
      split at h
      · cases h
        exact Algorithm.mem_of_elementAt ht'
      · exact ih h
    · cases h

/-- The primary frame pointer of the funclet that runs in a frame. A catch funclet's
is in the node that its handler names. -/
def findPrimaryFramePtr (f : FunctionFrame) (m : Mem 64) (homeBlock : Option TryBlock)
    (primaryFramePtr : Ptr) : Exec Ptr :=
  match homeBlock with
  | none => .ok primaryFramePtr
  | some t =>
    if primaryFramePtr < f.framePtr then
      match t.catchHandlers.find? fun h => h.handler == f.fnBegin with
      | none => .ok primaryFramePtr
      | some h => do
        let primaryFramePtr := readWord m (displace f.framePtr h.nodeOffset)
        verify (f.framePtr ≤ primaryFramePtr)
        return primaryFramePtr
    else
      .ok primaryFramePtr

/-- The state of a frame, and the block from which to look for the home block: those
of the frame's code, or those that are left of a catch in the same function. -/
def frameState (imageBase : Ptr) (f : FunctionFrame) (ehInfo : FunctionEhInfo) (ci : CatchInfo) :
    Exec (Int × Int) :=
  if ci.primaryFramePtr < f.framePtr then do
    let pc ← makeRva f.rip imageBase
    let state ← lookupRegion ehInfo.regions pc
    return (state, (ehInfo.tryBlocks.length : Int) - 1)
  else
    .ok (contextState ci.unwindContext, contextHomeBlockIndex ci.unwindContext)

structure Entry where
  primaryFramePtr : Ptr
  state : Int
  homeBlockIndex : Int
  funcletLowState : Int

def enter (imageBase : Ptr) (f : FunctionFrame) (ehInfo : FunctionEhInfo) (ci : CatchInfo)
    (m : Mem 64) : Exec Entry := do
  let (state, home) ← frameState imageBase f ehInfo ci
  if ci.primaryFramePtr = f.framePtr then
    return ⟨ci.primaryFramePtr, state, -1, -1⟩
  else do
    let (home, block) ← findHomeBlock ehInfo.tryBlocks state (home + 1).toNat home
    let primaryFramePtr ← findPrimaryFramePtr f m block ci.primaryFramePtr
    let primaryFramePtr := if primaryFramePtr < f.framePtr then f.framePtr else primaryFramePtr
    return ⟨primaryFramePtr, state, home, (block.map TryBlock.tryLow).getD (-1)⟩

theorem enter_state {imageBase : Ptr} {f : FunctionFrame} {ehInfo : FunctionEhInfo} {ci : CatchInfo}
    {m : Mem 64} {entry : Entry} (h : enter imageBase f ehInfo ci m = .ok entry) :
    ∃ home, frameState imageBase f ehInfo ci = .ok (entry.state, home) := by
  simp only [enter, bind_ok] at h
  obtain ⟨⟨state, home⟩, hstate, h⟩ := h
  refine ⟨home, ?_⟩
  split at h
  · cases h
    exact hstate
  · simp only [bind_ok] at h
    obtain ⟨⟨home', block⟩, -, primaryFramePtr, -, h⟩ := h
    cases h
    exact hstate

theorem enter_low {imageBase : Ptr} {f : FunctionFrame} {ehInfo : FunctionEhInfo} {ci : CatchInfo}
    {m : Mem 64} {entry : Entry} (h : enter imageBase f ehInfo ci m = .ok entry) :
    entry.funcletLowState = -1 ∨ ∃ t ∈ ehInfo.tryBlocks, entry.funcletLowState = t.tryLow := by
  simp only [enter, bind_ok] at h
  obtain ⟨⟨state, home⟩, -, h⟩ := h
  split at h
  · cases h
    exact .inl rfl
  · simp only [bind_ok] at h
    obtain ⟨⟨home', block⟩, hfind, primaryFramePtr, -, h⟩ := h
    cases h
    cases block with
    | none => exact .inl rfl
    | some t => exact .inr ⟨t, findHomeBlock_mem hfind, rfl⟩

/-- No handler of the function contains the state in which the frame's code is. So it
is with the code of the primary funclet. -/
def OutsideHandlers (imageBase : Ptr) (f : FunctionFrame) (ehInfo : FunctionEhInfo) : Prop :=
  ∀ pc state, makeRva f.rip imageBase = .ok pc → lookupRegion ehInfo.regions pc = .ok state →
    ∀ t ∈ ehInfo.tryBlocks, ¬ InCatchRange state t

theorem enter_home_iff {imageBase : Ptr} {f : FunctionFrame} {ehInfo : FunctionEhInfo}
    {ci : CatchInfo} {m : Mem 64} {entry : Entry} (hprimary : ci.primaryFramePtr ≤ f.framePtr)
    (h : enter imageBase f ehInfo ci m = .ok entry) :
    entry.homeBlockIndex = -1 ↔
      ci.primaryFramePtr = f.framePtr ∨ OutsideHandlers imageBase f ehInfo := by
  by_cases heq : ci.primaryFramePtr = f.framePtr
  · simp only [enter, if_pos heq, bind_ok, pure_ok] at h
    obtain ⟨start, -, rfl⟩ := h
    exact ⟨fun _ => .inl heq, fun _ => rfl⟩
  · have hlt : ci.primaryFramePtr < f.framePtr := by
      have hne : ci.primaryFramePtr.toNat ≠ f.framePtr.toNat :=
        fun hnat => heq (BitVec.eq_of_toNat_eq hnat)
      have hle : ci.primaryFramePtr.toNat ≤ f.framePtr.toNat := hprimary
      exact BitVec.lt_def.mpr (by omega)
    simp only [enter, frameState, if_pos hlt, if_neg heq, bind_ok, pure_ok] at h
    obtain ⟨-, ⟨pc, hpc, state, hstate, rfl⟩, ⟨home, block⟩, hfind, primary, -, rfl⟩ := h
    have hfuel : ((ehInfo.tryBlocks.length : Int) - 1 + 1).toNat = ehInfo.tryBlocks.length := by
      omega
    rw [hfuel] at hfind
    rw [findHomeBlock_none (Nat.le_refl _) hfind, List.take_length]
    constructor
    · intro hnone
      right
      intro pc' state'' hpc' hstate'
      obtain rfl := Except.ok.inj (hpc.symm.trans hpc')
      obtain rfl := Except.ok.inj (hstate.symm.trans hstate')
      exact hnone
    · rintro (h | h)
      · exact absurd h heq
      · exact h pc state hpc hstate

section

variable (env : Env) (frames : List Frame)

def matchHandlers (primaryFramePtr : Ptr) (ci : CatchInfo) (throwInfo : Option ThrowInfo) :
    List CatchHandler → World 64 → Exec (Option CatchHandler × World 64)
  | [], s => .ok (none, s)
  | h :: hs, s => do
    let object ← ci.getExceptionObject env.infoAt
    let (found, s) ← processCatchBlock env.code env.imageBase h.adjectives
      (displace env.imageBase h.typeDesc) (displace primaryFramePtr h.catchObjectOffset) object
      throwInfo s
    if found then
      return (some h, s)
    else
      matchHandlers primaryFramePtr ci throwInfo hs s

structure Search where
  catchInfo : CatchInfo
  world : World 64
  found : Option (TryBlock × CatchHandler)

def matchTryBlocks (entry : Entry) :
    List TryBlock → CatchInfo → Option ThrowInfo → World 64 → Exec Search
  | [], ci, _, s => .ok ⟨ci, s, none⟩
  | t :: ts, ci, throwInfo, s =>
    if t.tryLow ≤ entry.state ∧ entry.state ≤ t.tryHigh ∧ ¬ t.tryLow < entry.funcletLowState then do
      let (ci, throwInfo) ← probeUnless env.infoAt frames throwInfo ci
      let (handler, s) ← matchHandlers env entry.primaryFramePtr ci throwInfo t.catchHandlers s
      match handler with
      | some h => return ⟨ci, s, some (t, h)⟩
      | none => matchTryBlocks entry ts ci throwInfo s
    else
      matchTryBlocks entry ts ci throwInfo s

/-- The search goes up from the block behind the home block. Below the first one
there is nothing to read. -/
def search (ehInfo : FunctionEhInfo) (entry : Entry) (d : Dispatch) : Exec Search := do
  let throwInfo ← d.catchInfo.getThrowInfo env.infoAt
  if entry.homeBlockIndex < -1 then
    .error .fault
  else
    matchTryBlocks env frames entry (ehInfo.tryBlocks.drop (entry.homeBlockIndex + 1).toNat)
      d.catchInfo throwInfo d.world

def Search.dispatch (imageBase : Ptr) (entry : Entry) (r : Search) (d : Dispatch) : Dispatch :=
  match r.found with
  | some (t, h) =>
    { catchInfo := { r.catchInfo with
        primaryFramePtr := entry.primaryFramePtr
        unwindContext := setContextState
          (setContextHomeBlockIndex r.catchInfo.unwindContext entry.homeBlockIndex) (t.tryLow - 1) }
      handler := displace imageBase h.handler
      world := r.world }
  | none => { d with catchInfo := r.catchInfo, world := r.world }

def Search.targetState (entry : Entry) (r : Search) : Int :=
  match r.found with
  | some (t, _) => t.tryLow - 1
  | none => entry.funcletLowState

def select (f : FunctionFrame) (ehInfo : FunctionEhInfo) (d : Dispatch) : Exec Selection := do
  let entry ← enter env.imageBase f ehInfo d.catchInfo d.world.mem
  let r ← search env frames ehInfo entry d
  if entry.homeBlockIndex = -1 ∧ r.found = none ∧ hasAnyOf ehInfo.ehFlags EhFlag.isNoexcept then
    verify False
  verify (entry.funcletLowState ≤ r.targetState entry)
  return ⟨r.dispatch env.imageBase entry d, entry.primaryFramePtr, entry.state, r.targetState entry⟩

variable {env frames} {f : FunctionFrame} {ehInfo : FunctionEhInfo} {d : Dispatch}

theorem matchTryBlocks_found {entry : Entry} {tryBlocks : List TryBlock} {ci : CatchInfo}
    {throwInfo : Option ThrowInfo} {s : World 64} {r : Search} {t : TryBlock} {h : CatchHandler}
    (hr : matchTryBlocks env frames entry tryBlocks ci throwInfo s = .ok r)
    (hfound : r.found = some (t, h)) : t ∈ tryBlocks := by
  induction tryBlocks generalizing ci throwInfo s with
  | nil =>
    cases hr
    cases hfound
  | cons t' ts ih =>
    rw [matchTryBlocks] at hr
    split at hr
    · simp only [bind_ok] at hr
      obtain ⟨⟨ci', throwInfo'⟩, -, ⟨handler, s'⟩, -, hr⟩ := hr
      cases handler with
      | none => exact List.mem_cons_of_mem _ (ih hr)
      | some h' =>
        cases hr
        cases hfound
        exact List.mem_cons_self
    · exact List.mem_cons_of_mem _ (ih hr)

theorem search_found {entry : Entry} {r : Search} {t : TryBlock} {h : CatchHandler}
    (hr : search env frames ehInfo entry d = .ok r) (hfound : r.found = some (t, h)) :
    t ∈ ehInfo.tryBlocks := by
  simp only [search, bind_ok] at hr
  obtain ⟨throwInfo, -, hr⟩ := hr
  split at hr
  · cases hr
  · exact List.mem_of_mem_drop (matchTryBlocks_found hr hfound)

theorem select_ok {c : Selection} : select env frames f ehInfo d = .ok c ↔ ∃ entry r,
    enter env.imageBase f ehInfo d.catchInfo d.world.mem = .ok entry ∧
    search env frames ehInfo entry d = .ok r ∧
    ¬ (entry.homeBlockIndex = -1 ∧ r.found = none ∧ hasAnyOf ehInfo.ehFlags EhFlag.isNoexcept) ∧
    entry.funcletLowState ≤ r.targetState entry ∧
    c = ⟨r.dispatch env.imageBase entry d, entry.primaryFramePtr, entry.state,
      r.targetState entry⟩ := by
  simp only [select, bind_ok, exists_and_left]
  refine exists_congr fun entry => and_congr_right fun _ => exists_congr fun r =>
    and_congr_right fun _ => ?_
  by_cases hnoexcept : entry.homeBlockIndex = -1 ∧ r.found = none ∧
      hasAnyOf ehInfo.ehFlags EhFlag.isNoexcept
  · rw [if_pos hnoexcept]
    simp [bind_ok, verify_ok, hnoexcept]
  · rw [if_neg hnoexcept]
    simp only [bind_ok, verify_ok, pure_ok, hnoexcept, not_false_eq_true, true_and, exists_const]
    exact and_congr_right fun _ => eq_comm

end

def UnwindGraphEdge.action (imageBase : Ptr) (edge : UnwindGraphEdge) : Option Action :=
  if edge.cleanupHandler ≠ 0 then some (.funclet (displace imageBase edge.cleanupHandler)) else none

/-- The cleanup loop. A longer walk than the graph has edges has met one of them twice. -/
def cleanupFrom (env : Env) (graph : List UnwindGraphEdge) (framePtr : Ptr) (targetState : Int) :
    Nat → Int → World 64 → Exec (World 64)
  | 0, state, s => if state ≤ targetState then .ok s else .error .hang
  | fuel + 1, state, s =>
    if state ≤ targetState then
      .ok s
    else do
      let edge ← Algorithm.elementAt graph state
      cleanupFrom env graph framePtr targetState fuel edge.next
        (runOption env.code framePtr (UnwindGraphEdge.action env.imageBase edge) s)

def frameHandler (env : Env) (frames : List Frame) (f : FunctionFrame) (ehInfo : FunctionEhInfo)
    (d : Dispatch) : Exec Dispatch := do
  let c ← select env frames f ehInfo d
  let s ← cleanupFrom env ehInfo.unwindGraph f.framePtr c.targetState ehInfo.unwindGraph.length
    c.state c.dispatch.world
  return { c.dispatch with world := s }

def edges (imageBase : Ptr) (graph : List UnwindGraphEdge) : List Edge :=
  graph.map fun e => ⟨e.next, UnwindGraphEdge.action imageBase e⟩

theorem cleanupFrom_descend (env : Env) (graph : List UnwindGraphEdge) (framePtr : Ptr)
    (target : Int)
    (fuel : Nat) (state : Int) (s : World 64) : cleanupFrom env graph framePtr target fuel state s =
      (fun as => runAll env.code framePtr as s) <$>
        descend (edges env.imageBase graph) target fuel state := by
  induction fuel generalizing state s with
  | zero =>
    rw [cleanupFrom, descend]
    split <;> rfl
  | succ fuel ih =>
    rw [cleanupFrom, descend]
    split
    · rfl
    · rw [edges, Algorithm.elementAt_map]
      cases Algorithm.elementAt graph state with
      | error e => rfl
      | ok edge =>
        have hrest := ih edge.next
          (runOption env.code framePtr (UnwindGraphEdge.action env.imageBase edge) s)
        simp only [bind, Except.bind, Functor.map, Except.map, edges] at hrest ⊢
        rw [hrest]
        cases descend _ target fuel edge.next with
        | error e => rfl
        | ok rest => simp only [pure, Except.pure, runAll_toList_append]

end Vcrtl.X64.Fh3

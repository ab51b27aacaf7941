import Vcrtl.X64.CatchBlock
import Vcrtl.X64.Cleanup
import Vcrtl.X64.Compressed
import Vcrtl.X64.DispatcherContext

namespace Vcrtl.X64.Fh4

open Lib.Memory BugCheck EhFlags EhStructs Throw CatchFrame CatchVariable CatchBlock Cleanup
  Compressed DispatcherContext

/-- `fh4_info`, the decoded header of a function. A table that is not there is 0. -/
structure EhInfo where
  flags : Byte
  bbtFlags : BitVec 32
  unwindGraph : Rva
  tryBlocks : Rva
  regions : Rva
  primaryFramePtr : Rva
  deriving DecidableEq

section

variable (m : Mem 64) (imageBase : Ptr)

def findFunclet (fnBegin : Rva) : Nat → Ptr → Rva
  | 0, _ => 0
  | count + 1, p =>
    let (fn, p) := readRva m p
    let (regions, p) := readRva m p
    if fn = fnBegin then regions else findFunclet fnBegin count p

def loadEhInfo (fnBegin : Rva) (data : Ptr) : EhInfo :=
  let flags := m data
  let data := data + 1
  let (bbtFlags, data) := if hasAnyOf flags Eh4Flag.bbt then readUnsigned m data else (0, data)
  let (unwindGraph, data) :=
    if hasAnyOf flags Eh4Flag.hasUnwindMap then readRva m data else (0, data)
  let (tryBlocks, data) :=
    if hasAnyOf flags Eh4Flag.hasTryBlockMap then readRva m data else (0, data)
  let (regions, data) :=
    if hasAnyOf flags Eh4Flag.hasMultipleFunclets then
      let (funcletMap, data) := readRva m data
      let (count, p) := readUnsigned m (displace imageBase funcletMap)
      (findFunclet m fnBegin count.toNat p, data)
    else
      readRva m data
  let primaryFramePtr :=
    if hasAnyOf flags Eh4Flag.isCatchFunclet then (readUnsigned m data).1 else 0
  ⟨flags, bbtFlags, unwindGraph, tryBlocks, regions, primaryFramePtr⟩

/-- The state before the first region, by their distances, that starts behind an address. -/
def stateFrom (pc : Rva) : Nat → Ptr → Rva → Int → Int
  | 0, _, _, state => state
  | count + 1, p, fnRva, state =>
    let (distance, p) := readUnsigned m p
    let fnRva := fnRva + distance
    if pc < fnRva then
      state
    else
      let (next, p) := readUnsigned m p
      stateFrom pc count p fnRva (next - 1).toInt

def lookupRegion (ehInfo : EhInfo) (fn : Rva) (controlPc : Ptr) : Exec Int :=
  if ehInfo.regions = 0 then
    .ok (-1)
  else do
    let pc ← makeRva controlPc (displace imageBase fn)
    let (regionCount, p) := readUnsigned m (displace imageBase ehInfo.regions)
    return stateFrom m pc regionCount.toNat p 0 (-1)

structure CatchBlock where
  typeFlags : BitVec 32
  type : Rva
  catchVar : Rva
  handler : Rva
  continuationAddress : List Ptr

def readAddresses (read : Ptr → BitVec 32 × Ptr) (base : Ptr) : Nat → Ptr → List Ptr × Ptr
  | 0, q => ([], q)
  | count + 1, q =>
    let (offset, q) := read q
    let (rest, q) := readAddresses read base count q
    (displace base offset :: rest, q)

def readCatchBlock (fnBegin : Rva) (q : Ptr) : CatchBlock × Ptr :=
  let flags := m q
  let q := q + 1
  let (typeFlags, q) :=
    if hasAnyOf flags CatchBlockFlag.hasTypeFlags then readUnsigned m q else (0, q)
  let (type, q) := if hasAnyOf flags CatchBlockFlag.hasTypeInfo then readRva m q else (0, q)
  let count := ((flags &&& CatchBlockFlag.continuationAddrCount) >>> 4).toNat
  let (catchVar, q) :=
    if hasAnyOf flags CatchBlockFlag.hasCatchVar then readUnsigned m q else (0, q)
  let (handler, q) := readRva m q
  let (addresses, q) :=
    if hasAnyOf flags CatchBlockFlag.imageRva then readAddresses (readRva m) imageBase count q
    else readAddresses (readUnsigned m) (displace imageBase fnBegin) count q
  (⟨typeFlags, type, catchVar, handler, addresses⟩, q)

inductive UnwindEdgeType
  | trivial
  | objectOffset
  | objectPtrOffset
  | function
  deriving DecidableEq

def UnwindEdgeType.ofBits (bits : BitVec 2) : UnwindEdgeType :=
  match bits.toNat with
  | 0 => trivial
  | 1 => objectOffset
  | 2 => objectPtrOffset
  | _ => function

structure UnwindEdge where
  targetOffset : BitVec 32
  type : UnwindEdgeType
  destroyFn : Rva
  object : Rva

def UnwindEdge.read (p : Ptr) : UnwindEdge × Ptr :=
  let (targetOffsetAndType, p) := readUnsigned m p
  let type := UnwindEdgeType.ofBits (targetOffsetAndType.extractLsb' 0 2)
  let (destroyFn, p) := if type ≠ .trivial then readRva m p else (0, p)
  let (object, p) :=
    if type = .objectOffset ∨ type = .objectPtrOffset then readUnsigned m p else (0, p)
  (⟨targetOffsetAndType >>> 2, type, destroyFn, object⟩, p)

def UnwindEdge.action (edge : UnwindEdge) : Option Action :=
  match edge.type with
  | .trivial => none
  | .objectOffset => some (.object (displace imageBase edge.destroyFn) edge.object)
  | .objectPtrOffset => some (.objectPtr (displace imageBase edge.destroyFn) edge.object)
  | .function => some (.funclet (displace imageBase edge.destroyFn))

end

def setContinuationAddress (ci : CatchInfo) : List Ptr → Exec CatchInfo
  | [] => .ok ci
  | [a] => .ok { ci with continuationAddress0 := a }
  | [a, b] => .ok { ci with continuationAddress0 := a, continuationAddress1 := b }
  | _ => .error .fault

def enter (env : Env) (f : FunctionFrame) (ehInfo : EhInfo) (ci : CatchInfo) (m : Mem 64) :
    Exec (Ptr × Int) :=
  if f.framePtr ≤ ci.primaryFramePtr then
    .ok (ci.primaryFramePtr, contextState ci.unwindContext)
  else do
    let state ← lookupRegion env.image env.imageBase ehInfo f.fnBegin f.rip
    if hasAnyOf ehInfo.flags Eh4Flag.isCatchFunclet then
      return (readWord m (displace f.framePtr ehInfo.primaryFramePtr), state)
    else
      return (f.framePtr, state)

theorem stateFrom_lt {m : Mem 64} {pc fnRva : Rva} {count : Nat} {p : Ptr} {state : Int}
    (h : state < 2 ^ 31) : stateFrom m pc count p fnRva state < 2 ^ 31 := by
  induction count generalizing p fnRva state with
  | zero => exact h
  | succ count ih =>
    simp only [stateFrom]
    split
    · exact h
    · exact ih BitVec.toInt_lt

theorem enter_lt {env : Env} {f : FunctionFrame} {ehInfo : EhInfo} {ci : CatchInfo} {m : Mem 64}
    {primaryFramePtr : Ptr} {state : Int}
    (h : enter env f ehInfo ci m = .ok (primaryFramePtr, state)) : state < 2 ^ 31 := by
  rw [enter] at h
  split at h
  · cases h
    exact BitVec.toInt_lt
  · obtain ⟨state', hregion, h⟩ := bind_ok.mp h
    have hlt : state' < 2 ^ 31 := by
      rw [lookupRegion] at hregion
      split at hregion
      · cases hregion
        decide
      · obtain ⟨pc, -, hregion⟩ := bind_ok.mp hregion
        obtain rfl := pure_ok.mp hregion
        exact stateFrom_lt (by decide)
    split at h
    · exact (Prod.mk.inj (pure_ok.mp h)).2 ▸ hlt
    · exact (Prod.mk.inj (pure_ok.mp h)).2 ▸ hlt

theorem toInt_pred {t : BitVec 32} (h : t.toNat < 2 ^ 31) : (t - 1).toInt = t.toNat - 1 := by
  have hsub : (t - 1).toNat = (2 ^ 32 - 1 + t.toNat) % 2 ^ 32 := BitVec.toNat_sub t 1
  rw [BitVec.toInt_eq_toNat_cond, hsub]
  split <;> omega

section

variable (env : Env) (frames : List Frame) (f : FunctionFrame)

def matchHandlers (primaryFramePtr : Ptr) (throwInfo : Option ThrowInfo) (tryLow : BitVec 32) :
    Nat → Ptr → Dispatch → Exec (Dispatch × Bool)
  | 0, _, d => .ok (d, false)
  | count + 1, q, d => do
    let (block, q) := readCatchBlock env.image env.imageBase f.fnBegin q
    let ci ← setContinuationAddress d.catchInfo block.continuationAddress
    let object ← ci.getExceptionObject env.infoAt
    let (found, s) ← processCatchBlock env.code env.imageBase block.typeFlags
      (displace env.imageBase block.type) (displace primaryFramePtr block.catchVar) object
      throwInfo d.world
    if found then
      let ci := { ci with
        primaryFramePtr := primaryFramePtr
        unwindContext := setContextState ci.unwindContext (tryLow - 1).toInt }
      return (⟨ci, displace env.imageBase block.handler, s⟩, true)
    else
      matchHandlers primaryFramePtr throwInfo tryLow count q { d with catchInfo := ci, world := s }

/-- What a handler search has come to, with the lower end of the try block it selected. -/
structure Search where
  dispatch : Dispatch
  found : Option (BitVec 32)

def matchTryBlocks (primaryFramePtr : Ptr) (state : Int) :
    Nat → Ptr → Option ThrowInfo → Search → Exec Search
  | 0, _, _, r => .ok r
  | count + 1, p, throwInfo, r => do
    let (tryLow, p) := readUnsigned env.image p
    let (tryHigh, p) := readUnsigned env.image p
    let (_, p) := readUnsigned env.image p
    let (handlers, p) := readRva env.image p
    if tryLow.toNat > state.toNat ∨ state.toNat > tryHigh.toNat then
      matchTryBlocks primaryFramePtr state count p throwInfo r
    else
      let (ci, throwInfo) ← probeUnless env.infoAt frames throwInfo r.dispatch.catchInfo
      let (handlerCount, q) := readUnsigned env.image (displace env.imageBase handlers)
      let (d, found) ← matchHandlers env f primaryFramePtr throwInfo tryLow handlerCount.toNat q
        { r.dispatch with catchInfo := ci }
      let r := ⟨d, if found then some tryLow else r.found⟩
      if d.handler ≠ null then
        return r
      else
        matchTryBlocks primaryFramePtr state count p throwInfo r

def search (ehInfo : EhInfo) (primaryFramePtr : Ptr) (state : Int) (d : Dispatch) : Exec Search :=
  if ehInfo.tryBlocks ≠ 0 ∧ 0 ≤ state then do
    let throwInfo ← d.catchInfo.getThrowInfo env.infoAt
    let (count, p) := readUnsigned env.image (displace env.imageBase ehInfo.tryBlocks)
    matchTryBlocks env frames f primaryFramePtr state count.toNat p throwInfo ⟨d, none⟩
  else
    .ok ⟨d, none⟩

def Search.targetState (r : Search) : Int :=
  match r.found with
  | some tryLow => (tryLow - 1).toInt
  | none => -1

def select (ehInfo : EhInfo) (d : Dispatch) : Exec Selection := do
  let (primaryFramePtr, state) ← enter env f ehInfo d.catchInfo d.world.mem
  let r ← search env frames f ehInfo primaryFramePtr state d
  return ⟨r.dispatch, primaryFramePtr, state, r.targetState⟩

variable {env frames f} {ehInfo : EhInfo} {d : Dispatch}

theorem setContinuationAddress_context {ci ci' : CatchInfo} {addresses : List Ptr}
    (h : setContinuationAddress ci addresses = .ok ci') : ci'.unwindContext = ci.unwindContext := by
  rw [setContinuationAddress.eq_def] at h
  split at h
  · cases h
    rfl
  · cases h
    rfl
  · cases h
    rfl
  · cases h

theorem matchHandlers_context {primaryFramePtr q : Ptr} {throwInfo : Option ThrowInfo}
    {tryLow : BitVec 32} {count : Nat} {x : Dispatch × Bool}
    (h : matchHandlers env f primaryFramePtr throwInfo tryLow count q d = .ok x) :
    if x.2 then contextState x.1.catchInfo.unwindContext = (tryLow - 1).toInt
    else x.1.catchInfo.unwindContext = d.catchInfo.unwindContext := by
  induction count generalizing q d with
  | zero =>
    cases h
    rfl
  | succ count ih =>
    simp only [matchHandlers, bind_ok] at h
    obtain ⟨ci, hci, object, -, ⟨found, s⟩, -, h⟩ := h
    have hcontext := setContinuationAddress_context hci
    cases found with
    | true =>
      cases h
      exact contextState_set _ (BitVec.le_toInt _) BitVec.toInt_lt
    | false =>
      have hrest := ih h
      rwa [hcontext] at hrest

def Resumable (state : Int) (r : Search) : Prop :=
  ∀ tryLow, r.found = some tryLow →
    contextState r.dispatch.catchInfo.unwindContext = (tryLow - 1).toInt ∧
      tryLow.toNat ≤ state.toNat

theorem matchTryBlocks_resumable {primaryFramePtr p : Ptr} {state : Int}
    {throwInfo : Option ThrowInfo} {count : Nat} {r r' : Search} (hr : Resumable state r)
    (h : matchTryBlocks env frames f primaryFramePtr state count p throwInfo r = .ok r') :
    Resumable state r' := by
  induction count generalizing p throwInfo r with
  | zero =>
    cases h
    exact hr
  | succ count ih =>
    simp only [matchTryBlocks] at h
    split at h
    · exact ih hr h
    · rename_i hrange
      simp only [bind_ok] at h
      obtain ⟨⟨ci, throwInfo'⟩, hprobe, ⟨d', found⟩, hmatch, h⟩ := h
      obtain ⟨link, hlink⟩ := probeUnless_link hprobe
      have hcontext := matchHandlers_context hmatch
      have hnext : Resumable state ⟨d',
          if found then some (Compressed.readUnsigned env.image p).1 else r.found⟩ := by
        intro tryLow hfound
        cases found with
        | true =>
          cases hfound
          exact ⟨hcontext, by omega⟩
        | false =>
          have hkeep : d'.catchInfo.unwindContext = ci.unwindContext := hcontext
          have hsame := hr tryLow hfound
          change ci = _ at hlink
          rw [hkeep, hlink]
          exact hsame
      split at h
      · cases h
        exact hnext
      · exact ih hnext h

theorem search_found {primaryFramePtr : Ptr} {state : Int} {r : Search} {tryLow : BitVec 32}
    (hr : search env frames f ehInfo primaryFramePtr state d = .ok r)
    (hfound : r.found = some tryLow) :
    contextState r.dispatch.catchInfo.unwindContext = (tryLow - 1).toInt ∧
      (tryLow.toNat : Int) ≤ state := by
  rw [search] at hr
  split at hr
  · rename_i hstate
    simp only [bind_ok] at hr
    obtain ⟨throwInfo, -, hr⟩ := hr
    have hresumable : Resumable state ⟨d, none⟩ := fun tryLow h => (nomatch h)
    obtain ⟨hcontext, hle⟩ := matchTryBlocks_resumable hresumable hr tryLow hfound
    exact ⟨hcontext, by omega⟩
  · cases hr
    cases hfound

theorem select_ok {c : Selection} : select env frames f ehInfo d = .ok c ↔
    ∃ primaryFramePtr state r,
    enter env f ehInfo d.catchInfo d.world.mem = .ok (primaryFramePtr, state) ∧
    search env frames f ehInfo primaryFramePtr state d = .ok r ∧
    c = ⟨r.dispatch, primaryFramePtr, state, r.targetState⟩ := by
  simp only [select, bind_ok, pure_ok, Prod.exists]
  simp only [exists_and_left, eq_comm (a := c)]

end

/-- The scan up to the entry of a state. It notes where the entry two behind the
target starts. -/
def skipEntries (m : Mem 64) (targetState : Int) : Nat → Int → Ptr → Ptr → Ptr × Ptr
  | 0, _, p, targetEdgeLast => (p, targetEdgeLast)
  | count + 1, i, p, targetEdgeLast =>
    let (_, p) := UnwindEdge.read m p
    skipEntries m targetState count (i + 1) p (if targetState + 1 = i then p else targetEdgeLast)

/-- The walk back from an entry. Each turn takes it at least one byte closer to
where it stops. -/
def walkBack (env : Env) (framePtr targetEdgeLast : Ptr) : Nat → Ptr → World 64 → Exec (World 64)
  | 0, _, _ => .error .hang
  | fuel + 1, orig, s => do
    let (edge, _) := UnwindEdge.read env.image orig
    verify (edge.targetOffset ≠ 0)
    let s := runOption env.code framePtr (edge.action env.imageBase) s
    if (orig - targetEdgeLast).toInt < edge.targetOffset.toNat then
      return s
    else
      walkBack env framePtr targetEdgeLast fuel (orig - edge.targetOffset.setWidth 64) s

/-- The entries a cleanup starts and stops at. -/
def cleanupRange (env : Env) (unwindGraph : Rva) (state targetState : Int) : Exec (Ptr × Ptr) := do
  let (unwindNodes, p) := readUnsigned env.image (displace env.imageBase unwindGraph)
  verify (0 ≤ state ∧ state.toNat < unwindNodes.toNat)
  let (p, targetEdgeLast) := skipEntries env.image targetState state.toNat 0 p p
  return (p, if targetState + 1 = state then p else targetEdgeLast)

def cleanup (env : Env) (unwindGraph : Rva) (framePtr : Ptr) (state targetState : Int)
    (s : World 64) : Exec (World 64) :=
  if targetState ≥ state then
    .ok s
  else do
    let (p, targetEdgeLast) ← cleanupRange env unwindGraph state targetState
    walkBack env framePtr targetEdgeLast ((p - targetEdgeLast).toNat + 1) p s

def ehInfoOf (env : Env) (f : FunctionFrame) (funcInfo : Rva) : EhInfo :=
  loadEhInfo env.image env.imageBase f.fnBegin (displace env.imageBase funcInfo)

def frameHandler (env : Env) (frames : List Frame) (f : FunctionFrame) (funcInfo : Rva)
    (d : Dispatch) : Exec Dispatch := do
  let ehInfo := ehInfoOf env f funcInfo
  let c ← select env frames f ehInfo d
  let s ← cleanup env ehInfo.unwindGraph f.framePtr c.state c.targetState c.dispatch.world
  return { c.dispatch with world := s }

def readBack (m : Mem 64) (imageBase targetEdgeLast : Ptr) : Nat → Ptr → Exec (List Action)
  | 0, _ => .error .hang
  | fuel + 1, orig => do
    let (edge, _) := UnwindEdge.read m orig
    verify (edge.targetOffset ≠ 0)
    if (orig - targetEdgeLast).toInt < edge.targetOffset.toNat then
      return (edge.action imageBase).toList
    else
      let rest ← readBack m imageBase targetEdgeLast fuel (orig - edge.targetOffset.setWidth 64)
      return (edge.action imageBase).toList ++ rest

def cleanupActions (env : Env) (unwindGraph : Rva) (state targetState : Int) : Exec (List Action) :=
  if targetState ≥ state then
    .ok []
  else do
    let (p, targetEdgeLast) ← cleanupRange env unwindGraph state targetState
    readBack env.image env.imageBase targetEdgeLast ((p - targetEdgeLast).toNat + 1) p

/-- The tables alone decide which actions the walk runs. -/
theorem walkBack_readBack (env : Env) (framePtr targetEdgeLast : Ptr) (fuel : Nat) (orig : Ptr)
    (s : World 64) : walkBack env framePtr targetEdgeLast fuel orig s =
      (fun as => runAll env.code framePtr as s) <$>
        readBack env.image env.imageBase targetEdgeLast fuel orig := by
  induction fuel generalizing orig s with
  | zero => rfl
  | succ fuel ih =>
    rw [walkBack, readBack]
    obtain ⟨edge, p⟩ := UnwindEdge.read env.image orig
    by_cases hoffset : edge.targetOffset ≠ 0
    · simp only [verify, if_pos hoffset, bind, Except.bind]
      split
      · simp only [pure, Except.pure, Functor.map, Except.map, runAll_toList]
      · rw [ih]
        cases readBack env.image env.imageBase targetEdgeLast fuel
          (orig - edge.targetOffset.setWidth 64) with
        | error e => rfl
        | ok rest => simp only [pure, Except.pure, Functor.map, Except.map, runAll_toList_append]
    · simp only [verify, if_neg hoffset]
      rfl

theorem cleanup_cleanupActions (env : Env) (unwindGraph : Rva) (framePtr : Ptr) (state target : Int)
    (s : World 64) : cleanup env unwindGraph framePtr state target s =
      (fun as => runAll env.code framePtr as s) <$>
        cleanupActions env unwindGraph state target := by
  rw [cleanup, cleanupActions]
  split
  · rfl
  · cases cleanupRange env unwindGraph state target with
    | error e => rfl
    | ok range => exact walkBack_readBack _ _ _ _ _ _

end Vcrtl.X64.Fh4

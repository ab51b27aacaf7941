import Mathlib.Data.List.Forall2
import Vcrtl.X64.HandlerMap
import Vcrtl.X64.Fh3

namespace Vcrtl.X64.SearchRefinement

open Lib.Memory BugCheck EhFlags EhStructs Throw CatchFrame CatchVariable CatchBlock Compressed
  DispatcherContext HandlerMap

/-- The plain layout of a handler. The node of its funclet's frame is free. -/
def PlainHandler (c : Clause) (h : CatchHandler) : Prop :=
  h.adjectives = c.adjectives ∧ h.typeDesc = c.type.getD 0 ∧
    h.catchObjectOffset = c.catchVar.getD 0 ∧ h.handler = c.handler

def PlainBlock (b : Block) (t : TryBlock) : Prop :=
  t.tryLow = b.tryLow ∧ t.tryHigh = b.tryHigh ∧ t.catchHigh = b.catchHigh ∧
    List.Forall₂ PlainHandler b.clauses t.catchHandlers

def withAddresses (a b : Ptr) (ci : CatchInfo) : CatchInfo :=
  { ci with continuationAddress0 := a, continuationAddress1 := b }

/-- `continuation_address` as it is left for the handler. -/
def entries (ci : CatchInfo) : List Ptr := [ci.continuationAddress0, ci.continuationAddress1]

section

variable {a b : Ptr} {ci : CatchInfo}

theorem getThrowInfo_withAddresses (infoAt : InfoAt) :
    (withAddresses a b ci).getThrowInfo infoAt = ci.getThrowInfo infoAt := rfl

theorem getExceptionObject_withAddresses (infoAt : InfoAt) :
    (withAddresses a b ci).getExceptionObject infoAt = ci.getExceptionObject infoAt := rfl

theorem probeFrame_withAddresses (frame : Frame) : probeFrame frame (withAddresses a b ci) =
    (fun x => (x.1, withAddresses a b x.2)) <$> probeFrame frame ci := by
  cases frame with
  | function f => rfl
  | seh => rfl
  | callCatch framePtr info =>
    simp only [probeFrame, cxxCallCatchFrameHandler]
    by_cases hlink : info.exceptionObjectOrLink ≠ null
    · simp only [verify, if_pos hlink]
      cases info.throwInfoIfOwner <;> rfl
    · simp only [verify, if_neg hlink]
      rfl

theorem probe_withAddresses (frames : List Frame) :
    probeForExceptionObject frames (withAddresses a b ci) =
      withAddresses a b <$> probeForExceptionObject frames ci := by
  induction frames generalizing ci with
  | nil => rfl
  | cons frame rest ih =>
    simp only [probeForExceptionObject, probeFrame_withAddresses]
    cases probeFrame frame ci with
    | error e => rfl
    | ok x =>
      simp only [Functor.map, Except.map, bind, Except.bind]
      cases verify (x.1 = .cxxHandler) with
      | error e => rfl
      | ok u =>
        by_cases hlink : x.2.exceptionObjectOrLink ≠ null
        · have hlink' : (withAddresses a b x.2).exceptionObjectOrLink ≠ null := hlink
          simp only [if_pos hlink, if_pos hlink']
          rfl
        · have hlink' : ¬ (withAddresses a b x.2).exceptionObjectOrLink ≠ null := hlink
          simp only [if_neg hlink, if_neg hlink']
          exact ih

theorem probeUnless_withAddresses (infoAt : InfoAt) (frames : List Frame)
    (throwInfo : Option ThrowInfo) : probeUnless infoAt frames throwInfo (withAddresses a b ci) =
      (fun x => (withAddresses a b x.1, x.2)) <$> probeUnless infoAt frames throwInfo ci := by
  simp only [probeUnless, probe_withAddresses]
  split
  · cases probeForExceptionObject frames ci with
    | error e => rfl
    | ok ci' =>
      simp only [Functor.map, Except.map, bind, Except.bind, getThrowInfo_withAddresses]
      cases ci'.getThrowInfo infoAt <;> rfl
  · rfl

theorem setContinuationAddress_room (a b : Ptr) (ci : CatchInfo) {addresses : List Ptr}
    (h : addresses.length ≤ 2) :
    ∃ a' b', Fh4.setContinuationAddress (withAddresses a b ci) addresses =
        .ok (withAddresses a' b' ci) ∧
      (entries (withAddresses a' b' ci)).take addresses.length = addresses := by
  match addresses, h with
  | [], _ => exact ⟨a, b, rfl, rfl⟩
  | [x], _ => exact ⟨x, b, rfl, rfl⟩
  | [x, y], _ => exact ⟨x, y, rfl, rfl⟩

end

section

variable (env : Env) (primaryFramePtr : Ptr)

def selected (tryLow : Nat) (ci : CatchInfo) : CatchInfo :=
  { ci with
    primaryFramePtr := primaryFramePtr
    unwindContext := setContextState ci.unwindContext (tryLow - 1) }

def HandlersAgree (tryLow : Nat) (cs : List Clause) (hs : List CatchHandler) (ci : CatchInfo) :
    Exec (Option CatchHandler × World 64) → Exec (Dispatch × Bool) → Prop
  | .error e, y => y = .error e
  | .ok (none, s), y => ∃ a b, y = .ok (⟨withAddresses a b ci, null, s⟩, false)
  | .ok (some h, s), y => ∃ c a b, (c, h) ∈ cs.zip hs ∧
      (entries (withAddresses a b ci)).take c.continuationAddress.length = c.continuationAddress ∧
      y = .ok (⟨selected primaryFramePtr tryLow (withAddresses a b ci),
        displace env.imageBase h.handler, s⟩, true)

variable {env primaryFramePtr}

theorem HandlersAgree.cons {tryLow : Nat} {c : Clause} {cs : List Clause} {h : CatchHandler}
    {hs : List CatchHandler} {ci : CatchInfo} {x : Exec (Option CatchHandler × World 64)}
    {y : Exec (Dispatch × Bool)} (hxy : HandlersAgree env primaryFramePtr tryLow cs hs ci x y) :
    HandlersAgree env primaryFramePtr tryLow (c :: cs) (h :: hs) ci x y := by
  match x, hxy with
  | .error e, hxy => exact hxy
  | .ok (none, s), hxy => exact hxy
  | .ok (some h', s), ⟨c', a, b, hmem, hentries, hy⟩ =>
    exact ⟨c', a, b, List.mem_cons_of_mem _ hmem, hentries, hy⟩

theorem toInt_low {tryLow : Nat} (h : tryLow < 2 ^ 31) :
    (BitVec.ofNat 32 tryLow - 1).toInt = tryLow - 1 := by
  have hnat : (BitVec.ofNat 32 tryLow).toNat = tryLow := by
    rw [BitVec.toNat_ofNat, Nat.mod_eq_of_lt (by omega)]
  rw [Fh4.toInt_pred (by omega), hnat]

/-- Record for record, the two searches of a try block's handlers do the same. -/
theorem takeHandlers_agree (env : Env) (primaryFramePtr : Ptr) {tryLow : Nat}
    (hlow : tryLow < 2 ^ 31) {cs : List Clause} {hs : List CatchHandler}
    (hplain : List.Forall₂ PlainHandler cs hs) (ci : CatchInfo)
    (throwInfo : Option ThrowInfo) (a b : Ptr) (s : World 64) :
    HandlersAgree env primaryFramePtr tryLow cs hs ci
      (Fh3.matchHandlers env primaryFramePtr ci throwInfo hs s)
      (takeHandlers env primaryFramePtr throwInfo (.ofNat 32 tryLow) (cs.map Clause.block)
        ⟨withAddresses a b ci, null, s⟩) := by
  induction hplain generalizing a b s with
  | nil => exact ⟨a, b, rfl⟩
  | @cons c h cs hs hc _ ih =>
    obtain ⟨hadjectives, htype, hvar, hhandler⟩ := hc
    obtain ⟨a', b', hset, hentries⟩ := setContinuationAddress_room a b ci c.room
    rw [Fh3.matchHandlers, List.map_cons, takeHandlers]
    simp only [Clause.block, hset, bind, Except.bind, getExceptionObject_withAddresses, hadjectives,
      htype, hvar]
    cases ci.getExceptionObject env.infoAt with
    | error e => rfl
    | ok object =>
      simp only []
      cases processCatchBlock env.code env.imageBase c.adjectives
          (displace env.imageBase (c.type.getD 0)) (displace primaryFramePtr (c.catchVar.getD 0))
          object throwInfo s with
      | error e => rfl
      | ok x =>
        obtain ⟨found, s'⟩ := x
        cases found with
        | true =>
          refine ⟨c, a', b', List.mem_cons_self, hentries, ?_⟩
          simp only [if_true, toInt_low hlow, hhandler]
          rfl
        | false => exact (ih a' b' s').cons

variable (env primaryFramePtr)

def BlocksAgree (blocks : List Block) (ts : List TryBlock) :
    Exec Fh3.Search → Exec Fh4.Search → Prop
  | .error e, y => y = .error e
  | .ok ⟨ci, s, none⟩, y => ∃ a b, y = .ok ⟨⟨withAddresses a b ci, null, s⟩, none⟩
  | .ok ⟨ci, s, some (t, h)⟩, y => ∃ block c a b, (block, t) ∈ blocks.zip ts ∧
      (c, h) ∈ block.clauses.zip t.catchHandlers ∧
      (entries (withAddresses a b ci)).take c.continuationAddress.length = c.continuationAddress ∧
      y = .ok ⟨⟨selected primaryFramePtr block.tryLow (withAddresses a b ci),
        displace env.imageBase h.handler, s⟩, some (.ofNat 32 block.tryLow)⟩

variable {env primaryFramePtr}

theorem BlocksAgree.cons {block : Block} {blocks : List Block} {t : TryBlock} {ts : List TryBlock}
    {x : Exec Fh3.Search} {y : Exec Fh4.Search}
    (hxy : BlocksAgree env primaryFramePtr blocks ts x y) :
    BlocksAgree env primaryFramePtr (block :: blocks) (t :: ts) x y := by
  match x, hxy with
  | .error e, hxy => exact hxy
  | .ok ⟨ci, s, none⟩, hxy => exact hxy
  | .ok ⟨ci, s, some (t', h)⟩, ⟨block', c, a, b, hblock, hrest⟩ =>
    exact ⟨block', c, a, b, List.mem_cons_of_mem _ hblock, hrest⟩

def primaryEntry (framePtr : Ptr) (state : Int) : Fh3.Entry := ⟨framePtr, state, -1, -1⟩

theorem findHomeBlock_outside {tryBlocks : List TryBlock} {state home : Int} {fuel : Nat}
    {block : Option TryBlock}
    (h : Fh3.findHomeBlock tryBlocks state fuel home = .ok (-1, block)) : block = none := by
  induction fuel generalizing home with
  | zero =>
    cases h
    rfl
  | succ fuel ih =>
    rw [Fh3.findHomeBlock] at h
    split at h
    · rename_i hhome
      obtain ⟨t, -, h⟩ := bind_ok.mp h
      split at h
      · cases h
        omega
      · exact ih h
    · cases h
      rfl

theorem fh3_enter_primary {imageBase : Ptr} {f : FunctionFrame} {ehInfo : FunctionEhInfo}
    {ci : CatchInfo} {m : Mem 64} {entry : Fh3.Entry} (hle : ci.primaryFramePtr ≤ f.framePtr)
    (hprimary : ci.primaryFramePtr = f.framePtr ∨ Fh3.OutsideHandlers imageBase f ehInfo)
    (h : Fh3.enter imageBase f ehInfo ci m = .ok entry) :
    entry = primaryEntry f.framePtr entry.state := by
  have hhome := (Fh3.enter_home_iff hle h).mpr hprimary
  by_cases heq : ci.primaryFramePtr = f.framePtr
  · simp only [Fh3.enter, if_pos heq, bind_ok, pure_ok] at h
    obtain ⟨start, -, rfl⟩ := h
    simp only [primaryEntry, heq]
  · have hlt : ci.primaryFramePtr < f.framePtr := by
      have hne : ci.primaryFramePtr.toNat ≠ f.framePtr.toNat :=
        fun hnat => heq (BitVec.eq_of_toNat_eq hnat)
      have hnat : ci.primaryFramePtr.toNat ≤ f.framePtr.toNat := hle
      exact BitVec.lt_def.mpr (by omega)
    simp only [Fh3.enter, if_neg heq, bind_ok, pure_ok] at h
    obtain ⟨start, -, ⟨home, block⟩, hfind, primary, hnode, rfl⟩ := h
    obtain rfl : home = -1 := hhome
    obtain rfl := findHomeBlock_outside hfind
    obtain rfl := Except.ok.inj hnode
    simp only [primaryEntry, if_pos hlt]
    rfl

theorem fh4_enter_primary {env : Env} {f : FunctionFrame} {ehInfo : Fh4.EhInfo} {ci : CatchInfo}
    {m : Mem 64} {primaryFramePtr : Ptr} {state : Int} (hle : ci.primaryFramePtr ≤ f.framePtr)
    (hprimary : hasAnyOf ehInfo.flags Eh4Flag.isCatchFunclet = false)
    (h : Fh4.enter env f ehInfo ci m = .ok (primaryFramePtr, state)) :
    primaryFramePtr = f.framePtr := by
  rw [Fh4.enter] at h
  split at h
  · rename_i hge
    cases h
    exact BitVec.le_antisymm hle hge
  · obtain ⟨state', -, h⟩ := bind_ok.mp h
    simp only [hprimary, Bool.false_eq_true, if_false] at h
    cases h
    rfl

variable {frames : List Frame}

theorem range_iff {block : Block} {t : TryBlock} {framePtr : Ptr} {state : Int}
    (hplain : PlainBlock block t) (hstate : 0 ≤ state) :
    (t.tryLow ≤ (primaryEntry framePtr state).state ∧
        (primaryEntry framePtr state).state ≤ t.tryHigh ∧
        ¬ t.tryLow < (primaryEntry framePtr state).funcletLowState) ↔
      ¬ (block.decoded.tryLow.toNat > state.toNat ∨ state.toNat > block.decoded.tryHigh.toNat) := by
  obtain ⟨hlow, hhigh, -, -⟩ := hplain
  have hlow' : block.decoded.tryLow.toNat = block.tryLow := by
    have hlt := block.tryLow_lt
    rw [Block.decoded, BitVec.toNat_ofNat, Nat.mod_eq_of_lt (by omega)]
  have hhigh' : block.decoded.tryHigh.toNat = block.tryHigh := by
    have hlt := block.tryHigh_lt
    rw [Block.decoded, BitVec.toNat_ofNat, Nat.mod_eq_of_lt (by omega)]
  simp only [primaryEntry]
  rw [hlow, hhigh, hlow', hhigh']
  omega

/-- Block for block, the two searches of a function's try blocks do the same. -/
theorem takeTryBlocks_agree (frames : List Frame) (primaryFramePtr : Ptr)
    (hmapped : Mapped env.imageBase) {blocks : List Block} {ts : List TryBlock}
    (hplain : List.Forall₂ PlainBlock blocks ts) {state : Int}
    (hstate : 0 ≤ state) (ci : CatchInfo) (throwInfo : Option ThrowInfo) (a b : Ptr)
    (s : World 64) :
    BlocksAgree env primaryFramePtr blocks ts
      (Fh3.matchTryBlocks env frames (primaryEntry primaryFramePtr state) ts ci throwInfo s)
      (takeTryBlocks env frames primaryFramePtr state (blocks.map Block.decoded) throwInfo
        ⟨⟨withAddresses a b ci, null, s⟩, none⟩) := by
  induction hplain generalizing ci throwInfo a b s with
  | nil => exact ⟨a, b, rfl⟩
  | @cons block t blocks ts hblock _ ih =>
    rw [Fh3.matchTryBlocks, List.map_cons, takeTryBlocks]
    by_cases hrange : t.tryLow ≤ (primaryEntry primaryFramePtr state).state ∧
        (primaryEntry primaryFramePtr state).state ≤ t.tryHigh ∧
        ¬ t.tryLow < (primaryEntry primaryFramePtr state).funcletLowState
    · have hrange' := (range_iff hblock hstate).mp hrange
      rw [if_pos hrange, if_neg hrange']
      simp only [probeUnless_withAddresses, bind, Except.bind, Functor.map, Except.map]
      cases probeUnless env.infoAt frames throwInfo ci with
      | error e => rfl
      | ok x =>
        obtain ⟨ci', throwInfo'⟩ := x
        have hhandlers := takeHandlers_agree env primaryFramePtr block.tryLow_lt hblock.2.2.2 ci'
          throwInfo' a b s
        have hentry : (primaryEntry primaryFramePtr state).primaryFramePtr = primaryFramePtr := rfl
        simp only [Block.decoded, hentry]
        generalize Fh3.matchHandlers env primaryFramePtr ci' throwInfo' t.catchHandlers s = x
          at hhandlers ⊢
        generalize takeHandlers env primaryFramePtr throwInfo' (.ofNat 32 block.tryLow)
          (block.clauses.map Clause.block) ⟨withAddresses a b ci', null, s⟩ = y at hhandlers ⊢
        cases x with
        | error e =>
          obtain rfl : y = .error e := hhandlers
          rfl
        | ok x =>
          obtain ⟨_ | h, s'⟩ := x
          · obtain ⟨a', b', hy⟩ := hhandlers
            rw [hy]
            exact (ih _ throwInfo' a' b' s').cons
          · obtain ⟨c, a', b', hmem, hentries, hy⟩ := hhandlers
            simp only [hy, if_true, if_pos (hmapped h.handler)]
            exact ⟨block, c, a', b', List.mem_cons_self, hmem, hentries, rfl⟩
    · have hrange' := not_not.mp (mt (range_iff hblock hstate).mpr hrange)
      rw [if_neg hrange, if_pos hrange']
      exact (ih _ throwInfo a b s).cons

def SameDispatch (d d' : Dispatch) : Prop :=
  d'.handler = d.handler ∧ d'.world = d.world ∧
    d'.catchInfo.primaryFramePtr = d.catchInfo.primaryFramePtr ∧
    contextState d'.catchInfo.unwindContext = contextState d.catchInfo.unwindContext ∧
    d'.catchInfo.exceptionObjectOrLink = d.catchInfo.exceptionObjectOrLink ∧
    d'.catchInfo.throwInfoIfOwner = d.catchInfo.throwInfoIfOwner

/-- The searches of a function's blocks in the two formats select the same handler of the same
block, or none. The first entries for the handler are its continuation addresses. -/
def SameSelection (blocks : List Block) (ts : List TryBlock) (d : Dispatch)
    (found : Option (TryBlock × CatchHandler)) (r : Fh4.Search) : Prop :=
  SameDispatch d r.dispatch ∧
    match found with
    | none => r.found = none
    | some (t, h) => ∃ block c, (block, t) ∈ blocks.zip ts ∧
        (c, h) ∈ block.clauses.zip t.catchHandlers ∧ r.found = some (.ofNat 32 block.tryLow) ∧
        (entries r.dispatch.catchInfo).take c.continuationAddress.length = c.continuationAddress

theorem plain_of_mem_zip {blocks : List Block} {ts : List TryBlock}
    (hplain : List.Forall₂ PlainBlock blocks ts) {block : Block} {t : TryBlock}
    (h : (block, t) ∈ blocks.zip ts) : PlainBlock block t :=
  (List.forall₂_iff_zip.mp hplain).2 h

theorem same_of_agree {blocks : List Block} {ts : List TryBlock} {state : Int} {d : Dispatch}
    {r : Fh3.Search} {y : Exec Fh4.Search} (hplain : List.Forall₂ PlainBlock blocks ts)
    (hhandler : d.handler = null) (hxy : BlocksAgree env primaryFramePtr blocks ts (.ok r) y) :
    ∃ r', y = .ok r' ∧ SameSelection blocks ts
      (r.dispatch env.imageBase (primaryEntry primaryFramePtr state) d) r.found r' := by
  match r, hxy with
  | ⟨ci, s, none⟩, ⟨a, b, hy⟩ => exact ⟨_, hy, ⟨hhandler.symm, rfl, rfl, rfl, rfl, rfl⟩, rfl⟩
  | ⟨ci, s, some (t, h)⟩, ⟨block, c, a, b, hblock, hclause, hentries, hy⟩ =>
    refine ⟨_, hy, ⟨rfl, rfl, rfl, ?_, rfl, rfl⟩, block, c, hblock, hclause, rfl, hentries⟩
    have hlow := block.tryLow_lt
    have ht : t.tryLow = block.tryLow := (plain_of_mem_zip hplain hblock).1
    simp only [selected, Fh3.Search.dispatch]
    rw [contextState_set _ (by omega) (by omega), contextState_set _ (by omega) (by omega), ht]

theorem fh3_search_primary {ehInfo : FunctionEhInfo} {framePtr : Ptr} {state : Int}
    {d : Dispatch} : Fh3.search env frames ehInfo (primaryEntry framePtr state) d = (do
      let throwInfo ← d.catchInfo.getThrowInfo env.infoAt
      Fh3.matchTryBlocks env frames (primaryEntry framePtr state) ehInfo.tryBlocks d.catchInfo
        throwInfo d.world) := rfl

theorem matchTryBlocks_outside {blocks : List Block} {ts : List TryBlock}
    (hplain : List.Forall₂ PlainBlock blocks ts) {framePtr : Ptr} {state : Int} (hstate : state < 0)
    (ci : CatchInfo) (throwInfo : Option ThrowInfo) (s : World 64) :
    Fh3.matchTryBlocks env frames (primaryEntry framePtr state) ts ci throwInfo s =
      .ok ⟨ci, s, none⟩ := by
  induction hplain with
  | nil => rfl
  | @cons block t blocks ts hblock _ ih =>
    have hlow : t.tryLow = block.tryLow := hblock.1
    rw [Fh3.matchTryBlocks, if_neg, ih]
    intro hrange
    have hle : t.tryLow ≤ state := hrange.1
    omega

theorem ok_of_agree {blocks : List Block} {ts : List TryBlock} {x : Exec Fh3.Search}
    {r' : Fh4.Search} (hxy : BlocksAgree env primaryFramePtr blocks ts x (.ok r')) :
    ∃ r, x = .ok r := by
  cases x with
  | error e => cases hxy
  | ok r => exact ⟨r, rfl⟩

theorem search_agree {f : FunctionFrame} {ehInfo : FunctionEhInfo} {ehInfo' : Fh4.EhInfo}
    {blocks : List Block} {state : Int} {d : Dispatch} (hmapped : Mapped env.imageBase)
    (hplain : List.Forall₂ PlainBlock blocks ehInfo.tryBlocks)
    (hmap : MapAt env.imageBase f.fnBegin env.image blocks ehInfo'.tryBlocks)
    (hhandler : d.handler = null) (htry : ehInfo'.tryBlocks ≠ 0) (hstate : 0 ≤ state) :
    BlocksAgree env f.framePtr blocks ehInfo.tryBlocks
      (Fh3.search env frames ehInfo (primaryEntry f.framePtr state) d)
      (Fh4.search env frames f ehInfo' f.framePtr state d) := by
  have hblocks : Fh4.search env frames f ehInfo' f.framePtr state d = (do
      let throwInfo ← d.catchInfo.getThrowInfo env.infoAt
      takeTryBlocks env frames f.framePtr state (blocks.map Block.decoded) throwInfo
        ⟨d, none⟩) := by
    rw [search_tryBlocksOf hstate htry, tryBlocksOf_mapAt hmap]
  have hd : (⟨withAddresses d.catchInfo.continuationAddress0 d.catchInfo.continuationAddress1
      d.catchInfo, null, d.world⟩ : Dispatch) = d := by
    rw [← hhandler]
    rfl
  rw [hblocks, fh3_search_primary]
  cases d.catchInfo.getThrowInfo env.infoAt with
  | error e => rfl
  | ok throwInfo =>
    have hagree := takeTryBlocks_agree frames f.framePtr hmapped hplain hstate d.catchInfo
      throwInfo d.catchInfo.continuationAddress0 d.catchInfo.continuationAddress1 d.world
    rwa [hd] at hagree

/-- Both handlers find a frame of the function itself, that no catch of it was left in. -/
structure Primary (imageBase : Ptr) (f : FunctionFrame) (ehInfo : FunctionEhInfo)
    (ehInfo' : Fh4.EhInfo) (ci : CatchInfo) : Prop where
  fresh : ci.primaryFramePtr ≤ f.framePtr
  fh3 : ci.primaryFramePtr = f.framePtr ∨ Fh3.OutsideHandlers imageBase f ehInfo
  fh4 : hasAnyOf ehInfo'.flags Eh4Flag.isCatchFunclet = false

theorem search_same {f : FunctionFrame} {ehInfo : FunctionEhInfo} {ehInfo' : Fh4.EhInfo}
    {blocks : List Block} {state : Int} {d : Dispatch} (hmapped : Mapped env.imageBase)
    (hplain : List.Forall₂ PlainBlock blocks ehInfo.tryBlocks)
    (hmap : MapAt env.imageBase f.fnBegin env.image blocks ehInfo'.tryBlocks)
    (hhandler : d.handler = null) :
    (∀ r, Fh3.search env frames ehInfo (primaryEntry f.framePtr state) d = .ok r →
      ∃ r', Fh4.search env frames f ehInfo' f.framePtr state d = .ok r' ∧
        SameSelection blocks ehInfo.tryBlocks
          (r.dispatch env.imageBase (primaryEntry f.framePtr state) d) r.found r') ∧
    ∀ r', Fh4.search env frames f ehInfo' f.framePtr state d = .ok r' → r'.found = none ∨
      ∃ r, Fh3.search env frames ehInfo (primaryEntry f.framePtr state) d = .ok r ∧
        SameSelection blocks ehInfo.tryBlocks
          (r.dispatch env.imageBase (primaryEntry f.framePtr state) d) r.found r' := by
  by_cases hsearch : ehInfo'.tryBlocks ≠ 0 ∧ 0 ≤ state
  · have hagree : BlocksAgree env _ _ _ (Fh3.search env frames _ _ d) _ :=
      search_agree hmapped hplain hmap hhandler hsearch.1 hsearch.2
    constructor
    · intro r hr
      rw [hr] at hagree
      exact same_of_agree hplain hhandler hagree
    · intro r' hr'
      rw [hr'] at hagree
      obtain ⟨r, hr⟩ := ok_of_agree hagree
      rw [hr] at hagree
      obtain ⟨r'', hr'', hsame⟩ := same_of_agree hplain hhandler hagree
      cases hr''
      exact .inr ⟨r, hr, hsame⟩
  · have hnone : Fh4.search env frames f ehInfo' f.framePtr state d = .ok ⟨d, none⟩ := by
      rw [Fh4.search, if_neg hsearch]
    have hempty : ∀ throwInfo, Fh3.matchTryBlocks env frames (primaryEntry f.framePtr state)
        ehInfo.tryBlocks d.catchInfo throwInfo d.world = .ok ⟨d.catchInfo, d.world, none⟩ := by
      intro throwInfo
      by_cases htry : ehInfo'.tryBlocks ≠ 0
      · have hstate : ¬ 0 ≤ state := fun h => hsearch ⟨htry, h⟩
        exact matchTryBlocks_outside hplain (by omega) _ _ _
      · rw [MapAt, if_neg htry] at hmap
        subst hmap
        rw [List.forall₂_nil_left_iff.mp hplain]
        rfl
    rw [hnone, fh3_search_primary]
    constructor
    · intro r hr
      obtain ⟨throwInfo, -, hr⟩ := bind_ok.mp hr
      obtain rfl := Except.ok.inj ((hempty throwInfo).symm.trans hr)
      exact ⟨_, rfl, ⟨rfl, rfl, rfl, rfl, rfl, rfl⟩, rfl⟩
    · intro r' hr'
      cases hr'
      exact .inl rfl

/-- In the primary frame of a function, in whatever state, the search of its compressed map
selects what the search of the same blocks in the plain layout does. -/
theorem search_refines {f : FunctionFrame} {ehInfo : FunctionEhInfo} {ehInfo' : Fh4.EhInfo}
    {blocks : List Block} {state : Int} {d : Dispatch} (hmapped : Mapped env.imageBase)
    (hplain : List.Forall₂ PlainBlock blocks ehInfo.tryBlocks)
    (hmap : MapAt env.imageBase f.fnBegin env.image blocks ehInfo'.tryBlocks)
    (hhandler : d.handler = null) :
    (∀ r, Fh3.search env frames ehInfo (primaryEntry f.framePtr state) d = .ok r →
      ∃ r', Fh4.search env frames f ehInfo' f.framePtr state d = .ok r' ∧
        SameSelection blocks ehInfo.tryBlocks
          (r.dispatch env.imageBase (primaryEntry f.framePtr state) d) r.found r') ∧
    (∀ r', Fh4.search env frames f ehInfo' f.framePtr state d = .ok r' → r'.found = none ∨
      ∃ r, Fh3.search env frames ehInfo (primaryEntry f.framePtr state) d = .ok r ∧
        SameSelection blocks ehInfo.tryBlocks
          (r.dispatch env.imageBase (primaryEntry f.framePtr state) d) r.found r') ∧
    ∀ m entry primaryFramePtr, Primary env.imageBase f ehInfo ehInfo' d.catchInfo →
      Fh3.enter env.imageBase f ehInfo d.catchInfo m = .ok entry → entry.state = state →
      Fh4.enter env f ehInfo' d.catchInfo m = .ok (primaryFramePtr, state) →
        entry = primaryEntry f.framePtr state ∧ primaryFramePtr = f.framePtr := by
  refine ⟨(search_same hmapped hplain hmap hhandler).1,
    (search_same hmapped hplain hmap hhandler).2, ?_⟩
  rintro m entry primaryFramePtr hprimary henter rfl henter'
  exact ⟨fh3_enter_primary hprimary.fresh hprimary.fh3 henter,
    fh4_enter_primary hprimary.fresh hprimary.fh4 henter'⟩

end

/-- A block in which a handler with two continuation addresses comes before one with one. -/
def mapBytes : List Byte :=
  [0x02] ++ ([0x00] ++ ([0x00] ++ ([0x02] ++ bytesLE 4 0x120)))

def skippedBytes : List Byte :=
  0x22 :: ([] ++ (bytesLE 4 0x30 ++ ([] ++ (bytesLE 4 0x50 ++ [0x06, 0x0a]))))

def chosenBytes : List Byte := 0x11 :: ([0x80] ++ ([] ++ ([] ++ (bytesLE 4 0x60 ++ [0x0e]))))

def mapEnv : Env where
  code := fun _ m => m
  imageBase := 0x400000
  image := writeAll (fun _ => 0)
    [(0x400100, mapBytes), (0x400120, [0x04] ++ (skippedBytes ++ chosenBytes))]
  infoAt := fun _ => none

def skipped : Clause := ⟨0, some 0x30, none, 0x50, [0x400013, 0x400015], by decide⟩

def chosen : Clause := ⟨CatchFlag.isEllipsis, none, none, 0x60, [0x400017], by decide⟩

def twoHandlers : Block := ⟨0, 0, 1, [skipped, chosen], by decide, by decide, by decide⟩

def twoHandlers3 : FunctionEhInfo where
  unwindGraph := [⟨-1, 0⟩, ⟨-1, 0⟩]
  tryBlocks := [⟨0, 0, 1, [⟨0, 0x30, 0, 0x50, 0⟩, ⟨CatchFlag.isEllipsis, 0, 0, 0x60, 0⟩]⟩]
  regions := [⟨0x10, -1⟩]
  ehFlags := 0

def twoHandlers4 : Fh4.EhInfo := ⟨0, 0, 0, 0x100, 0, 0⟩

def frame : FunctionFrame := ⟨0x5000, 0x400018, 0x10, .none⟩

def thrown : Dispatch := ⟨⟨0, 0, 0, 0x800, some ⟨0, 0, []⟩, 0⟩, null, ⟨fun _ => 0, []⟩⟩

theorem encodes_byte {v : BitVec 32} {b : Byte} (hv : v.toNat < 128)
    (hb : b = .ofNat 8 (v.toNat * 2)) : Encodes v [b] :=
  .inl ⟨1, by decide, by decide, hv, by rw [hb]; rfl⟩

theorem encodes_skipped : EncodesClause mapEnv.imageBase frame.fnBegin skipped skippedBytes := by
  refine ⟨0x22, [], bytesLE 4 0x30, [], [0x06, 0x0a], rfl, ⟨rfl, rfl⟩, ⟨0x30, rfl, rfl⟩, ⟨rfl, rfl⟩,
    rfl, ?_⟩
  refine ⟨3, [0x06], [0x0a], rfl, rfl, encodes_byte (by decide) rfl, ?_⟩
  exact ⟨5, [0x0a], [], rfl, rfl, encodes_byte (by decide) rfl, rfl⟩

theorem encodes_chosen : EncodesClause mapEnv.imageBase frame.fnBegin chosen chosenBytes := by
  refine ⟨0x11, [0x80], [], [], [0x0e], rfl, encodes_byte (by decide) rfl, ⟨rfl, rfl⟩, ⟨rfl, rfl⟩,
    rfl, ?_⟩
  exact ⟨7, [0x0e], [], rfl, rfl, encodes_byte (by decide) rfl, rfl⟩

theorem mapAt_twoHandlers : MapAt mapEnv.imageBase frame.fnBegin mapEnv.image [twoHandlers]
    twoHandlers4.tryBlocks := by
  refine ⟨[0x02], by decide, encodes_byte (by decide) rfl, by decide, ?_⟩
  refine ⟨[0x00], [0x00], [0x02], 0x120, encodes_byte (by decide) rfl,
    encodes_byte (by decide) rfl, encodes_byte (by decide) rfl, by decide, ?_, trivial⟩
  refine ⟨[0x04], by decide, encodes_byte (by decide) rfl, by decide, ?_⟩
  refine ⟨skippedBytes, encodes_skipped, by decide, ?_⟩
  exact ⟨chosenBytes, encodes_chosen, by decide, trivial⟩

theorem search_refines_twoHandlers : ∃ r,
    Fh3.search mapEnv [] twoHandlers3 (primaryEntry frame.framePtr 0) thrown = .ok r ∧
    ∃ r', Fh4.search mapEnv [] frame twoHandlers4 frame.framePtr 0 thrown = .ok r' ∧
      SameSelection [twoHandlers] twoHandlers3.tryBlocks
        (r.dispatch mapEnv.imageBase (primaryEntry frame.framePtr 0) thrown) r.found r' := by
  have hmapped : Mapped mapEnv.imageBase := mapped_of_le (by decide) (by decide)
  have hplain : List.Forall₂ PlainBlock [twoHandlers] twoHandlers3.tryBlocks := by
    refine .cons ⟨rfl, rfl, rfl, ?_⟩ .nil
    exact .cons ⟨rfl, rfl, rfl, rfl⟩ (.cons ⟨rfl, rfl, rfl, rfl⟩ .nil)
  refine ⟨_, rfl, ?_⟩
  exact (search_refines hmapped hplain mapAt_twoHandlers rfl).1 _ rfl

def ExactEntries (before after : CatchInfo) (addresses : List Ptr) : Prop :=
  ∃ ci, Fh4.setContinuationAddress before addresses = .ok ci ∧ entries after = entries ci

/-- What a skipped handler has written behind the selected one's addresses stays there. -/
theorem skipped_address_left :
    MapAt mapEnv.imageBase frame.fnBegin mapEnv.image [twoHandlers] twoHandlers4.tryBlocks ∧
    ∃ r, Fh4.search mapEnv [] frame twoHandlers4 frame.framePtr 0 thrown = .ok r ∧
      r.dispatch.handler = displace mapEnv.imageBase chosen.handler ∧
      entries r.dispatch.catchInfo = [0x400017, 0x400015] ∧
      ¬ ExactEntries thrown.catchInfo r.dispatch.catchInfo chosen.continuationAddress := by
  refine ⟨mapAt_twoHandlers, _, rfl, rfl, rfl, ?_⟩
  rintro ⟨ci, hset, hentries⟩
  obtain rfl := Except.ok.inj hset
  exact absurd hentries (by decide)

end Vcrtl.X64.SearchRefinement

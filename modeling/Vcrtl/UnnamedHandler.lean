import Vcrtl.Matching
import Vcrtl.X64.Rebinding

namespace Vcrtl.UnnamedHandler

open Lib.Memory BugCheck EhFlags CatchVariable Matching

section

variable {w : Nat}

def WritesNothing (s t : World w) : Prop :=
  t.mem = s.mem ∧ ∀ e ∈ t.trace.drop s.trace.length, ∃ dst src, e = .memcpy dst src 0

variable {code : Code w} {s : World w} {e : Effect w}

theorem writesNothing_refl (s : World w) : WritesNothing s s :=
  ⟨rfl, by simp⟩

theorem writesNothing_of_trace {t : World w} (htrace : t.trace = s.trace ++ [e])
    (h : WritesNothing s t) : ∃ dst src, e = .memcpy dst src 0 := by
  apply h.2
  rw [htrace, List.drop_left]
  exact List.mem_singleton_self e

theorem writesNothing_perform :
    WritesNothing s (s.perform code e) ↔ ∃ dst src, e = .memcpy dst src 0 := by
  refine ⟨?_, ?_⟩
  · exact writesNothing_of_trace rfl
  · rintro ⟨dst, src, rfl⟩
    refine ⟨?_, fun e he => ?_⟩
    · funext a
      rfl
    · rw [World.perform, List.drop_left, List.mem_singleton] at he
      exact ⟨dst, src, he⟩

theorem writesNothing_memcpy {dst src : BitVec w} {size : BitVec 32} :
    WritesNothing s (s.perform code (.memcpy dst src size.toNat)) ↔ size = 0 := by
  rw [writesNothing_perform]
  refine ⟨?_, ?_⟩
  · rintro ⟨dst', src', heq⟩
    exact BitVec.eq_of_toNat_eq (Effect.memcpy.inj heq).2.2
  · rintro rfl
    exact ⟨dst, src, rfl⟩

variable {properties size : BitVec 32} {offset : Displacement.PtrToMember}
  {copyFn : Option (BitVec w)} {var object : BitVec w}

theorem initByValue_simple
    (hsimple : hasAnyOf properties CatchableProperty.isSimpleType = true) :
    (initByValue code properties offset size copyFn var object s).trace =
      s.trace ++ [.memcpy var object size.toNat] := by
  simp only [initByValue, hsimple, if_true]
  split
  · split <;> rfl
  · rfl

theorem writesNothing_initByValue (hw : 8 ≤ w) :
    WritesNothing s (initByValue code properties offset size copyFn var object s) ↔
      size = 0 ∧ (hasAnyOf properties CatchableProperty.isSimpleType = true ∨ copyFn = none) := by
  cases hsimple : hasAnyOf properties CatchableProperty.isSimpleType with
  | true =>
    simp only [true_or, and_true]
    refine ⟨?_, ?_⟩
    · intro h
      obtain ⟨dst, src, heq⟩ := writesNothing_of_trace (initByValue_simple hsimple) h
      exact BitVec.eq_of_toNat_eq (Effect.memcpy.inj heq).2.2
    · rintro rfl
      have hword : (0 : BitVec 32).toNat ≠ w / 8 := by
        change 0 ≠ w / 8
        omega
      simp only [initByValue, hsimple, if_true, if_neg hword]
      exact writesNothing_memcpy.mpr rfl
  | false =>
    simp only [initByValue, hsimple, Bool.false_eq_true, if_false, false_or]
    cases copyFn with
    | none => simp [writesNothing_memcpy]
    | some fn =>
      simp only [reduceCtorEq, and_false, iff_false]
      split
      · simp [writesNothing_perform]
      · simp [writesNothing_perform]

end

section

open X64.EhStructs X64.Throw X64.CatchFrame X64.CatchBlock X64.Cleanup X64.DispatcherContext
  X64.Dispatch X64.HandlerMap X64.Rebinding

/-- On x64 a handler that was selected has nothing to bind if it is `catch (...)`, or takes a
copy of no bytes. -/
def BindsNothing (imageBase : Ptr) (ti : ThrowInfo) (h : CatchHandler) : Prop :=
  hasAnyOf h.adjectives CatchFlag.isEllipsis = true ∨
    hasAnyOf h.adjectives CatchFlag.isReference = false ∧ ∃ c,
      findCatchable imageBase h.adjectives (displace imageBase h.typeDesc) ti = some c ∧
      c.size = 0 ∧ (hasAnyOf c.properties CatchableProperty.isSimpleType = true ∨ c.copyFn = 0)

def plain (block : X64.Fh4.CatchBlock) : CatchHandler :=
  ⟨block.typeFlags, block.type, block.catchVar, block.handler, 0⟩

def Took (env : Env) (primaryFramePtr : Ptr) (ti : ThrowInfo) (h : CatchHandler)
    (s t : World 64) : Prop :=
  ∃ object, processCatchBlock env.code env.imageBase h.adjectives
    (displace env.imageBase h.typeDesc) (displace primaryFramePtr h.catchObjectOffset) object
    (some ti) s = .ok (true, t)

def Thrown (env : Env) (frames : List Frame) (throwInfo : Option ThrowInfo) (ci : CatchInfo)
    (ti : ThrowInfo) : Prop :=
  ∀ x, probeUnless env.infoAt frames throwInfo ci = .ok x → x.2 = some ti

variable {env : Env} {frames : List Frame} {primaryFramePtr : Ptr} {ti : ThrowInfo}
  {s t : World 64}

theorem writesNothing_initCatchVariable {code : Code 64} {imageBase var object : Ptr}
    {adjectives : BitVec 32} {c : CatchableType} :
    WritesNothing s (initCatchVariable code imageBase adjectives var object c s) ↔
      hasAnyOf adjectives CatchFlag.isReference = false ∧ c.size = 0 ∧
        (hasAnyOf c.properties CatchableProperty.isSimpleType = true ∨ c.copyFn = 0) := by
  cases href : hasAnyOf adjectives CatchFlag.isReference with
  | true => simp [initCatchVariable, href, writesNothing_perform]
  | false =>
    simp only [initCatchVariable, href, Bool.false_eq_true, if_false, true_and]
    rw [writesNothing_initByValue (by decide)]
    simp

theorem Took.writesNothing_iff {h : CatchHandler} (htook : Took env primaryFramePtr ti h s t) :
    WritesNothing s t ↔ BindsNothing env.imageBase ti h := by
  obtain ⟨object, hprocess⟩ := htook
  cases hellipsis : hasAnyOf h.adjectives CatchFlag.isEllipsis with
  | true =>
    rw [processCatchBlock, if_pos hellipsis] at hprocess
    cases hprocess
    exact iff_of_true (writesNothing_refl s) (.inl hellipsis)
  | false =>
    cases hfind : findCatchable env.imageBase h.adjectives
        (displace env.imageBase h.typeDesc) ti with
    | none =>
      simp only [processCatchBlock, hellipsis, Bool.false_eq_true, if_false, hfind] at hprocess
      split at hprocess
      · cases hprocess
      split at hprocess
      · cases hprocess
      split at hprocess
      · cases hprocess
      · cases hprocess
    | some c =>
      rw [processCatchBlock_found hellipsis hprocess hfind, writesNothing_initCatchVariable]
      simp only [BindsNothing, hellipsis, hfind, Bool.false_eq_true, false_or, Option.some.injEq,
        exists_eq_left']

theorem Thrown.probed {throwInfo throwInfo' : Option ThrowInfo} {ci ci' : CatchInfo}
    (h : Thrown env frames throwInfo ci ti)
    (hprobe : probeUnless env.infoAt frames throwInfo ci = .ok (ci', throwInfo')) :
    throwInfo' = some ti := h _ hprobe

theorem thrown_known (ci : CatchInfo) : Thrown env frames (some ti) ci ti := by
  intro x hx
  cases hx
  rfl

theorem fh3_matchHandlers_took {ci : CatchInfo} {hs : List CatchHandler}
    {found : Option CatchHandler}
    (hr : X64.Fh3.matchHandlers env primaryFramePtr ci (some ti) hs s = .ok (found, t)) :
    (found = none → t = s) ∧ ∀ h, found = some h → Took env primaryFramePtr ti h s t := by
  induction hs generalizing s with
  | nil =>
    cases hr
    refine ⟨fun _ => rfl, fun h hnone => ?_⟩
    cases hnone
  | cons g hs ih =>
    simp only [X64.Fh3.matchHandlers, bind_ok] at hr
    obtain ⟨object, -, ⟨taken, s'⟩, hprocess, hr⟩ := hr
    cases taken with
    | true =>
      cases hr
      refine ⟨?_, ?_⟩
      · intro hnone
        cases hnone
      · intro h hfound
        cases hfound
        exact ⟨object, hprocess⟩
    | false =>
      have hskip : s' = s := processCatchBlock_skip hprocess
      rw [← hskip]
      exact ih hr

theorem fh3_matchTryBlocks_took {entry : X64.Fh3.Entry} {ts : List TryBlock} {ci : CatchInfo}
    {throwInfo : Option ThrowInfo} {r : X64.Fh3.Search} {block : TryBlock} {h : CatchHandler}
    (hthrown : Thrown env frames throwInfo ci ti)
    (hr : X64.Fh3.matchTryBlocks env frames entry ts ci throwInfo s = .ok r)
    (hfound : r.found = some (block, h)) : Took env entry.primaryFramePtr ti h s r.world := by
  induction ts generalizing ci throwInfo s with
  | nil =>
    cases hr
    cases hfound
  | cons t ts ih =>
    rw [X64.Fh3.matchTryBlocks] at hr
    split at hr
    · simp only [bind_ok] at hr
      obtain ⟨⟨ci', throwInfo'⟩, hprobe, ⟨handler, s'⟩, hmatch, hr⟩ := hr
      obtain rfl := hthrown.probed hprobe
      obtain ⟨hskip, htook⟩ := fh3_matchHandlers_took hmatch
      cases handler with
      | none =>
        rw [← hskip rfl]
        exact ih (thrown_known ci') hr
      | some h' =>
        cases hr
        cases hfound
        exact htook h rfl
    · exact ih hthrown hr

/-- The handlers of the try blocks around a state, in the order of the map. -/
def handlersAround (state : Int) (ts : List MapBlock) : List X64.Fh4.CatchBlock :=
  (ts.filter fun t => t.tryLow.toNat ≤ state.toNat ∧ state.toNat ≤ t.tryHigh.toNat).flatMap
    MapBlock.handlers

theorem takeHandlers_took {tryLow : BitVec 32} {blocks : List X64.Fh4.CatchBlock}
    {d d' : Dispatch} {found : Bool}
    (hr : takeHandlers env primaryFramePtr (some ti) tryLow blocks d = .ok (d', found)) :
    (blocks.find? (fun b => Matches ti (plain b)) = none →
      found = false ∧ d'.world = d.world ∧ d'.handler = d.handler) ∧
    ∀ b, blocks.find? (fun b => Matches ti (plain b)) = some b →
      d'.handler = displace env.imageBase b.handler ∧
        Took env primaryFramePtr ti (plain b) d.world d'.world := by
  induction blocks generalizing d with
  | nil =>
    cases hr
    refine ⟨fun _ => ⟨rfl, rfl, rfl⟩, fun b hfind => ?_⟩
    cases hfind
  | cons b blocks ih =>
    simp only [takeHandlers, bind_ok] at hr
    obtain ⟨ci, -, object, -, ⟨taken, s'⟩, hprocess, hr⟩ := hr
    obtain ⟨s'', hmatches⟩ := processCatchBlock_matches ti (plain b) env.code env.imageBase
      (displace primaryFramePtr b.catchVar) object d.world
    have htaken : taken = decide (Matches ti (plain b)) :=
      (Prod.mk.inj (Except.ok.inj (hprocess.symm.trans hmatches))).1
    subst htaken
    by_cases hmatch : Matches ti (plain b)
    · have hfind : (b :: blocks).find? (fun b => Matches ti (plain b)) = some b :=
        List.find?_cons_of_pos (decide_eq_true hmatch)
      rw [decide_eq_true hmatch] at hprocess
      simp only [decide_eq_true hmatch, if_true] at hr
      cases hr
      rw [hfind]
      refine ⟨?_, ?_⟩
      · intro hnone
        cases hnone
      · intro b' hb
        cases hb
        exact ⟨rfl, object, hprocess⟩
    · have hfind : (b :: blocks).find? (fun b => Matches ti (plain b)) =
          blocks.find? fun b => Matches ti (plain b) :=
        List.find?_cons_of_neg (by simpa using hmatch)
      rw [decide_eq_false hmatch] at hprocess
      simp only [decide_eq_false hmatch, Bool.false_eq_true, if_false] at hr
      have hskip : s' = d.world := processCatchBlock_skip hprocess
      rw [hfind, ← hskip]
      exact ih hr

theorem takeTryBlocks_took {state : Int} {ts : List MapBlock} {throwInfo : Option ThrowInfo}
    {r r' : X64.Fh4.Search} {b : X64.Fh4.CatchBlock} (hmapped : Mapped env.imageBase)
    (hthrown : Thrown env frames throwInfo r.dispatch.catchInfo ti)
    (hnull : r.dispatch.handler = null)
    (hr : takeTryBlocks env frames primaryFramePtr state ts throwInfo r = .ok r')
    (hfind : (handlersAround state ts).find? (fun b => Matches ti (plain b)) = some b) :
    Took env primaryFramePtr ti (plain b) r.dispatch.world r'.dispatch.world := by
  induction ts generalizing throwInfo r with
  | nil => cases hfind
  | cons t ts ih =>
    rw [takeTryBlocks] at hr
    split at hr
    · rename_i hrange
      apply ih hthrown hnull hr
      rwa [handlersAround, List.filter_cons_of_neg] at hfind
      simp only [decide_eq_true_eq]
      omega
    · rename_i hrange
      have hin : t.tryLow.toNat ≤ state.toNat ∧ state.toNat ≤ t.tryHigh.toNat := by omega
      rw [handlersAround, List.filter_cons_of_pos (by simpa using hin), List.flatMap_cons,
        List.find?_append] at hfind
      simp only [bind_ok] at hr
      obtain ⟨⟨ci, throwInfo'⟩, hprobe, ⟨d, found⟩, htake, hr⟩ := hr
      obtain rfl := hthrown.probed hprobe
      obtain ⟨hskip, htook⟩ := takeHandlers_took htake
      cases hfirst : t.handlers.find? fun b => Matches ti (plain b) with
      | some b' =>
        rw [hfirst] at hfind
        cases hfind
        obtain ⟨hhandler, htook⟩ := htook b hfirst
        rw [if_pos (hhandler ▸ hmapped b.handler)] at hr
        cases hr
        exact htook
      | none =>
        rw [hfirst, Option.none_or] at hfind
        obtain ⟨rfl, hworld, hhandler⟩ := hskip hfirst
        have hkeep : d.handler = null := hhandler.trans hnull
        rw [if_neg (not_not.mpr hkeep)] at hr
        have htook := ih (thrown_known _) hkeep hr hfind
        exact hworld ▸ htook

def Chosen (env : Env) (frames : List Frame) (f : FunctionFrame) (d : Dispatch) (ti : ThrowInfo)
    (h : CatchHandler) : Prop :=
  match f.ehData with
  | .none => False
  | .fh3 ehInfo => ∃ entry r t,
      X64.Fh3.enter env.imageBase f ehInfo d.catchInfo d.world.mem = .ok entry ∧
      X64.Fh3.search env frames ehInfo entry d = .ok r ∧ r.found = some (t, h)
  | .fh4 funcInfo =>
    let ehInfo := X64.Fh4.ehInfoOf env f funcInfo
    ∃ primaryFramePtr state r tryLow b,
      X64.Fh4.enter env f ehInfo d.catchInfo d.world.mem = .ok (primaryFramePtr, state) ∧
      X64.Fh4.search env frames f ehInfo primaryFramePtr state d = .ok r ∧
      r.found = some tryLow ∧
      (handlersAround state (tryBlocksOf env.image env.imageBase f.fnBegin ehInfo)).find?
        (fun b => Matches ti (plain b)) = some b ∧ h = plain b

theorem chosen_took {f : FunctionFrame} {d : Dispatch} {c : Selection} {actions : List Action}
    {h : CatchHandler} (hmapped : Mapped env.imageBase) (hnull : d.handler = null)
    (hthrown : ∀ throwInfo, d.catchInfo.getThrowInfo env.infoAt = .ok throwInfo →
      Thrown env frames throwInfo d.catchInfo ti)
    (hselects : Selects env frames f d c actions) (hchosen : Chosen env frames f d ti h) :
    ∃ primaryFramePtr, Took env primaryFramePtr ti h d.world c.dispatch.world := by
  cases hf : f.ehData with
  | none =>
    rw [Selects, hf] at hselects
    exact hselects.elim
  | fh3 ehInfo =>
    simp only [Selects, Chosen, hf] at hselects hchosen
    obtain ⟨entry, r, t, henter, hsearch, hfound⟩ := hchosen
    obtain ⟨entry', r', henter', hsearch', -, -, rfl⟩ := X64.Fh3.select_ok.mp hselects.1
    obtain rfl := Except.ok.inj (henter.symm.trans henter')
    obtain rfl := Except.ok.inj (hsearch.symm.trans hsearch')
    refine ⟨entry.primaryFramePtr, ?_⟩
    simp only [X64.Fh3.Search.dispatch, hfound]
    simp only [X64.Fh3.search, bind_ok] at hsearch
    obtain ⟨throwInfo, hthrow, hsearch⟩ := hsearch
    split at hsearch
    · cases hsearch
    · exact fh3_matchTryBlocks_took (hthrown _ hthrow) hsearch hfound
  | fh4 funcInfo =>
    simp only [Selects, Chosen, hf] at hselects hchosen
    obtain ⟨primaryFramePtr, state, r, tryLow, b, henter, hsearch, hfound, hfind, rfl⟩ := hchosen
    obtain ⟨primaryFramePtr', state', r', henter', hsearch', rfl⟩ :=
      X64.Fh4.select_ok.mp hselects.1
    obtain ⟨rfl, rfl⟩ := Prod.mk.inj (Except.ok.inj (henter.symm.trans henter'))
    obtain rfl := Except.ok.inj (hsearch.symm.trans hsearch')
    refine ⟨primaryFramePtr, ?_⟩
    by_cases hrun : (X64.Fh4.ehInfoOf env f funcInfo).tryBlocks ≠ 0 ∧ 0 ≤ state
    · rw [search_tryBlocksOf hrun.2 hrun.1] at hsearch
      obtain ⟨throwInfo, hthrow, hsearch⟩ := bind_ok.mp hsearch
      exact takeTryBlocks_took hmapped (hthrown _ hthrow) hnull hsearch hfind
    · rw [X64.Fh4.search, if_neg hrun] at hsearch
      cases hsearch
      cases hfound

end

theorem writesNothing_x86InitCatchVariable {code : Code 32} {frameAt : X86.ThrowFrame.FrameAt}
    {tf : X86.ThrowFrame.CxxThrowFrame} {frameBase : BitVec 32} {h : X86.EhStructs.CatchHandler}
    {c : Option X86.EhStructs.CatchableType} {s s' : World 32} (hvar : h.catchObjectOffset = 0)
    (hinit : X86.Handler.initCatchVariable code frameAt tf frameBase h c s = .ok s') :
    WritesNothing s s' ↔ hasAnyOf h.adjectives CatchFlag.isReference = false := by
  simp only [X86.Handler.initCatchVariable] at hinit
  cases href : hasAnyOf h.adjectives CatchFlag.isReference with
  | true =>
    rw [if_pos href] at hinit
    obtain ⟨object, -, hinit⟩ := bind_ok.mp hinit
    obtain rfl := pure_ok.mp hinit
    simp [writesNothing_perform]
  | false =>
    rw [if_neg (by simp [href])] at hinit
    have hsame : s' = s := by
      cases c with
      | none =>
        cases hinit
        rfl
      | some c =>
        simp only [if_neg (not_not.mpr hvar)] at hinit
        cases hinit
        rfl
    rw [hsame]
    exact iff_of_true (writesNothing_refl s) rfl

theorem fh3Handler_writesNothing_iff {code : Code 32} {v : X86.ThrowFrame.SehVerifier}
    {regs : List X86.ThrowFrame.SehRegistration} {frameAt : X86.ThrowFrame.FrameAt}
    {frameBase : BitVec 32} {ehInfo : X86.EhStructs.FunctionEhInfo} {unwoundState : Int}
    {d d' : X86.Handler.Dispatch} {tf : X86.ThrowFrame.CxxThrowFrame} {t : X86.EhStructs.TryBlock}
    {h : X86.EhStructs.CatchHandler} {c : Option X86.EhStructs.CatchableType} {s : World 32}
    (hfound : X86.Handler.matchTryBlocks v regs frameAt unwoundState
      (X86.Handler.frameState d.world.mem frameBase) ehInfo.tryBlocks d.throwFrame =
        .ok (tf, some (t, h, c)))
    (hvar : h.catchObjectOffset = 0)
    (hunwind : X86.Handler.unwindFrame code frameBase ehInfo t.tryLow d.world = .ok s)
    (hd : X86.Handler.fh3Handler code v regs frameAt frameBase ehInfo unwoundState d = .ok d') :
    WritesNothing (X86.Handler.setFrameState frameBase (t.tryHigh + 1) s) d'.world ↔
      hasAnyOf h.adjectives CatchFlag.isReference = false := by
  simp only [X86.Handler.fh3Handler] at hd
  split at hd
  · cases hd
  simp only [bind_ok] at hd
  obtain ⟨-, -, ⟨tf', found⟩, hmatch, hd⟩ := hd
  obtain ⟨rfl, rfl⟩ := Prod.mk.inj (Except.ok.inj (hfound.symm.trans hmatch))
  simp only [bind_ok] at hd
  obtain ⟨s', hunwind', s'', hinit, hd⟩ := hd
  obtain rfl := Except.ok.inj (hunwind.symm.trans hunwind')
  obtain rfl := pure_ok.mp hd
  exact writesNothing_x86InitCatchVariable hvar hinit

/-- A handler without a catch variable writes nothing, beside the cleanup and the frame's state,
exactly if it does not take a reference on x86, and if it has nothing to bind on x64. -/
theorem unnamed_writesNothing_iff (code : Code 32) (env : X64.DispatcherContext.Env) :
    (∀ (v : X86.ThrowFrame.SehVerifier) (regs : List X86.ThrowFrame.SehRegistration)
      (frameAt : X86.ThrowFrame.FrameAt) (frameBase : BitVec 32)
      (ehInfo : X86.EhStructs.FunctionEhInfo) (unwoundState : Int)
      (d d' : X86.Handler.Dispatch) (tf : X86.ThrowFrame.CxxThrowFrame)
      (t : X86.EhStructs.TryBlock) (h : X86.EhStructs.CatchHandler)
      (c : Option X86.EhStructs.CatchableType) (s : World 32),
      X86.Handler.matchTryBlocks v regs frameAt unwoundState
        (X86.Handler.frameState d.world.mem frameBase) ehInfo.tryBlocks d.throwFrame =
          .ok (tf, some (t, h, c)) →
      h.catchObjectOffset = 0 →
      X86.Handler.unwindFrame code frameBase ehInfo t.tryLow d.world = .ok s →
      X86.Handler.fh3Handler code v regs frameAt frameBase ehInfo unwoundState d = .ok d' →
      (WritesNothing (X86.Handler.setFrameState frameBase (t.tryHigh + 1) s) d'.world ↔
        hasAnyOf h.adjectives CatchFlag.isReference = false)) ∧
    (∀ (frames : List X64.CatchFrame.Frame) (f : X64.CatchFrame.FunctionFrame)
      (d : X64.DispatcherContext.Dispatch)
      (c : X64.DispatcherContext.Selection) (actions : List X64.Cleanup.Action)
      (ti : X64.EhStructs.ThrowInfo) (h : X64.EhStructs.CatchHandler),
      X64.EhStructs.Mapped env.imageBase → d.handler = X64.EhStructs.null →
      (∀ throwInfo, d.catchInfo.getThrowInfo env.infoAt = .ok throwInfo →
        Thrown env frames throwInfo d.catchInfo ti) →
      X64.Dispatch.Selects env frames f d c actions → Chosen env frames f d ti h →
      h.catchObjectOffset = 0 →
      (WritesNothing d.world c.dispatch.world ↔ BindsNothing env.imageBase ti h)) ∧
    ∀ (m : Mem 64) (imageBase q : X64.EhStructs.Ptr) (fnBegin : X64.EhStructs.Rva),
      hasAnyOf (m q) CatchBlockFlag.hasCatchVar = false →
      (X64.Fh4.readCatchBlock m imageBase fnBegin q).1.catchVar = 0 := by
  refine ⟨?_, ?_, ?_⟩
  · intro v regs frameAt frameBase ehInfo unwoundState d d' tf t h c s hfound hvar hunwind hd
    exact fh3Handler_writesNothing_iff hfound hvar hunwind hd
  · intro frames f d c actions ti h hmapped hnull hthrown hselects hchosen _
    obtain ⟨primaryFramePtr, htook⟩ := chosen_took hmapped hnull hthrown hselects hchosen
    exact htook.writesNothing_iff
  · intro m imageBase q fnBegin hflag
    simp only [X64.Fh4.readCatchBlock, hflag, Bool.false_eq_true, if_false]

def oneHandler (adjectives : BitVec 32) : X86.EhStructs.FunctionEhInfo :=
  ⟨0x19930520, [⟨-1, 0⟩], [⟨0, 0, 1, [⟨adjectives, 0x20, 0, 0x401000⟩]⟩], 0, 0⟩

def thrown86 : X86.Handler.Dispatch :=
  ⟨⟨none, 0, 0, 0x2000, some ⟨0, 0, [⟨1, 0x20, ⟨0, 0, 0⟩, 4, 0⟩]⟩⟩, 0, ⟨fun _ => 0, []⟩⟩

def code86 : Code 32 := fun _ m => m

def caught86 (adjectives : BitVec 32) : Exec X86.Handler.Dispatch :=
  X86.Handler.fh3Handler code86 ⟨0, 0, 0, []⟩ [] (fun _ => none) 0x5000 (oneHandler adjectives) (-1)
    thrown86

def env64 : X64.DispatcherContext.Env := ⟨fun _ m => m, 0x400000, fun _ => 0, fun _ => none⟩

def frame64 : X64.CatchFrame.FunctionFrame :=
  ⟨0x5000, 0x400010, 0x10,
    .fh3 ⟨[⟨-1, 0⟩], [⟨0, 0, 1, [⟨0, 0x20, 0, 0x60, 0⟩]⟩], [⟨0x10, 0⟩], 0⟩⟩

def throwInfo64 : X64.EhStructs.ThrowInfo := ⟨0, 0x70, [⟨0, 0x20, ⟨0, 0, 0⟩, 8, 0x80⟩]⟩

def thrown64 : X64.DispatcherContext.Dispatch :=
  ⟨⟨0, 0, 0, 0x800, some throwInfo64, 0⟩, X64.EhStructs.null, ⟨fun _ => 0, []⟩⟩

theorem unnamed_by_value :
    (∃ d', caught86 0 = .ok d' ∧
      (WritesNothing (X86.Handler.setFrameState 0x5000 1 thrown86.world) d'.world ↔
        hasAnyOf (0 : BitVec 32) CatchFlag.isReference = false)) ∧
    ∃ c actions, X64.Dispatch.Selects env64 [.function frame64] frame64 thrown64 c actions ∧
      (WritesNothing thrown64.world c.dispatch.world ↔
        BindsNothing 0x400000 throwInfo64 ⟨0, 0x20, 0, 0x60, 0⟩) := by
  obtain ⟨h86, h64, -⟩ := unnamed_writesNothing_iff code86 env64
  refine ⟨?_, ?_⟩
  · refine ⟨_, rfl, ?_⟩
    exact h86 ⟨0, 0, 0, []⟩ [] (fun _ => none) 0x5000 (oneHandler 0) (-1) thrown86 _ _
      ⟨0, 0, 1, [⟨0, 0x20, 0, 0x401000⟩]⟩ ⟨0, 0x20, 0, 0x401000⟩
      (some ⟨1, 0x20, ⟨0, 0, 0⟩, 4, 0⟩) _ rfl rfl rfl rfl
  · have hmapped : X64.EhStructs.Mapped env64.imageBase :=
      X64.EhStructs.mapped_of_le (by decide) (by decide)
    have hselects : ∃ c actions,
        X64.Dispatch.Selects env64 [.function frame64] frame64 thrown64 c actions :=
      ⟨_, _, ⟨rfl, rfl⟩⟩
    obtain ⟨c, actions, hselects⟩ := hselects
    refine ⟨c, actions, hselects, h64 _ frame64 thrown64 c actions throwInfo64 _ hmapped rfl ?_
      hselects ⟨_, _, _, rfl, rfl, rfl⟩ rfl⟩
    intro throwInfo hthrow
    cases hthrow
    exact thrown_known _

/-- `catch (T &)` overwrites the `ebp` of the caller, which is saved at the frame base. -/
theorem unnamed_reference_written : ∃ d', caught86 CatchFlag.isReference = .ok d' ∧
    d'.world.trace = [.reference 0x5000 0x2000] ∧
    readWord thrown86.world.mem 0x5000 = 0 ∧ readWord d'.world.mem 0x5000 = 0x2000 ∧
    ¬ WritesNothing (X86.Handler.setFrameState 0x5000 1 thrown86.world) d'.world := by
  refine ⟨_, rfl, rfl, rfl, rfl, fun h => ?_⟩
  obtain ⟨dst, src, heq⟩ := h.2 (.reference 0x5000 0x2000) (List.mem_singleton_self _)
  cases heq

end Vcrtl.UnnamedHandler

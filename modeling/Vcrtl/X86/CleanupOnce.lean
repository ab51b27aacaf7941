import Vcrtl.Lib.Lifetimes
import Vcrtl.X86.UnwindFrame

namespace Vcrtl.X86.CleanupOnce

open Lib.Memory Lib.Descent Lib.Runs Lib.Lifetimes BugCheck EhFlags EhStructs ThrowFrame
  CatchVariable Handler UnwindFrame

structure WellFormed (ehInfo : FunctionEhInfo) : Prop where
  graph : Descends ehInfo.unwindGraph
  low_nonneg : ∀ t ∈ ehInfo.tryBlocks, 0 ≤ t.tryLow
  base_lt : ∀ t ∈ ehInfo.tryBlocks, t.tryHigh + 1 < ehInfo.unwindGraph.length
  low_bare : ∀ t ∈ ehInfo.tryBlocks, cleanupOf ehInfo.unwindGraph t.tryLow.toNat = none
  base_next : ∀ t ∈ ehInfo.tryBlocks, nextState ehInfo.unwindGraph (t.tryHigh + 1).toNat =
    nextState ehInfo.unwindGraph t.tryLow.toNat
  handler_ne : ∀ t ∈ ehInfo.tryBlocks, ∀ h ∈ t.catchHandlers, h.handler ≠ null

/-- The states of a try block are those of the scopes inside it. -/
def Encloses (ehInfo : FunctionEhInfo) (g : Forest) : Prop :=
  ∀ t ∈ ehInfo.tryBlocks, ∀ state, t.tryLow ≤ state → state ≤ t.tryHigh →
    t.tryLow.toNat ∈ chain g state

/-- A handler that runs: its try block, and the frame in which its exception is caught. -/
structure Running where
  block : TryBlock
  addr : Ptr
  frame : CxxThrowFrame

/-- The frame of a function: the state it is in, and its handlers that run, from the
innermost one on. -/
structure Activity where
  state : Int
  running : List Running

def funcletOf : Effect 32 → Option Ptr
  | .funclet fn _ => some fn
  | .destroy _ _ | .destroyThrough _ _ _ | .reference _ _ | .memcpy _ _ _ | .copy _ _ _
  | .copyVb _ _ _ => none

/-- The cleanups that `_unwind_frame` has called between two worlds. -/
def cleanups (s t : World 32) : List Ptr := (t.trace.drop s.trace.length).filterMap funcletOf

/-- What was called between two worlds does not write to the state of the frame. -/
def Keeps (code : Code 32) (frameBase : Ptr) (s t : World 32) : Prop :=
  ∀ e ∈ t.trace.drop s.trace.length, ∀ m, frameState (code e m) frameBase = frameState m frameBase

def entering (running : List Running) (tf : CxxThrowFrame) : CxxThrowFrame :=
  match running with
  | [] => tf
  | r :: _ => enterCatchFrame r.addr r.frame tf

def unwoundState (running : List Running) : Int :=
  match running with
  | [] => -1
  | r :: _ => r.frame.unwoundState

section

variable (code : Code 32) (ehInfo : FunctionEhInfo) (frameBase : Ptr)

/-- An exception first meets the record of the handler that runs innermost, and only
without one that of the function. -/
def raise (v : SehVerifier) (regs : List SehRegistration) (frameAt : FrameAt)
    (running : List Running) (d : Dispatch) : Exec Dispatch :=
  match running with
  | [] => fh3PrimaryHandler code v regs frameAt ehInfo frameBase d
  | r :: _ => cxxCatchFrameHandler code v regs frameAt r.addr r.frame d

/-- What happens in the life of a frame, with the cleanups that the runtime calls. What the
function's code does in between may change all but the state. -/
inductive Step : Activity → Event Nat TryBlock × List Ptr → Activity → Prop
  | caught {v regs frameAt running d d' tf t h c addr} (hnull : d.handler = null)
      (hselect : matchTryBlocks v regs frameAt (unwoundState running)
        (frameState d.world.mem frameBase) ehInfo.tryBlocks (entering running d.throwFrame) =
          .ok (tf, some (t, h, c)))
      (hraise : raise code ehInfo frameBase v regs frameAt running d = .ok d')
      (hvariable : ∀ tf s, initCatchVariable code frameAt tf frameBase h c s = .ok d'.world →
        frameState d'.world.mem frameBase = frameState s.mem frameBase) :
      Step ⟨frameState d.world.mem frameBase, running⟩
        (.caught t t.tryLow.toNat (t.tryHigh + 1).toNat, cleanups d.world d'.world)
        ⟨frameState d'.world.mem frameBase, ⟨t, addr, d'.throwFrame⟩ :: running⟩
  | entered {running} {state : Int} {i : Nat} (hlt : i < ehInfo.unwindGraph.length)
      (hnext : nextState ehInfo.unwindGraph i = state)
      (hrange : ∀ r ∈ running.head?, r.block.tryHigh < (i : Int) ∧ (i : Int) ≤ r.block.catchHigh) :
      Step ⟨state, running⟩ (.entered i, []) ⟨i, running⟩
  | escaped {v regs frameAt r running d d'} (hnull : d.handler = null)
      (hraise : raise code ehInfo frameBase v regs frameAt (r :: running) d = .ok d')
      (hhandler : d'.handler = null) (hkeeps : Keeps code frameBase d.world d'.world) :
      Step ⟨frameState d.world.mem frameBase, r :: running⟩
        (.escaped, cleanups d.world d'.world) ⟨frameState d'.world.mem frameBase, running⟩
  | completed {state r running} :
      Step ⟨state, r :: running⟩ (.completed, [])
        ⟨nextState ehInfo.unwindGraph r.block.tryLow.toNat, running⟩
  | left {v regs frameAt d d'} (hnull : d.handler = null)
      (hraise : raise code ehInfo frameBase v regs frameAt [] d = .ok d')
      (hhandler : d'.handler = null) (hkeeps : Keeps code frameBase d.world d'.world) :
      Step ⟨frameState d.world.mem frameBase, []⟩ (.left, cleanups d.world d'.world)
        ⟨frameState d'.world.mem frameBase, []⟩

end

section

variable {code : Code 32} {v : SehVerifier} {regs : List SehRegistration} {frameAt : FrameAt}
  {frameBase : Ptr} {ehInfo : FunctionEhInfo} {d d' : Dispatch} {tf tf' : CxxThrowFrame}
  {s s' : World 32} {t : TryBlock} {h : CatchHandler} {c : Option CatchableType}

theorem matchHandlers_mem {hs : List CatchHandler}
    (hmatch : matchHandlers v regs frameAt hs tf = .ok (tf', some (h, c))) : h ∈ hs := by
  induction hs generalizing tf with
  | nil => cases hmatch
  | cons h' hs ih =>
    rw [matchHandlers] at hmatch
    split at hmatch
    · cases hmatch
      exact List.mem_cons_self
    · simp only [bind_ok] at hmatch
      obtain ⟨tf₁, -, throwInfo, -, hmatch⟩ := hmatch
      split at hmatch
      · cases hmatch
      · split at hmatch
        · cases hmatch
          exact List.mem_cons_self
        · exact List.mem_cons_of_mem _ (ih hmatch)

theorem matchTryBlocks_mem {unwound state : Int} {ts : List TryBlock}
    (hmatch : matchTryBlocks v regs frameAt unwound state ts tf = .ok (tf', some (t, h, c))) :
    t ∈ ts ∧ h ∈ t.catchHandlers ∧ unwound < t.tryLow ∧ t.tryLow ≤ state ∧ state ≤ t.tryHigh := by
  induction ts generalizing tf with
  | nil => cases hmatch
  | cons t' ts ih =>
    rw [matchTryBlocks] at hmatch
    split at hmatch
    · cases hmatch
    · rename_i hunwound
      split at hmatch
      · obtain ⟨hmem, hrest⟩ := ih hmatch
        exact ⟨List.mem_cons_of_mem _ hmem, hrest⟩
      · rename_i hrange
        simp only [bind_ok] at hmatch
        obtain ⟨⟨tf₁, found⟩, hhandlers, hmatch⟩ := hmatch
        cases found with
        | none =>
          obtain ⟨hmem, hrest⟩ := ih hmatch
          exact ⟨List.mem_cons_of_mem _ hmem, hrest⟩
        | some x =>
          cases hmatch
          exact ⟨List.mem_cons_self, matchHandlers_mem hhandlers, by omega, by omega, by omega⟩

theorem perform_trace (code : Code 32) (s : World 32) {e : Effect 32} (he : funcletOf e = none) :
    ∃ effects, (s.perform code e).trace = s.trace ++ effects ∧ ∀ e ∈ effects, funcletOf e = none :=
  ⟨[e], rfl, by simpa using he⟩

theorem initByValue_trace {properties size : BitVec 32} {offset : Displacement.PtrToMember}
    {copyFn : Option Ptr} {var object : Ptr} : ∃ effects,
      (initByValue code properties offset size copyFn var object s).trace = s.trace ++ effects ∧
        ∀ e ∈ effects, funcletOf e = none := by
  simp only [initByValue]
  split
  · have hmemcpy := perform_trace code s (e := .memcpy var object size.toNat) rfl
    split
    · split <;> exact hmemcpy
    · exact hmemcpy
  · cases copyFn with
    | none => exact perform_trace _ _ rfl
    | some fn =>
      simp only []
      split
      · exact perform_trace _ _ rfl
      · exact perform_trace _ _ rfl

theorem initCatchVariable_trace
    (hinit : initCatchVariable code frameAt tf frameBase h c s = .ok s') :
    ∃ effects, s'.trace = s.trace ++ effects ∧ ∀ e ∈ effects, funcletOf e = none := by
  simp only [initCatchVariable] at hinit
  split at hinit
  · simp only [bind_ok] at hinit
    obtain ⟨object, -, hinit⟩ := hinit
    cases hinit
    exact perform_trace _ _ rfl
  · cases c with
    | none =>
      cases hinit
      exact ⟨[], (List.append_nil _).symm, by simp⟩
    | some c =>
      simp only [] at hinit
      split at hinit
      · simp only [bind_ok] at hinit
        obtain ⟨object, -, hinit⟩ := hinit
        cases hinit
        exact initByValue_trace
      · cases hinit
        exact ⟨[], (List.append_nil _).symm, by simp⟩

theorem cleanups_eq (frameBase : Ptr) {as : List Ptr} {effects : List (Effect 32)}
    (htrace : s'.trace = s.trace ++ as.map (.funclet · frameBase) ++ effects)
    (hother : ∀ e ∈ effects, funcletOf e = none) : cleanups s s' = as := by
  have hnone : effects.filterMap funcletOf = [] := List.filterMap_eq_nil_iff.mpr hother
  have hsome : (as.map fun fn => Effect.funclet fn frameBase).filterMap funcletOf = as := by
    rw [List.filterMap_map]
    exact List.filterMap_some
  rw [cleanups, htrace, List.append_assoc, List.drop_left, List.filterMap_append, hnone, hsome,
    List.append_nil]

theorem fh3Handler_found {unwound : Int}
    (hmatch : matchTryBlocks v regs frameAt unwound (frameState d.world.mem frameBase)
      ehInfo.tryBlocks d.throwFrame = .ok (tf, some (t, h, c)))
    (hok : fh3Handler code v regs frameAt frameBase ehInfo unwound d = .ok d') :
    ∃ s tf', unwindFrame code frameBase ehInfo t.tryLow d.world = .ok s ∧
      initCatchVariable code frameAt tf' frameBase h c
        (setFrameState frameBase (t.tryHigh + 1) s) = .ok d'.world ∧
      d'.handler = h.handler ∧ d'.throwFrame.primaryFrameBase = frameBase ∧
      d'.throwFrame.ehInfo = some ehInfo ∧ d'.throwFrame.unwoundState = t.tryLow - 1 := by
  rw [fh3Handler] at hok
  split at hok
  · cases hok
  · simp only [bind_ok, hmatch] at hok
    obtain ⟨throwInfo, -, x, hx, hok⟩ := hok
    cases hx
    simp only [bind_ok] at hok
    obtain ⟨s, hunwind, s', hinit, hok⟩ := hok
    cases hok
    exact ⟨s, _, hunwind, hinit, rfl, rfl, rfl, rfl⟩

theorem fh3Handler_missed {unwound : Int} (hwf : WellFormed ehInfo)
    (hok : fh3Handler code v regs frameAt frameBase ehInfo unwound d = .ok d')
    (hhandler : d'.handler = null) :
    ∃ s, unwindFrame code frameBase ehInfo unwound d.world = .ok s ∧ d'.world = s := by
  rw [fh3Handler] at hok
  split at hok
  · cases hok
  · simp only [bind_ok] at hok
    obtain ⟨throwInfo, -, ⟨tf, found⟩, hmatch, hok⟩ := hok
    cases found with
    | some x =>
      obtain ⟨t, h, c⟩ := x
      obtain ⟨hmem, hmem', -⟩ := matchTryBlocks_mem hmatch
      simp only [bind_ok] at hok
      obtain ⟨s, -, s', -, hok⟩ := hok
      cases hok
      exact absurd hhandler (hwf.handler_ne t hmem h hmem')
    | none =>
      simp only [bind_ok] at hok
      obtain ⟨s, hunwind, hok⟩ := hok
      split at hok
      · cases hok
      · cases hok
        exact ⟨s, hunwind, rfl⟩

end

structure Recorded (ehInfo : FunctionEhInfo) (frameBase : Ptr) (r : Running) : Prop where
  mem : r.block ∈ ehInfo.tryBlocks
  range : r.block.tryLow ≤ r.block.tryHigh
  base : r.frame.primaryFrameBase = frameBase
  tables : r.frame.ehInfo = some ehInfo
  unwound : r.frame.unwoundState = r.block.tryLow - 1

section

variable {code : Code 32} {v : SehVerifier} {regs : List SehRegistration} {frameAt : FrameAt}
  {frameBase : Ptr} {ehInfo : FunctionEhInfo} {running : List Running} {d d' : Dispatch}
  {tf : CxxThrowFrame} {t : TryBlock} {h : CatchHandler} {c : Option CatchableType}

/-- Which record an exception meets makes no difference to a handler that is found. -/
theorem raise_found (hwf : WellFormed ehInfo)
    (hrecorded : ∀ r ∈ running, Recorded ehInfo frameBase r)
    (hselect : matchTryBlocks v regs frameAt (unwoundState running)
      (frameState d.world.mem frameBase) ehInfo.tryBlocks (entering running d.throwFrame) =
        .ok (tf, some (t, h, c)))
    (hraise : raise code ehInfo frameBase v regs frameAt running d = .ok d') :
    ∃ s tf', unwindFrame code frameBase ehInfo t.tryLow d.world = .ok s ∧
      initCatchVariable code frameAt tf' frameBase h c
        (setFrameState frameBase (t.tryHigh + 1) s) = .ok d'.world ∧
      d'.throwFrame.primaryFrameBase = frameBase ∧ d'.throwFrame.ehInfo = some ehInfo ∧
      d'.throwFrame.unwoundState = t.tryLow - 1 := by
  cases running with
  | nil =>
    simp only [raise, fh3PrimaryHandler] at hraise
    split at hraise
    · cases hraise
    · obtain ⟨s, tf', hunwind, hinit, -, hrest⟩ := fh3Handler_found hselect hraise
      exact ⟨s, tf', hunwind, hinit, hrest⟩
  | cons r running =>
    obtain ⟨-, -, hbase, htables, -⟩ := hrecorded r List.mem_cons_self
    simp only [raise, cxxCatchFrameHandler, htables, hbase, bind_ok] at hraise
    obtain ⟨d₁, hhandler, hraise⟩ := hraise
    obtain ⟨s, tf', hunwind, hinit, hh, hrest⟩ := fh3Handler_found
      (d := { d with throwFrame := enterCatchFrame r.addr r.frame d.throwFrame }) hselect hhandler
    obtain ⟨hmem, hmem', -⟩ := matchTryBlocks_mem hselect
    have hne : d₁.handler ≠ null := hh ▸ hwf.handler_ne t hmem h hmem'
    rw [if_neg hne] at hraise
    cases hraise
    exact ⟨s, tf', hunwind, hinit, hrest⟩

theorem destroy_spec (xs : List DestroyCall) (s : World 32) : ∃ effects,
    (xs.foldl (fun s x => s.perform code (.destroy x.destroyExcObj x.object)) s).trace =
      s.trace ++ effects ∧ (∀ e ∈ effects, funcletOf e = none) ∧
    ((∀ e ∈ effects, ∀ m, frameState (code e m) frameBase = frameState m frameBase) →
      frameState (xs.foldl (fun s x => s.perform code (.destroy x.destroyExcObj x.object)) s).mem
        frameBase = frameState s.mem frameBase) := by
  induction xs generalizing s with
  | nil => exact ⟨[], (List.append_nil _).symm, by simp, fun _ => rfl⟩
  | cons x xs ih =>
    obtain ⟨effects, htrace, hother, hstate⟩ :=
      ih (s.perform code (.destroy x.destroyExcObj x.object))
    refine ⟨.destroy x.destroyExcObj x.object :: effects, ?_, ?_, ?_⟩
    · rw [List.foldl_cons, htrace]
      exact List.append_assoc _ _ _
    · exact List.forall_mem_cons.mpr ⟨rfl, hother⟩
    · intro hkeeps
      obtain ⟨hfirst, hrest⟩ := List.forall_mem_cons.mp hkeeps
      exact (hstate hrest).trans (hfirst _)

/-- An exception without a handler leaves what was not left before. -/
theorem raise_missed (hwf : WellFormed ehInfo)
    (hrecorded : ∀ r ∈ running, Recorded ehInfo frameBase r)
    (hraise : raise code ehInfo frameBase v regs frameAt running d = .ok d')
    (hhandler : d'.handler = null) :
    ∃ s effects, unwindFrame code frameBase ehInfo (unwoundState running) d.world = .ok s ∧
      d'.world.trace = s.trace ++ effects ∧ (∀ e ∈ effects, funcletOf e = none) ∧
      ((∀ e ∈ effects, ∀ m, frameState (code e m) frameBase = frameState m frameBase) →
        frameState d'.world.mem frameBase = frameState s.mem frameBase) := by
  cases running with
  | nil =>
    simp only [raise, fh3PrimaryHandler] at hraise
    split at hraise
    · cases hraise
    · obtain ⟨s, hunwind, rfl⟩ := fh3Handler_missed hwf hraise hhandler
      exact ⟨_, [], hunwind, (List.append_nil _).symm, by simp, fun _ => rfl⟩
  | cons r running =>
    obtain ⟨-, -, hbase, htables, -⟩ := hrecorded r List.mem_cons_self
    simp only [raise, cxxCatchFrameHandler, htables, hbase, bind_ok] at hraise
    obtain ⟨d₁, hfh3, hraise⟩ := hraise
    split at hraise
    · rename_i hnull
      cases hraise
      obtain ⟨s, hunwind, rfl⟩ := fh3Handler_missed hwf hfh3 hnull
      obtain ⟨effects, htrace, hother, hstate⟩ :=
        destroy_spec (leaveCatchFrame r.addr r.frame d₁.throwFrame).2 d₁.world
      exact ⟨d₁.world, effects, hunwind, htrace, hother, hstate⟩
    · rename_i hne
      cases hraise
      exact absurd hhandler hne

end

/-- Below the scopes that a handler has entered are those around its try block, and below
these the same holds for the handler around it. -/
def Around (g : Forest) : List Nat → List (TryBlock × List Nat) → Prop
  | _, [] => True
  | live, (t, outer) :: rest => outer = chain g (g.next t.tryLow.toNat) ∧
      (∃ inner, live = inner ++ outer ∧ ∀ i ∈ inner, t.tryLow ≤ (i : Int)) ∧
      (∀ x ∈ rest.head?, x.1.tryLow ≤ t.tryLow) ∧ Around g outer rest

/-- The state of the frame stands for the scopes that are live. -/
structure Mirrors {ehInfo : FunctionEhInfo} (hwf : WellFormed ehInfo) (frameBase : Ptr)
    (a : Scopes Nat TryBlock) (x : Activity) : Prop where
  live : a.live = chain hwf.graph.forest x.state
  blocks : a.running.map Prod.fst = x.running.map Running.block
  around : Around hwf.graph.forest a.live a.running
  recorded : ∀ r ∈ x.running, Recorded ehInfo frameBase r
  bounds : -1 ≤ x.state ∧ x.state < ehInfo.unwindGraph.length

section

variable {g : Forest}

theorem lt_of_mem_outer {i j : Nat} (h : i ∈ chain g (g.next j)) : i < j := by
  have hle := le_of_mem_chain h
  have hlt := g.next_lt j
  omega

theorem split_of_not_mem {α : Type} {a b c d : List α} {x : α} (h : a ++ x :: b = c ++ d)
    (hx : x ∉ d) : ∃ l, c = a ++ x :: l ∧ b = l ++ d := by
  obtain ⟨l, hc, hd⟩ | ⟨l, -, hd⟩ := List.append_eq_append_iff.mp h
  · cases l with
    | nil =>
      rw [List.nil_append] at hd
      exact absurd (hd ▸ List.mem_cons_self) hx
    | cons y l =>
      obtain ⟨rfl, rfl⟩ := List.cons.inj hd
      exact ⟨l, hc, rfl⟩
  · exact absurd (hd ▸ List.mem_append_right _ List.mem_cons_self) hx

theorem Around.tail {inner outer : List Nat} {running : List (TryBlock × List Nat)} {low : Nat}
    (h : Around g (inner ++ low :: outer) running)
    (hlow : ∀ x ∈ running.head?, 0 ≤ x.1.tryLow ∧ x.1.tryLow ≤ (low : Int)) :
    Around g outer running := by
  cases running with
  | nil => trivial
  | cons x rest =>
    obtain ⟨t, around⟩ := x
    obtain ⟨rfl, ⟨left, hsplit, hleft⟩, hrest⟩ := h
    obtain ⟨hnonneg, hle⟩ := hlow (t, _) rfl
    have hout : low ∉ chain g (g.next t.tryLow.toNat) := by
      intro hmem
      have hlt := lt_of_mem_outer hmem
      simp only at hnonneg hle
      omega
    obtain ⟨l, rfl, rfl⟩ := split_of_not_mem hsplit hout
    refine ⟨rfl, ⟨l, rfl, ?_⟩, hrest⟩
    intro i hi
    exact hleft i (by simp [hi])

theorem Around.enter {live : List Nat} {running : List (TryBlock × List Nat)} {i : Nat}
    (h : Around g live running) (hlow : ∀ x ∈ running.head?, x.1.tryLow ≤ (i : Int)) :
    Around g (i :: live) running := by
  cases running with
  | nil => trivial
  | cons x rest =>
    obtain ⟨houter, ⟨inner, rfl, hinner⟩, hrest⟩ := h
    refine ⟨houter, ⟨i :: inner, rfl, ?_⟩, hrest⟩
    intro j hj
    obtain rfl | hj := List.mem_cons.mp hj
    · exact hlow x rfl
    · exact hinner j hj

end

section

variable {code : Code 32} {v : SehVerifier} {regs : List SehRegistration} {frameAt : FrameAt}
  {frameBase : Ptr} {ehInfo : FunctionEhInfo} {hwf : WellFormed ehInfo} {running : List Running}
  {d d' : Dispatch} {tf : CxxThrowFrame} {t : TryBlock} {h : CatchHandler}
  {c : Option CatchableType} {a : Scopes Nat TryBlock} {x x' : Activity}

theorem Mirrors.head (hmirrors : Mirrors hwf frameBase a x) {P : TryBlock → Prop}
    (hp : ∀ r ∈ x.running.head?, P r.block) : ∀ y ∈ a.running.head?, P y.1 := by
  intro y hy
  have hhead : some y.1 = x.running.head?.map Running.block := by
    rw [← List.head?_map, ← hmirrors.blocks, List.head?_map, Option.mem_def.mp hy]
    rfl
  obtain ⟨r, hr, hblock⟩ := Option.map_eq_some_iff.mp hhead.symm
  exact hblock ▸ hp r hr

theorem Mirrors.head_low {state : Int} (hmirrors : Mirrors hwf frameBase a ⟨state, running⟩)
    (hunwound : unwoundState running < t.tryLow) :
    ∀ y ∈ a.running.head?, 0 ≤ y.1.tryLow ∧ y.1.tryLow ≤ t.tryLow := by
  apply hmirrors.head (P := fun b => 0 ≤ b.tryLow ∧ b.tryLow ≤ t.tryLow)
  intro r hr
  obtain ⟨rs, rfl⟩ := List.head?_eq_some_iff.mp hr
  obtain ⟨hblock, -, -, -, hunwoundState⟩ := hmirrors.recorded r List.mem_cons_self
  rw [unwoundState, hunwoundState] at hunwound
  exact ⟨hwf.low_nonneg _ hblock, by omega⟩

theorem Mirrors.push {state : Int} {r : Running} (hencloses : Encloses ehInfo hwf.graph.forest)
    (hmirrors : Mirrors hwf frameBase a ⟨state, running⟩) (hr : Recorded ehInfo frameBase r)
    (hle : r.block.tryLow ≤ state) (hge : state ≤ r.block.tryHigh)
    (hunwound : unwoundState running < r.block.tryLow) :
    ∃ outer, a.live = above hwf.graph.forest r.block.tryLow state ++ r.block.tryLow.toNat :: outer ∧
      Mirrors hwf frameBase ⟨(r.block.tryHigh + 1).toNat :: outer, (r.block, outer) :: a.running⟩
        ⟨r.block.tryHigh + 1, r :: running⟩ := by
  have hnonneg := hwf.low_nonneg _ hr.mem
  have hbase := hwf.base_lt _ hr.mem
  have hlowNat : (r.block.tryLow.toNat : Int) = r.block.tryLow := Int.toNat_of_nonneg hnonneg
  have hbaseNat : ((r.block.tryHigh + 1).toNat : Int) = r.block.tryHigh + 1 :=
    Int.toNat_of_nonneg (by omega)
  have hhead := hmirrors.head_low hunwound
  obtain ⟨live, handlers⟩ := a
  obtain ⟨hlive, hblocks, haround, hrecorded, -⟩ := hmirrors
  have hsplit := chain_split (hencloses _ hr.mem _ hle hge)
  rw [chain_node, hlowNat] at hsplit
  simp only at hlive hblocks haround hhead
  rw [hsplit] at hlive
  subst hlive
  have htail := haround.tail (by rwa [hlowNat])
  refine ⟨_, rfl, ?_, congrArg (r.block :: ·) hblocks, ?_, ?_, ?_⟩
  · simp only
    rw [← hbaseNat, chain_node]
    exact congrArg (_ :: chain _ ·) (hwf.base_next _ hr.mem).symm
  · refine ⟨rfl, ⟨[_], rfl, ?_⟩, fun y hy => (hhead y hy).2, htail⟩
    intro i hi
    obtain rfl := List.mem_singleton.mp hi
    omega
  · intro r' hr'
    obtain rfl | hr' := List.mem_cons.mp hr'
    · exact hr
    · exact hrecorded r' hr'
  · simp only
    omega

theorem Mirrors.pop {state : Int} {r : Running}
    (hmirrors : Mirrors hwf frameBase a ⟨state, r :: running⟩) : ∃ inner outer handlers,
      a = ⟨inner ++ outer, (r.block, outer) :: handlers⟩ ∧
      outer = chain hwf.graph.forest (nextState ehInfo.unwindGraph r.block.tryLow.toNat) ∧
      (∀ i ∈ inner, r.block.tryLow ≤ (i : Int)) ∧
      ∀ state', outer = chain hwf.graph.forest state' →
        -1 ≤ state' ∧ state' < ehInfo.unwindGraph.length →
        Mirrors hwf frameBase ⟨outer, handlers⟩ ⟨state', running⟩ := by
  obtain ⟨live, _ | ⟨⟨t, outer⟩, handlers⟩⟩ := a
  · cases hmirrors.blocks
  obtain ⟨-, hblocks, ⟨houter, ⟨inner, hsplit, hinner⟩, -, haround⟩, hrecorded, -⟩ := hmirrors
  obtain ⟨rfl, hrest⟩ := List.cons.inj hblocks
  simp only at hsplit
  subst hsplit
  exact ⟨inner, outer, handlers, rfl, houter, hinner, fun state' hlive hbounds => ⟨hlive, hrest,
    haround, fun r hr => hrecorded r (List.mem_cons_of_mem _ hr), hbounds⟩⟩

theorem caught_mirrors (hencloses : Encloses ehInfo hwf.graph.forest)
    (hselect : matchTryBlocks v regs frameAt (unwoundState running)
      (frameState d.world.mem frameBase) ehInfo.tryBlocks (entering running d.throwFrame) =
        .ok (tf, some (t, h, c)))
    (hraise : raise code ehInfo frameBase v regs frameAt running d = .ok d')
    (hvariable : ∀ tf s, initCatchVariable code frameAt tf frameBase h c s = .ok d'.world →
      frameState d'.world.mem frameBase = frameState s.mem frameBase)
    (hmirrors : Mirrors hwf frameBase a ⟨frameState d.world.mem frameBase, running⟩) (addr : Ptr) :
    ∃ left a', Life a (.caught t t.tryLow.toNat (t.tryHigh + 1).toNat, left) a' ∧
      cleanups d.world d'.world = left.filterMap (cleanupOf ehInfo.unwindGraph) ∧
      Mirrors hwf frameBase a'
        ⟨frameState d'.world.mem frameBase, ⟨t, addr, d'.throwFrame⟩ :: running⟩ := by
  obtain ⟨hmem, -, hunwound, hle, hge⟩ := matchTryBlocks_mem hselect
  have hnonneg := hwf.low_nonneg t hmem
  have hbase := hwf.base_lt t hmem
  have hsize := hwf.graph.size
  obtain ⟨s, tf', hunwind, hinit, hframe, htables, hstate⟩ :=
    raise_found hwf hmirrors.recorded hselect hraise
  have htarget : -1 ≤ t.tryLow := by omega
  obtain ⟨s', hunwind', htrace⟩ :=
    unwindFrom_trace hwf.graph htarget hmirrors.bounds.2 hmirrors.bounds.2
  cases hunwind.symm.trans hunwind'
  obtain ⟨effects, hinitTrace, hother⟩ := initCatchVariable_trace hinit
  have hbaseState : frameState d'.world.mem frameBase = t.tryHigh + 1 := by
    rw [hvariable _ _ hinit]
    exact frameState_setFrameState (by omega) (by omega)
  obtain ⟨outer, hlive, hpush⟩ := hmirrors.push (r := ⟨t, addr, d'.throwFrame⟩) hencloses
    ⟨hmem, Int.le_trans hle hge, hframe, htables, hstate⟩ hle hge hunwound
  obtain ⟨live, handlers⟩ := a
  simp only at hlive
  subst hlive
  refine ⟨_, _, .caught ?_, ?_, hbaseState ▸ hpush⟩
  · intro hin
    have := lt_of_mem_above hin
    omega
  · have hbare : [t.tryLow.toNat].filterMap (cleanupOf ehInfo.unwindGraph) = [] := by
      rw [List.filterMap_cons, hwf.low_bare t hmem]
      rfl
    rw [List.filterMap_append, hbare, List.append_nil]
    apply cleanups_eq frameBase _ hother
    rw [hinitTrace, ← htrace]
    rfl

theorem missed_leaves (hwf : WellFormed ehInfo)
    (hrecorded : ∀ r ∈ running, Recorded ehInfo frameBase r)
    (hraise : raise code ehInfo frameBase v regs frameAt running d = .ok d')
    (hhandler : d'.handler = null) (hkeeps : Keeps code frameBase d.world d'.world)
    (hlow : -1 ≤ frameState d.world.mem frameBase)
    (hlt : frameState d.world.mem frameBase < ehInfo.unwindGraph.length)
    (hunwound : -1 ≤ unwoundState running) {inner outer : List Nat}
    (hsplit : chain hwf.graph.forest (frameState d.world.mem frameBase) = inner ++ outer)
    (hinner : ∀ i ∈ inner, unwoundState running < i)
    (houter : ∀ i ∈ outer, (i : Int) ≤ unwoundState running) :
    cleanups d.world d'.world = inner.filterMap (cleanupOf ehInfo.unwindGraph) ∧
      chain hwf.graph.forest (frameState d'.world.mem frameBase) = outer ∧
      -1 ≤ frameState d'.world.mem frameBase ∧
      frameState d'.world.mem frameBase < ehInfo.unwindGraph.length := by
  obtain ⟨s, effects, hunwind, hdestroy, hother, hstate⟩ :=
    raise_missed hwf hrecorded hraise hhandler
  obtain ⟨s', hunwind', htrace⟩ := unwindFrom_trace hwf.graph hunwound hlt hlt
  cases hunwind.symm.trans hunwind'
  rw [Keeps, hdestroy, htrace, List.append_assoc, List.drop_left, List.forall_mem_append]
    at hkeeps
  obtain ⟨hchain, hbounds⟩ := unwindFrom_state hwf.graph hunwound hlow hlt hunwind rfl
    fun fn hfn => hkeeps.1 _ (List.mem_map_of_mem hfn)
  rw [above_of_split hsplit hinner houter] at htrace hchain
  rw [hstate hkeeps.2]
  refine ⟨?_, (List.append_cancel_left (hsplit.symm.trans hchain)).symm, hbounds⟩
  refine cleanups_eq frameBase ?_ hother
  rw [hdestroy, htrace]

/-- Whatever happens to the frame happens to the scopes that its state stands for. -/
theorem Step.mirrored {e : Event Nat TryBlock × List Ptr}
    (hencloses : Encloses ehInfo hwf.graph.forest)
    (hstep : Step code ehInfo frameBase x e x') (hmirrors : Mirrors hwf frameBase a x) :
    ∃ left a', Life a (e.1, left) a' ∧ e.2 = left.filterMap (cleanupOf ehInfo.unwindGraph) ∧
      Mirrors hwf frameBase a' x' := by
  cases hstep with
  | caught hnull hselect hraise hvariable =>
    exact caught_mirrors hencloses hselect hraise hvariable hmirrors _
  | @entered running state i hlt hnext hrange =>
    have hhead := hmirrors.head (P := fun b => b.tryLow ≤ i) fun r hr => by
      have := (hmirrors.recorded r (List.mem_of_mem_head? hr)).range
      have := (hrange r hr).1
      omega
    obtain ⟨live, handlers⟩ := a
    obtain ⟨hlive, hblocks, haround, hrecorded, -⟩ := hmirrors
    refine ⟨[], _, .entered, rfl, ?_, hblocks, haround.enter hhead, hrecorded, ?_⟩
    · rw [chain_node]
      exact congrArg (i :: ·) (hlive.trans (congrArg _ hnext.symm))
    · simp only
      omega
  | @escaped _ _ _ r running d d' hnull hraise hhandler hkeeps =>
    obtain ⟨inner, outer, handlers, rfl, houter, hinner, hpop⟩ := hmirrors.pop
    obtain ⟨hmem, -, -, -, hunwound⟩ := hmirrors.recorded r List.mem_cons_self
    have hnonneg := hwf.low_nonneg _ hmem
    have hunwoundState : unwoundState (r :: running) = r.block.tryLow - 1 := hunwound
    have habove : ∀ i ∈ inner, unwoundState (r :: running) < (i : Int) := by
      intro i hi
      have := hinner i hi
      omega
    have hbelow : ∀ i ∈ outer, (i : Int) ≤ unwoundState (r :: running) := by
      intro i hi
      have : i < r.block.tryLow.toNat := lt_of_mem_outer (houter ▸ hi)
      omega
    have htarget : -1 ≤ unwoundState (r :: running) := by omega
    obtain ⟨hcleanups, hchain, hbounds⟩ := missed_leaves hwf hmirrors.recorded hraise
      hhandler hkeeps hmirrors.bounds.1 hmirrors.bounds.2 htarget hmirrors.live.symm habove hbelow
    exact ⟨inner, _, .escaped, hcleanups, hpop _ hchain.symm hbounds⟩
  | @completed state r running =>
    obtain ⟨inner, outer, handlers, rfl, houter, -, hpop⟩ := hmirrors.pop
    obtain ⟨hmem, hrange, -⟩ := hmirrors.recorded r List.mem_cons_self
    have hnonneg := hwf.low_nonneg _ hmem
    have hbase := hwf.base_lt _ hmem
    have hnext := nextState_lt hwf.graph r.block.tryLow.toNat
    exact ⟨[], _, .completed, rfl, hpop _ houter ⟨neg_one_le_nextState hwf.graph _, by omega⟩⟩
  | @left _ _ _ d d' hnull hraise hhandler hkeeps =>
    obtain ⟨live, _ | ⟨y, handlers⟩⟩ := a
    · obtain ⟨hlive, -, -, hrecorded, hlow, hlt⟩ := hmirrors
      obtain ⟨hcleanups, hchain, hbounds⟩ := missed_leaves hwf hrecorded hraise hhandler hkeeps
        hlow hlt (Int.le_refl _) (hlive.symm.trans (List.append_nil live).symm)
        (fun i _ => by simp only [unwoundState]; omega) (by simp)
      exact ⟨live, _, .left, hcleanups, hchain.symm, rfl, trivial, by simp, hbounds⟩
    · cases hmirrors.blocks

end

/-- Over the life of a frame the runtime calls, in order, the cleanups of the scopes that its
exceptions leave, and leaves no scope more often than it was entered. -/
theorem unwinds_live_scopes {code : Code 32} {ehInfo : FunctionEhInfo} {frameBase : Ptr}
    (hwf : WellFormed ehInfo) (hencloses : Encloses ehInfo hwf.graph.forest) {state : Int}
    (hlow : -1 ≤ state) (hlt : state < ehInfo.unwindGraph.length)
    {tr : List (Activity × (Event Nat TryBlock × List Ptr))} {x : Activity}
    (hrun : Run (Step code ehInfo frameBase) ⟨state, []⟩ tr x) :
    ∃ life a, Run Life ⟨chain hwf.graph.forest state, []⟩ life a ∧
      tr.map Prod.snd =
        life.map (fun p => (p.2.1, p.2.2.filterMap (cleanupOf ehInfo.unwindGraph))) ∧
      a.live = chain hwf.graph.forest x.state ∧
      ∀ i, (life.flatMap fun p => p.2.2).count i + a.live.count i ≤
        (chain hwf.graph.forest state).count i + (life.flatMap fun p => p.2.1.enters).count i := by
  have hinit : Mirrors hwf frameBase ⟨chain hwf.graph.forest state, []⟩ ⟨state, []⟩ :=
    ⟨rfl, rfl, trivial, by simp, hlow, hlt⟩
  obtain ⟨life, a, hlife, hlook, hmirrors⟩ := run_simulates
    (fun x a => Mirrors hwf frameBase a x)
    (fun e : Event Nat TryBlock × List Nat => (e.1, e.2.filterMap (cleanupOf ehInfo.unwindGraph)))
    hinit
    (by
      intro x e x' a hmirrors hstep
      obtain ⟨left, a', hlife, hcleanups, hmirrors'⟩ := hstep.mirrored hencloses hmirrors
      exact ⟨(e.1, left), a', hlife, Prod.ext rfl hcleanups.symm, hmirrors'⟩) hrun
  exact ⟨life, a, hlife, hlook, hmirrors.live, run_count_le hlife⟩

def inState (state : Int) : World 32 := setFrameState 0x1000 state ⟨fun _ => 0, []⟩

def thrown : CxxThrowFrame := ⟨none, 0, 0, 0x2000, some ⟨0, 0, []⟩⟩

def catchAll : TryBlock := ⟨1, 2, 3, [⟨CatchFlag.isEllipsis, 0, 0, 0x403000⟩]⟩

/-- A scope, a try block in it, and in the block a scope that is entered from `next`. -/
def scopes (next : Int) : FunctionEhInfo where
  magic := 0x19930522
  unwindGraph := [⟨-1, 0x401000⟩, ⟨0, null⟩, ⟨next, 0x402000⟩, ⟨0, null⟩]
  tryBlocks := [catchAll]
  esTypes := 0
  ehFlags := 0

def caughtFrame (next : Int) : CxxThrowFrame := { thrown with
  primaryFrameBase := 0x1000
  ehInfo := some (scopes next)
  unwoundState := 0 }

theorem scopes_wellFormed {next : Int} (h : next = -1 ∨ next = 1) : WellFormed (scopes next) := by
  obtain rfl | rfl := h
  · exact ⟨⟨by decide, by decide⟩, by decide, by decide, by decide, by decide, by decide⟩
  · exact ⟨⟨by decide, by decide⟩, by decide, by decide, by decide, by decide, by decide⟩

theorem scopes_caught {next : Int} (h : next = -1 ∨ next = 1) :
    Step (fun _ m => m) (scopes next) 0x1000 ⟨2, []⟩ (.caught catchAll 1 3, [0x402000])
      ⟨3, [⟨catchAll, 0x3000, caughtFrame next⟩]⟩ := by
  obtain ⟨d', hraise, hframe, hstate, hcalls⟩ : ∃ d', raise (fun _ m => m) (scopes next) 0x1000
      ⟨0, 0, 0, []⟩ [] (fun _ => none) [] ⟨thrown, null, inState 2⟩ = .ok d' ∧
      d'.throwFrame = caughtFrame next ∧ frameState d'.world.mem 0x1000 = 3 ∧
      cleanups (inState 2) d'.world = [0x402000] := by
    obtain rfl | rfl := h
    · exact ⟨_, rfl, rfl, by decide +kernel, by decide⟩
    · exact ⟨_, rfl, rfl, by decide +kernel, by decide⟩
  have hstart : frameState (inState 2).mem 0x1000 = 2 := by decide +kernel
  have hvariable (tf : CxxThrowFrame) (s : World 32) (hinit : initCatchVariable (fun _ m => m)
      (fun _ => none) tf 0x1000 ⟨CatchFlag.isEllipsis, 0, 0, 0x403000⟩ none s = .ok d'.world) :
      frameState d'.world.mem 0x1000 = frameState s.mem 0x1000 := by
    rw [← Except.ok.inj hinit]
  have hstep : Step _ _ _ _ _ ⟨_, ⟨catchAll, 0x3000, _⟩ :: _⟩ :=
    Step.caught rfl rfl hraise hvariable
  rwa [hstart, hframe, hstate, hcalls] at hstep

theorem scopes_left {next : Int} (h : next = -1 ∨ next = 1) :
    Step (fun _ m => m) (scopes next) 0x1000 ⟨0, []⟩ (.left, [0x401000]) ⟨-1, []⟩ := by
  obtain ⟨d', hraise, hnull, hstate, hcalls⟩ : ∃ d', raise (fun _ m => m) (scopes next) 0x1000
      ⟨0, 0, 0, []⟩ [] (fun _ => none) [] ⟨thrown, null, inState 0⟩ = .ok d' ∧
      d'.handler = null ∧ frameState d'.world.mem 0x1000 = -1 ∧
      cleanups (inState 0) d'.world = [0x401000] := by
    obtain rfl | rfl := h
    · exact ⟨_, rfl, rfl, by decide +kernel, by decide⟩
    · exact ⟨_, rfl, rfl, by decide +kernel, by decide⟩
  have hstart : frameState (inState 0).mem 0x1000 = 0 := by decide +kernel
  have hstep := Step.left rfl hraise hnull fun _ _ _ => rfl
  rwa [hstart, hstate, hcalls] at hstep

theorem scopes_escaped : Step (fun _ m => m) (scopes 1) 0x1000
    ⟨3, [⟨catchAll, 0x3000, caughtFrame 1⟩]⟩ (.escaped, []) ⟨0, []⟩ := by
  obtain ⟨d', hraise, hnull, hstate, hcalls⟩ : ∃ d', raise (fun _ m => m) (scopes 1) 0x1000
      ⟨0, 0, 0, []⟩ [] (fun _ => none) [⟨catchAll, 0x3000, caughtFrame 1⟩]
      ⟨thrown, null, inState 3⟩ = .ok d' ∧
      d'.handler = null ∧ frameState d'.world.mem 0x1000 = 0 ∧
      cleanups (inState 3) d'.world = [] :=
    ⟨_, rfl, rfl, by decide +kernel, by decide⟩
  have hstart : frameState (inState 3).mem 0x1000 = 3 := by decide +kernel
  have hstep := Step.escaped rfl hraise hnull fun _ _ _ => rfl
  rwa [hstart, hstate, hcalls] at hstep

/-- A scope, a try block in it and a scope in the block, left by two exceptions. -/
theorem unwinds_live_scopes_escaped :
    let hwf := scopes_wellFormed (.inr rfl)
    ∃ tr x, Run (Step (fun _ m => m) (scopes 1) 0x1000) ⟨2, []⟩ tr x ∧
      tr.map (fun p => p.2.2) = [[0x402000], [], [0x401000]] ∧
      ∃ life a, Run Life ⟨chain hwf.graph.forest 2, []⟩ life a ∧
        tr.map Prod.snd =
          life.map (fun p => (p.2.1, p.2.2.filterMap (cleanupOf (scopes 1).unwindGraph))) ∧
        a.live = chain hwf.graph.forest x.state ∧
        ∀ i, (life.flatMap fun p => p.2.2).count i + a.live.count i ≤
          (chain hwf.graph.forest 2).count i + (life.flatMap fun p => p.2.1.enters).count i := by
  intro hwf
  have hrun := ((Run.nil.snoc (scopes_caught (.inr rfl))).snoc scopes_escaped).snoc
    (scopes_left (.inr rfl))
  have hencloses : Encloses (scopes 1) hwf.graph.forest := by
    intro t ht state hlow hhigh
    obtain rfl := List.mem_singleton.mp ht
    obtain rfl | rfl : state = 1 ∨ state = 2 := by
      simp only [catchAll] at hlow hhigh
      omega
    · simp [chain, Descends.forest, nextState, scopes, catchAll]
    · simp [chain, Descends.forest, nextState, scopes, catchAll]
  exact ⟨_, _, hrun, rfl,
    unwinds_live_scopes hwf hencloses (by decide) (by decide) hrun⟩

/-- A state of a try block that is not inside its lowest one: the handler completes into a
scope that was never entered, and its cleanup is called. -/
theorem dead_scope_unwound :
    ∃ (hwf : WellFormed (scopes (-1))) (tr : _) (x : _),
      (∀ (e : Effect 32) m, frameState ((fun _ m => m : Code 32) e m) 0x1000 =
        frameState m 0x1000) ∧
      Run (Step (fun _ m => m) (scopes (-1)) 0x1000) ⟨2, []⟩ tr x ∧
      tr.map Prod.snd =
        [(.caught catchAll 1 3, [0x402000]), (.completed, []), (.left, [0x401000])] ∧
      chain hwf.graph.forest 2 = [2] ∧
      ¬ ∃ life a, Run Life ⟨chain hwf.graph.forest 2, []⟩ life a ∧
        tr.map Prod.snd =
          life.map (fun p => (p.2.1, p.2.2.filterMap (cleanupOf (scopes (-1)).unwindGraph))) := by
  have hwf := scopes_wellFormed (.inl rfl)
  have hchain : chain hwf.graph.forest 2 = [2] := by
    simp [chain, Descends.forest, nextState, scopes]
  have hrun := ((Run.nil.snoc (scopes_caught (.inl rfl))).snoc .completed).snoc
    (scopes_left (.inl rfl))
  refine ⟨hwf, _, _, fun _ _ => rfl, hrun, rfl, hchain, ?_⟩
  rintro ⟨life, a, hlife, hlook⟩
  change [(Event.caught catchAll 1 3, [0x402000]), (.completed, []), (.left, [0x401000])] = _
    at hlook
  have hentered : life.flatMap (fun p => p.2.1.enters) = [3] := by
    have hmap := congrArg (List.flatMap fun e : Event Nat TryBlock × List Ptr => e.1.enters) hlook
    simp only [List.flatMap_map] at hmap
    exact hmap.symm
  obtain ⟨p, hp, heq⟩ : ∃ p ∈ life, (p.2.1, p.2.2.filterMap
      (cleanupOf (scopes (-1)).unwindGraph)) = (Event.left, [0x401000]) := by
    rw [← List.mem_map, ← hlook]
    simp
  obtain ⟨i, hi, hcleanup⟩ : ∃ i ∈ p.2.2, cleanupOf (scopes (-1)).unwindGraph i =
      some 0x401000 := by
    rw [← List.mem_filterMap, (Prod.mk.inj heq).2]
    exact List.mem_singleton.mpr rfl
  obtain rfl : i = 0 := by
    obtain _ | _ | _ | _ | i := i <;> simp [cleanupOf, scopes, null] at hcleanup ⊢
  have hleft : 0 ∈ life.flatMap fun p => p.2.2 := List.mem_flatMap.mpr ⟨p, hp, hi⟩
  have hcount := run_count_le hlife 0
  rw [hentered, hchain] at hcount
  have := List.count_pos_iff.mpr hleft
  simp only [List.count_cons, List.count_nil, Nat.reduceBEq, Bool.false_eq_true, if_false]
    at hcount
  omega

end Vcrtl.X86.CleanupOnce

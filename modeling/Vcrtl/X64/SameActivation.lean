import Vcrtl.X64.Dispatch

namespace Vcrtl.X64.SameActivation

open BugCheck EhStructs Throw CatchFrame CatchVariable DispatcherContext Dispatch

/-- What a walk goes on with when it leaves a catch. -/
def saved (ci : CatchInfo) : Ptr × BitVec 64 := (ci.primaryFramePtr, ci.unwindContext)

/-- What a walk has after some frames: what the last catch among them had saved. -/
def savedIn : List Frame → Ptr × BitVec 64 → Ptr × BitVec 64
  | [], x => x
  | .callCatch _ info :: rest, _ => savedIn rest (saved info)
  | .function _ :: rest, x => savedIn rest x
  | .seh :: rest, x => savedIn rest x

theorem savedIn_append (frames frames' : List Frame) (x : Ptr × BitVec 64) :
    savedIn (frames ++ frames') x = savedIn frames' (savedIn frames x) := by
  induction frames generalizing x with
  | nil => rfl
  | cons frame rest ih => cases frame <;> exact ih _

theorem savedIn_mem (frames : List Frame) (x : Ptr × BitVec 64) :
    savedIn frames x = x ∨
      ∃ framePtr info, .callCatch framePtr info ∈ frames ∧ savedIn frames x = saved info := by
  induction frames generalizing x with
  | nil => exact .inl rfl
  | cons frame rest ih =>
    cases frame with
    | function f =>
      apply (ih x).imp_right
      rintro ⟨framePtr, info, hmem, heq⟩
      exact ⟨framePtr, info, List.mem_cons_of_mem _ hmem, heq⟩
    | seh =>
      apply (ih x).imp_right
      rintro ⟨framePtr, info, hmem, heq⟩
      exact ⟨framePtr, info, List.mem_cons_of_mem _ hmem, heq⟩
    | callCatch framePtr info =>
      right
      obtain heq | ⟨framePtr', info', hmem, heq⟩ := ih (saved info)
      · exact ⟨framePtr, info, List.mem_cons_self, heq⟩
      · exact ⟨framePtr', info', List.mem_cons_of_mem _ hmem, heq⟩

section

variable {env : Env} {frames : List Frame} {f : FunctionFrame} {d : Dispatch}

theorem probeUnless_saved {infoAt : InfoAt} {throwInfo : Option ThrowInfo} {ci : CatchInfo}
    {x : CatchInfo × Option ThrowInfo} (h : probeUnless infoAt frames throwInfo ci = .ok x) :
    saved x.1 = saved ci := by
  obtain ⟨link, hlink⟩ := probeUnless_link h
  rw [hlink]
  rfl

theorem fh3_matchTryBlocks_saved {entry : Fh3.Entry} {tryBlocks : List TryBlock} {ci : CatchInfo}
    {throwInfo : Option ThrowInfo} {s : World 64} {r : Fh3.Search}
    (h : Fh3.matchTryBlocks env frames entry tryBlocks ci throwInfo s = .ok r) :
    saved r.catchInfo = saved ci := by
  induction tryBlocks generalizing ci throwInfo s with
  | nil =>
    cases h
    rfl
  | cons t ts ih =>
    rw [Fh3.matchTryBlocks] at h
    split at h
    · simp only [bind_ok] at h
      obtain ⟨⟨ci', throwInfo'⟩, hprobe, ⟨handler, s'⟩, -, h⟩ := h
      have hci := probeUnless_saved hprobe
      cases handler with
      | none => exact (ih h).trans hci
      | some handler =>
        cases h
        exact hci
    · exact ih h

theorem fh3_saved {ehInfo : FunctionEhInfo} {c : Selection} (hmapped : Mapped env.imageBase)
    (h : Fh3.select env frames f ehInfo d = .ok c) (hhandler : c.dispatch.handler = null) :
    saved c.dispatch.catchInfo = saved d.catchInfo := by
  obtain ⟨entry, r, -, hsearch, -, -, rfl⟩ := Fh3.select_ok.mp h
  cases hfound : r.found with
  | none =>
    simp only [Fh3.Search.dispatch, hfound]
    simp only [Fh3.search, bind_ok] at hsearch
    obtain ⟨throwInfo, -, hsearch⟩ := hsearch
    split at hsearch
    · cases hsearch
    · exact fh3_matchTryBlocks_saved hsearch
  | some x =>
    simp only [Fh3.Search.dispatch, hfound] at hhandler
    exact absurd hhandler (hmapped _)

theorem setContinuationAddress_saved {ci ci' : CatchInfo} {addresses : List Ptr}
    (h : Fh4.setContinuationAddress ci addresses = .ok ci') : saved ci' = saved ci := by
  rw [Fh4.setContinuationAddress.eq_def] at h
  split at h
  · cases h
    rfl
  · cases h
    rfl
  · cases h
    rfl
  · cases h

theorem fh4_matchHandlers_saved {primaryFramePtr q : Ptr} {throwInfo : Option ThrowInfo}
    {tryLow : BitVec 32} {count : Nat} {x : Dispatch × Bool} (hmapped : Mapped env.imageBase)
    (h : Fh4.matchHandlers env f primaryFramePtr throwInfo tryLow count q d = .ok x)
    (hhandler : x.1.handler = null) : saved x.1.catchInfo = saved d.catchInfo := by
  induction count generalizing q d with
  | zero =>
    cases h
    rfl
  | succ count ih =>
    simp only [Fh4.matchHandlers, bind_ok] at h
    obtain ⟨ci, hci, object, -, ⟨found, s⟩, -, h⟩ := h
    have hkeep : saved ci = saved d.catchInfo := setContinuationAddress_saved hci
    cases found with
    | true =>
      cases h
      exact absurd hhandler (hmapped _)
    | false => exact (ih h).trans hkeep

theorem fh4_matchTryBlocks_saved {primaryFramePtr p : Ptr} {state : Int}
    {throwInfo : Option ThrowInfo} {count : Nat} {r r' : Fh4.Search}
    (hmapped : Mapped env.imageBase)
    (h : Fh4.matchTryBlocks env frames f primaryFramePtr state count p throwInfo r = .ok r')
    (hhandler : r'.dispatch.handler = null) :
    saved r'.dispatch.catchInfo = saved r.dispatch.catchInfo := by
  induction count generalizing p throwInfo r with
  | zero =>
    cases h
    rfl
  | succ count ih =>
    simp only [Fh4.matchTryBlocks] at h
    split at h
    · exact ih h
    · simp only [bind_ok] at h
      obtain ⟨⟨ci, throwInfo'⟩, hprobe, ⟨d', found⟩, hmatch, h⟩ := h
      have hci : saved ci = saved r.dispatch.catchInfo := probeUnless_saved hprobe
      split at h
      · rename_i hfound
        cases h
        exact absurd hhandler hfound
      · rename_i hnone
        have hd := fh4_matchHandlers_saved hmapped hmatch (not_not.mp hnone)
        exact (ih h).trans (hd.trans hci)

theorem fh4_saved {ehInfo : Fh4.EhInfo} {c : Selection} (hmapped : Mapped env.imageBase)
    (h : Fh4.select env frames f ehInfo d = .ok c) (hhandler : c.dispatch.handler = null) :
    saved c.dispatch.catchInfo = saved d.catchInfo := by
  obtain ⟨primaryFramePtr, state, r, -, hsearch, rfl⟩ := Fh4.select_ok.mp h
  rw [Fh4.search] at hsearch
  split at hsearch
  · simp only [bind_ok] at hsearch
    obtain ⟨throwInfo, -, hsearch⟩ := hsearch
    exact fh4_matchTryBlocks_saved hmapped hsearch hhandler
  · cases hsearch
    rfl

theorem executeHandler_saved {frame : Frame} {d₁ : Dispatch} (hmapped : Mapped env.imageBase)
    (h : executeHandler env frames frame d = .ok d₁) (hhandler : d₁.handler = null) :
    saved d₁.catchInfo = savedIn [frame] (saved d.catchInfo) := by
  cases frame with
  | function f =>
    cases hdata : f.ehData with
    | none =>
      simp only [executeHandler, hdata] at h
      cases h
      rfl
    | fh3 ehInfo =>
      obtain ⟨c, actions, hselects, rfl⟩ := (executeHandler_function (by simp [hdata])).mp h
      simp only [Selects, hdata] at hselects
      exact fh3_saved hmapped hselects.1 hhandler
    | fh4 funcInfo =>
      obtain ⟨c, actions, hselects, rfl⟩ := (executeHandler_function (by simp [hdata])).mp h
      simp only [Selects, hdata] at hselects
      exact fh4_saved hmapped hselects.1 hhandler
  | callCatch framePtr info =>
    simp only [executeHandler, bind_ok] at h
    obtain ⟨⟨disposition, ci, calls⟩, hcall, -, -, h⟩ := h
    cases h
    obtain ⟨hprimary, hcontext⟩ := callCatch_resumes hcall
    exact Prod.ext hprimary hcontext
  | seh =>
    simp only [executeHandler, bind_ok] at h
    obtain ⟨disposition, -, -, -, h⟩ := h
    cases h
    rfl

/-- A walk has what the frames it passed had saved. -/
theorem visits_saved {frames' : List Frame} {d' : Dispatch} (hmapped : Mapped env.imageBase)
    (h : Visits env frames d frames' d') :
    ∃ passed, frames = passed ++ frames' ∧
      saved d'.catchInfo = savedIn passed (saved d.catchInfo) := by
  induction h with
  | here frames d => exact ⟨[], rfl, rfl⟩
  | @next frame rest d d₁ frames' d' hexecute hhandler _ ih =>
    obtain ⟨passed, rfl, hpassed⟩ := ih
    refine ⟨frame :: passed, rfl, ?_⟩
    rw [hpassed, executeHandler_saved hmapped hexecute hhandler]
    exact (savedIn_append [frame] passed _).symm

end

/-- A catch whose handler runs: the frame of its funclet, and the frame that called it. -/
structure Catch where
  funclet : FunctionFrame
  framePtr : Ptr
  info : CatchInfo

def Catch.frames (c : Catch) : List Frame := [.function c.funclet, .callCatch c.framePtr c.info]

/-- An activation of a function, with its catches from the innermost one on. The catches
have recorded the frame of the function itself. -/
structure Activation where
  catches : List Catch
  primary : FunctionFrame
  recorded : ∀ c ∈ catches, c.info.primaryFramePtr = primary.framePtr

def Activation.frames (a : Activation) : List Frame :=
  a.catches.flatMap Catch.frames ++ [.function a.primary]

/-- A part of a stack: an activation, or the frame of a throw in flight. -/
inductive Segment
  | activation (a : Activation)
  | thrown

def Segment.frames : Segment → List Frame
  | activation a => a.frames
  | thrown => [.seh]

def framePtr? : Frame → Option Ptr
  | .function f => some f.framePtr
  | .callCatch framePtr _ => some framePtr
  | .seh => none

def stackFrames (stack : List Segment) : List Frame := stack.flatMap Segment.frames

/-- From callee to caller the frame pointers increase, from null on. -/
def WellNested (stack : List Segment) : Prop :=
  (null :: (stackFrames stack).filterMap framePtr?).Pairwise (· < ·)

theorem flatMap_frames_split {catches : List Catch} {primary f : FunctionFrame}
    {mine rest : List Frame}
    (h : catches.flatMap Catch.frames ++ [.function primary] = mine ++ .function f :: rest) :
    ∃ inner outer, catches = inner ++ outer ∧ mine = inner.flatMap Catch.frames := by
  induction catches generalizing mine with
  | nil =>
    cases mine with
    | nil => exact ⟨[], [], rfl, rfl⟩
    | cons frame mine => simp at h
  | cons c catches ih =>
    match mine with
    | [] => exact ⟨[], c :: catches, rfl, rfl⟩
    | [frame] =>
      have hsecond := (List.cons.inj (List.cons.inj h).2).1
      cases hsecond
    | frame :: frame' :: mine =>
      simp only [List.flatMap_cons, Catch.frames, List.cons_append, List.nil_append,
        List.cons.injEq] at h
      obtain ⟨rfl, rfl, h⟩ := h
      obtain ⟨inner, outer, rfl, rfl⟩ := ih h
      exact ⟨c :: inner, outer, rfl, rfl⟩

theorem wellNested_iff {stack : List Segment} : WellNested stack ↔
    (∀ x ∈ stackFrames stack, ∀ p ∈ framePtr? x, null < p) ∧
      (stackFrames stack).Pairwise fun x y => ∀ p ∈ framePtr? x, ∀ q ∈ framePtr? y, p < q := by
  rw [WellNested, List.pairwise_cons, List.pairwise_filterMap]
  apply and_congr_left
  intro _
  simp only [List.mem_filterMap, Option.mem_def]
  constructor
  · intro h x hx p hp
    exact h p ⟨x, hx, hp⟩
  · rintro h p ⟨x, hx, hp⟩
    exact h x hx p hp

theorem callCatch_recorded {stack : List Segment} {framePtr : Ptr} {info : CatchInfo}
    (h : .callCatch framePtr info ∈ stackFrames stack) :
    ∃ primary, .function primary ∈ stackFrames stack ∧
      info.primaryFramePtr = primary.framePtr := by
  obtain ⟨segment, hsegment, hframe⟩ := List.mem_flatMap.mp h
  cases segment with
  | thrown => simp [Segment.frames] at hframe
  | activation a =>
    refine ⟨a.primary, ?_, ?_⟩
    · apply List.mem_flatMap.mpr
      exact ⟨.activation a, hsegment, List.mem_append_right _ (List.mem_singleton_self _)⟩
    · simp only [Segment.frames, Activation.frames, List.mem_append, List.mem_flatMap, Catch.frames,
        List.mem_cons, List.not_mem_nil, or_false, reduceCtorEq, Frame.callCatch.injEq,
        false_or] at hframe
      obtain ⟨c, hc, -, rfl⟩ := hframe
      exact a.recorded c hc

theorem le_primary {stack : List Segment} {a : Activation} {f : FunctionFrame}
    {mine rest : List Frame} (hnested : WellNested stack) (hmem : .activation a ∈ stack)
    (hframes : a.frames = mine ++ .function f :: rest) : f.framePtr ≤ a.primary.framePtr := by
  have hsub : List.Sublist a.frames (stackFrames stack) :=
    List.sublist_flatten_of_mem (List.mem_map_of_mem (f := Segment.frames) hmem)
  have horder := (wellNested_iff.mp hnested).2.sublist hsub
  rw [hframes] at horder
  obtain rfl | ⟨rest, last, rfl⟩ := List.eq_nil_or_concat' rest
  · have hlast := (List.append_inj' hframes rfl).2
    cases hlast
    exact BitVec.le_refl _
  · have hlast : last = .function a.primary := by
      have heq : a.catches.flatMap Catch.frames ++ [.function a.primary] =
          (mine ++ .function f :: rest) ++ [last] := by
        rw [List.append_assoc]
        exact hframes
      exact (List.cons.inj (List.append_inj' heq rfl).2).1.symm
    have hcons := (List.pairwise_append.mp horder).2.1
    have hlt := (List.pairwise_cons.mp hcons).1 last (by simp) f.framePtr rfl a.primary.framePtr
      (by rw [hlast]; rfl)
    exact BitVec.le_of_lt hlt

theorem savedIn_before (context : BitVec 64) {before after : List Segment} {a : Activation}
    {f : FunctionFrame} (hnested : WellNested (before ++ .activation a :: after))
    (hf : .function f ∈ a.frames) :
    (savedIn (stackFrames before) (null, context)).1 < f.framePtr := by
  obtain ⟨hpos, horder⟩ := wellNested_iff.mp hnested
  have hsplit : stackFrames (before ++ .activation a :: after) =
      stackFrames before ++ (a.frames ++ stackFrames after) := by
    rw [stackFrames, List.flatMap_append, List.flatMap_cons]
    rfl
  rw [hsplit] at hpos horder
  obtain heq | ⟨framePtr, info, hmem, heq⟩ := savedIn_mem (stackFrames before) (null, context)
  · rw [heq]
    exact hpos (.function f) (by simp [hf]) f.framePtr rfl
  · obtain ⟨primary, hprimary, hrecorded⟩ := callCatch_recorded hmem
    rw [heq]
    change info.primaryFramePtr < f.framePtr
    rw [hrecorded]
    exact (List.pairwise_append.mp horder).2.2 _ hprimary (.function f) (by simp [hf])
      primary.framePtr rfl f.framePtr rfl

/-- In whatever frame of an activation a handler is called, the test for a context that was left
by a catch holds exactly if the walk has passed a catch of this activation. It then goes on
with what was saved for the catch called from this frame. -/
theorem same_activation_iff {env : Env} {before after : List Segment} {a : Activation}
    {mine rest : List Frame} {f : FunctionFrame} {d d' : Dispatch}
    (hmapped : Mapped env.imageBase) (hnested : WellNested (before ++ .activation a :: after))
    (hframes : a.frames = mine ++ .function f :: rest)
    (hprimary : d.catchInfo.primaryFramePtr = null)
    (hvisits : Visits env (stackFrames (before ++ .activation a :: after)) d
      (.function f :: rest ++ stackFrames after) d') :
    (f.framePtr ≤ d'.catchInfo.primaryFramePtr ↔
        ∃ framePtr info, .callCatch framePtr info ∈ mine) ∧
      (f.framePtr ≤ d'.catchInfo.primaryFramePtr → ∃ framePtr info,
        mine.getLast? = some (.callCatch framePtr info) ∧
        d'.catchInfo.primaryFramePtr = info.primaryFramePtr ∧
        d'.catchInfo.unwindContext = info.unwindContext) := by
  obtain ⟨passed, hpassed, hsaved⟩ := visits_saved hmapped hvisits
  have hmine : passed = stackFrames before ++ mine := by
    have hstack : stackFrames (before ++ .activation a :: after) =
        (stackFrames before ++ mine) ++ (.function f :: rest ++ stackFrames after) := by
      rw [stackFrames, List.flatMap_append, List.flatMap_cons]
      simp only [Segment.frames, hframes, stackFrames, List.append_assoc]
    exact (List.append_cancel_right (hstack.symm.trans hpassed)).symm
  rw [hmine, savedIn_append] at hsaved
  have hf : .function f ∈ a.frames := by
    rw [hframes]
    exact List.mem_append_right _ List.mem_cons_self
  have hle := le_primary hnested (List.mem_append_right _ List.mem_cons_self) hframes
  obtain ⟨inner, outer, hcatches, rfl⟩ := flatMap_frames_split hframes
  obtain rfl | ⟨inner, c, rfl⟩ := List.eq_nil_or_concat' inner
  · have hlt := savedIn_before d.catchInfo.unwindContext hnested hf
    rw [← hprimary] at hlt
    have hbelow : ¬ f.framePtr ≤ d'.catchInfo.primaryFramePtr := by
      rw [show d'.catchInfo.primaryFramePtr = _ from congrArg Prod.fst hsaved]
      exact BitVec.not_le.mpr hlt
    simp [hbelow]
  · rw [List.flatMap_append, savedIn_append] at hsaved
    have hc : c ∈ a.catches := by
      rw [hcatches]
      simp
    have hfirst : d'.catchInfo.primaryFramePtr = c.info.primaryFramePtr :=
      congrArg Prod.fst hsaved
    have habove : f.framePtr ≤ d'.catchInfo.primaryFramePtr := by
      rw [hfirst, a.recorded c hc]
      exact hle
    refine ⟨⟨fun _ => ⟨c.framePtr, c.info, by simp [Catch.frames]⟩, fun _ => habove⟩, fun _ => ?_⟩
    exact ⟨c.framePtr, c.info, by simp [Catch.frames], hfirst, congrArg Prod.snd hsaved⟩

def localOnly : FunctionEhInfo where
  unwindGraph := [⟨-1, 0x30⟩]
  tryBlocks := []
  regions := [⟨0x10, -1⟩, ⟨0x18, 0⟩]
  ehFlags := 0

def callee : Activation := ⟨[], ⟨0x1000, 0x400014, 0x10, .fh3 localOnly⟩, by simp⟩

def caller : Activation where
  catches := [⟨⟨0x3000, 0x400114, 0x100, .none⟩, 0x4000, ⟨0, 0, 0x5000, 0x4100, none, 7⟩⟩]
  primary := ⟨0x5000, 0x400018, 0x10, .fh3 localOnly⟩
  recorded := by simp

def thrown : Dispatch := ⟨⟨0, 0, null, 0x800, some ⟨0, 0, []⟩, 3⟩, null, ⟨fun _ => 0, []⟩⟩

theorem wellNested_calls : WellNested [.activation callee, .activation caller] := by
  simp only [WellNested, stackFrames, Segment.frames, Activation.frames, Catch.frames, callee,
    caller, List.flatMap_cons, List.flatMap_nil, List.filterMap_cons, framePtr?,
    List.cons_append, List.nil_append, List.filterMap_nil]
  decide

def resumed : Dispatch := { thrown with
  catchInfo := { thrown.catchInfo with primaryFramePtr := 0x5000, unwindContext := 7 } }

theorem same_activation_recursive :
    (0x5000 ≤ resumed.catchInfo.primaryFramePtr ↔
      ∃ framePtr info, .callCatch framePtr info ∈ caller.catches.flatMap Catch.frames) ∧
    (0x5000 ≤ resumed.catchInfo.primaryFramePtr → ∃ framePtr info,
      (caller.catches.flatMap Catch.frames).getLast? = some (.callCatch framePtr info) ∧
      resumed.catchInfo.primaryFramePtr = info.primaryFramePtr ∧
      resumed.catchInfo.unwindContext = info.unwindContext) := by
  have hmapped : Mapped bareEnv.imageBase := mapped_of_le (by decide) (by decide)
  have hwalk : Visits bareEnv (stackFrames ([.activation callee] ++ .activation caller :: []))
      thrown (.function caller.primary :: [] ++ stackFrames []) resumed := by
    apply Visits.next rfl rfl
    apply Visits.next rfl rfl
    apply Visits.next rfl rfl
    exact Visits.here _ _
  exact same_activation_iff hmapped wellNested_calls rfl rfl hwalk

end Vcrtl.X64.SameActivation

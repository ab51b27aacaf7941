import Vcrtl.X64.Dispatch
import Vcrtl.X86.Handler

namespace Vcrtl.SehPass

open BugCheck EhFlags X64.CatchFrame

def isUnwinding (exceptionRecord : ExceptionRecord) : Bool :=
  hasAnyOf exceptionRecord.flags ExceptionFlag.unwinding

/-- The handler of a frame. Without an exception record it is called for a C++
exception, with one for an SEH exception, and then it looks at nothing else. -/
abbrev Handler (σ : Type) := Option ExceptionRecord → σ → Exec (ExceptionDisposition × σ)

section

variable {σ : Type} (frameHandler : σ → Exec (ExceptionDisposition × σ))

/-- A handler that insists on something of an exception record and leaves all
else to `_frame_handler`. -/
def insistOn (cond : ExceptionRecord → Bool) : Handler σ
  | some exceptionRecord, d => do
    verify (cond exceptionRecord)
    return (.continueSearch, d)
  | none, d => frameHandler d

def cxxFrameHandler3 : Handler σ := insistOn frameHandler fun r => !isUnwinding r

def gsHandlerCheckEh : Handler σ := insistOn frameHandler fun r => !isUnwinding r

def cxxFrameHandler4 : Handler σ := insistOn frameHandler isUnwinding

def gsHandlerCheckEh4 : Handler σ := insistOn frameHandler isUnwinding

/-- The handlers on x86 name what they do not permit. -/
def unlessUnwinding : Handler σ
  | some exceptionRecord, d =>
    if isUnwinding exceptionRecord then
      onBugCheck .unwindOnUnsafeException
    else
      .ok (.continueSearch, d)
  | none, d => frameHandler d

def fh3PrimaryHandler : Handler σ := unlessUnwinding frameHandler

def cxxCatchFrameHandler : Handler σ := unlessUnwinding frameHandler

end

section

open X64.EhStructs X64.DispatcherContext

def asCxxHandler {σ : Type} (frameHandler : σ → Exec σ) (d : σ) :
    Exec (ExceptionDisposition × σ) :=
  (ExceptionDisposition.cxxHandler, ·) <$> frameHandler d

variable (gs : FunctionFrame → Bool) (env : Env) (frames : List Frame)

/-- The handler that a frame is registered with on x64. `gs` tells which
functions have a security cookie. -/
def handler64 : Frame → Option (Handler Dispatch)
  | .function f =>
    match f.ehData with
    | .none => none
    | .fh3 ehInfo =>
      let frameHandler := asCxxHandler (X64.Fh3.frameHandler env frames f ehInfo)
      some (if gs f then gsHandlerCheckEh frameHandler else cxxFrameHandler3 frameHandler)
    | .fh4 funcInfo =>
      let frameHandler := asCxxHandler (X64.Fh4.frameHandler env frames f funcInfo)
      some (if gs f then gsHandlerCheckEh4 frameHandler else cxxFrameHandler4 frameHandler)
  | .callCatch framePtr info => some fun exceptionRecord d => do
    let (disposition, ci, calls) ←
      cxxCallCatchFrameHandler exceptionRecord framePtr info .unwind d.catchInfo
    return (disposition, { d with
      catchInfo := ci
      world := calls.foldl (fun s c => s.perform env.code
        (.destroy (displace env.imageBase c.destroyExcObj) c.object)) d.world })
  | .seh => some fun exceptionRecord d => do
    let disposition ← cxxSehFrameHandler exceptionRecord
    return (disposition, d)

theorem executeHandler_handler (frame : Frame) (d : Dispatch) :
    X64.Dispatch.executeHandler env frames frame d =
      match handler64 gs env frames frame with
      | none => .ok d
      | some handler => do
        let (disposition, d) ← handler none d
        verify (disposition = .cxxHandler)
        return d := by
  cases frame with
  | function f =>
    cases hdata : f.ehData with
    | none => simp only [X64.Dispatch.executeHandler, handler64, hdata]
    | fh3 ehInfo =>
      simp only [X64.Dispatch.executeHandler, handler64, hdata, cxxFrameHandler3, gsHandlerCheckEh,
        ite_self, insistOn, asCxxHandler]
      cases X64.Fh3.frameHandler env frames f ehInfo d <;> rfl
    | fh4 funcInfo =>
      simp only [X64.Dispatch.executeHandler, handler64, hdata, cxxFrameHandler4,
        gsHandlerCheckEh4, ite_self, insistOn, asCxxHandler]
      cases X64.Fh4.frameHandler env frames f funcInfo d <;> rfl
  | callCatch framePtr info =>
    simp only [X64.Dispatch.executeHandler, handler64]
    cases cxxCallCatchFrameHandler none framePtr info .unwind d.catchInfo with
    | error e => rfl
    | ok x =>
      simp only [bind, Except.bind, pure, Except.pure]
  | seh => rfl

end

section

open X86.EhStructs X86.ThrowFrame X86.Handler

variable (code : CatchVariable.Code 32) (v : SehVerifier) (regs : List SehRegistration)
  (frameAt : FrameAt)

def handler86 (p : SehRegistration) : Option (Handler X86.Handler.Dispatch) :=
  match p.target with
  | .primary ehInfo frameBase => some (fh3PrimaryHandler
      (asCxxHandler (X86.Handler.fh3PrimaryHandler code v regs frameAt ehInfo frameBase)))
  | .catchFrame addr frame => some (cxxCatchFrameHandler
      (asCxxHandler (X86.Handler.cxxCatchFrameHandler code v regs frameAt addr frame)))

end

section

variable {F σ : Type} (handlerOf : F → Option (Handler σ))

/-- A pass of an SEH dispatch gets from one frame to another. It goes by a frame
without a handler, and goes on as long as the handlers let it. -/
inductive Passes (exceptionRecord : ExceptionRecord) : List F → σ → List F → σ → Prop
  | here (frames d) : Passes exceptionRecord frames d frames d
  | skip {frame rest d frames' d'} (hnone : handlerOf frame = none)
      (hrest : Passes exceptionRecord rest d frames' d') :
      Passes exceptionRecord (frame :: rest) d frames' d'
  | next {frame rest handler d d₁ frames' d'} (hsome : handlerOf frame = some handler)
      (hcall : handler (some exceptionRecord) d = .ok (.continueSearch, d₁))
      (hrest : Passes exceptionRecord rest d₁ frames' d') :
      Passes exceptionRecord (frame :: rest) d frames' d'

/-- A search goes by all frames and changes nothing. Unwinding gets to the first C++ frame, and
stops there. -/
structure Uniform (frames : List F) : Prop where
  search : ∀ r d, isUnwinding r = false → Passes handlerOf r frames d [] d
  unwind : ∀ r d before frame rest, isUnwinding r = true → frames = before ++ frame :: rest →
    (∀ f ∈ before, handlerOf f = none) → ∀ handler, handlerOf frame = some handler →
    Passes handlerOf r frames d (frame :: rest) d ∧ BugChecks (handler (some r) d)

structure SearchOnly (handler : Handler σ) : Prop where
  search : ∀ r d, isUnwinding r = false → handler (some r) d = .ok (.continueSearch, d)
  unwind : ∀ r d, isUnwinding r = true → BugChecks (handler (some r) d)

structure UnwindOnly (handler : Handler σ) : Prop where
  search : ∀ r d, isUnwinding r = false → BugChecks (handler (some r) d)
  unwind : ∀ r d, isUnwinding r = true → handler (some r) d = .ok (.continueSearch, d)

end

section

variable {F σ : Type} {handlerOf : F → Option (Handler σ)} {frames : List F} {handler : Handler σ}

theorem Passes.called {r : ExceptionRecord} {d d' : σ} (h : Passes handlerOf r frames d [] d')
    {frame : F} (hframe : frame ∈ frames) (hhandler : handlerOf frame = some handler) :
    ∃ d₀ d₁, handler (some r) d₀ = .ok (.continueSearch, d₁) := by
  generalize hend : ([] : List F) = last at h
  induction h with
  | here frames d =>
    subst hend
    cases hframe
  | skip hnone _ ih =>
    obtain rfl | hmem := List.mem_cons.mp hframe
    · rw [hnone] at hhandler
      cases hhandler
    · exact ih hmem hend
  | next hsome hcall _ ih =>
    obtain rfl | hmem := List.mem_cons.mp hframe
    · rw [hsome] at hhandler
      cases hhandler
      exact ⟨_, _, hcall⟩
    · exact ih hmem hend

/-- An SEH dispatch over frames whose handlers permit one pass each is uniform exactly if none of
them permits unwinding. -/
theorem uniform_iff [Nonempty σ] (honce : ∀ frame ∈ frames, ∀ handler,
      handlerOf frame = some handler → SearchOnly handler ∨ UnwindOnly handler) :
    Uniform handlerOf frames ↔
      ∀ frame ∈ frames, ∀ handler, handlerOf frame = some handler → SearchOnly handler := by
  obtain ⟨d⟩ := ‹Nonempty σ›
  refine ⟨?_, ?_⟩
  · intro h frame hframe handler hhandler
    obtain hsearch | hunwind := honce frame hframe handler hhandler
    · exact hsearch
    · obtain ⟨d₀, d₁, hcall⟩ := (h.search ⟨0⟩ d rfl).called hframe hhandler
      obtain ⟨reason, hbug⟩ := hunwind.search ⟨0⟩ d₀ rfl
      rw [hbug] at hcall
      cases hcall
  · intro h
    clear honce
    refine ⟨?_, ?_⟩
    · intro r d hr
      induction frames with
      | nil => exact .here [] d
      | cons frame rest ih =>
        obtain ⟨hfirst, hrest⟩ := List.forall_mem_cons.mp h
        cases hhandler : handlerOf frame with
        | none => exact .skip hhandler (ih hrest)
        | some handler => exact .next hhandler ((hfirst handler hhandler).search r d hr) (ih hrest)
    · rintro r d before frame rest hr rfl hbefore handler hhandler
      refine ⟨?_, (h frame (by simp) handler hhandler).unwind r d hr⟩
      clear h hhandler
      induction before with
      | nil => exact .here _ d
      | cons f before ih =>
        obtain ⟨hf, hbefore⟩ := List.forall_mem_cons.mp hbefore
        exact .skip hf (ih hbefore)

theorem UnwindOnly.not_searchOnly [Nonempty σ] (h : UnwindOnly handler) :
    ¬ SearchOnly handler := by
  obtain ⟨d⟩ := ‹Nonempty σ›
  intro hsearch
  obtain ⟨reason, hbug⟩ := h.search ⟨0⟩ d rfl
  rw [hsearch.search ⟨0⟩ d rfl] at hbug
  cases hbug

end

section

variable {σ : Type} {frameHandler : σ → Exec (ExceptionDisposition × σ)}

theorem cxxFrameHandler3_searchOnly : SearchOnly (cxxFrameHandler3 frameHandler) := by
  refine ⟨?_, ?_⟩
  · intro r d hr
    simp only [cxxFrameHandler3, insistOn, verify, hr]
    rfl
  · intro r d hr
    refine ⟨.assertionFailure, ?_⟩
    simp only [cxxFrameHandler3, insistOn, verify, hr]
    rfl

theorem unwindOnly_of_insists {handler : Handler σ} (h : ∀ r d, handler (some r) d = do
    verify (isUnwinding r)
    return (.continueSearch, d)) : UnwindOnly handler := by
  refine ⟨?_, ?_⟩
  · intro r d hr
    refine ⟨.assertionFailure, ?_⟩
    simp only [h, verify, hr]
    rfl
  · intro r d hr
    simp only [h, verify, hr]
    rfl

theorem cxxFrameHandler4_unwindOnly : UnwindOnly (cxxFrameHandler4 frameHandler) :=
  unwindOnly_of_insists fun _ _ => rfl

theorem unlessUnwinding_searchOnly : SearchOnly (unlessUnwinding frameHandler) := by
  refine ⟨?_, ?_⟩
  · intro r d hr
    rw [unlessUnwinding, hr]
    rfl
  · intro r d hr
    refine ⟨.unwindOnUnsafeException, ?_⟩
    rw [unlessUnwinding, hr]
    rfl

end

section

open X64.DispatcherContext

variable {gs : FunctionFrame → Bool} {env : Env} {frames : List Frame} {handler : Handler Dispatch}

def UsesFh3 : Frame → Prop
  | .function f => ∀ funcInfo, f.ehData ≠ .fh4 funcInfo
  | .callCatch _ _ | .seh => False

theorem handler64_fh3 {f : FunctionFrame} {ehInfo : X64.EhStructs.FunctionEhInfo}
    (hdata : f.ehData = .fh3 ehInfo)
    (h : handler64 gs env frames (.function f) = some handler) : SearchOnly handler := by
  simp only [handler64, hdata] at h
  have hsame : handler =
      cxxFrameHandler3 (asCxxHandler (X64.Fh3.frameHandler env frames f ehInfo)) := by
    rw [← Option.some.inj h]
    exact ite_self _
  rw [hsame]
  exact cxxFrameHandler3_searchOnly

theorem handler64_fh4 {f : FunctionFrame} {funcInfo : X64.EhStructs.Rva}
    (hdata : f.ehData = .fh4 funcInfo)
    (h : handler64 gs env frames (.function f) = some handler) : UnwindOnly handler := by
  simp only [handler64, hdata] at h
  have hsame : handler =
      cxxFrameHandler4 (asCxxHandler (X64.Fh4.frameHandler env frames f funcInfo)) := by
    rw [← Option.some.inj h]
    exact ite_self _
  rw [hsame]
  exact cxxFrameHandler4_unwindOnly

theorem handler64_seh (h : handler64 gs env frames .seh = some handler) : UnwindOnly handler := by
  obtain rfl := Option.some.inj h
  apply unwindOnly_of_insists
  intro r d
  simp only [cxxSehFrameHandler, bind_assoc, pure_bind]
  rfl

theorem handler64_callCatch {framePtr : X64.EhStructs.Ptr} {info : X64.Throw.CatchInfo}
    (h : handler64 gs env frames (.callCatch framePtr info) = some handler) :
    UnwindOnly handler := by
  obtain rfl := Option.some.inj h
  apply unwindOnly_of_insists
  intro r d
  simp only [cxxCallCatchFrameHandler, bind_assoc, pure_bind]
  rfl

theorem handler64_none {frame : Frame} (h : handler64 gs env frames frame = none) :
    UsesFh3 frame := by
  cases frame with
  | function f =>
    intro funcInfo hdata
    simp only [handler64, hdata] at h
    cases h
  | callCatch framePtr info => cases h
  | seh => cases h

theorem handler64_once {frame : Frame} (h : handler64 gs env frames frame = some handler) :
    UsesFh3 frame ∧ SearchOnly handler ∨ ¬ UsesFh3 frame ∧ UnwindOnly handler := by
  cases frame with
  | function f =>
    cases hdata : f.ehData with
    | none =>
      simp only [handler64, hdata] at h
      cases h
    | fh3 ehInfo =>
      refine .inl ⟨?_, handler64_fh3 hdata h⟩
      intro funcInfo hfh4
      rw [hdata] at hfh4
      cases hfh4
    | fh4 funcInfo => exact .inr ⟨fun hfh3 => hfh3 funcInfo hdata, handler64_fh4 hdata h⟩
  | callCatch framePtr info => exact .inr ⟨id, handler64_callCatch h⟩
  | seh => exact .inr ⟨id, handler64_seh h⟩

end

theorem handler86_searchOnly {code : CatchVariable.Code 32} {v : X86.ThrowFrame.SehVerifier}
    {regs : List X86.ThrowFrame.SehRegistration} {frameAt : X86.ThrowFrame.FrameAt}
    {p : X86.ThrowFrame.SehRegistration} {handler : Handler X86.Handler.Dispatch}
    (h : handler86 code v regs frameAt p = some handler) : SearchOnly handler := by
  rw [handler86] at h
  split at h
  · obtain rfl := Option.some.inj h
    exact unlessUnwinding_searchOnly
  · obtain rfl := Option.some.inj h
    exact unlessUnwinding_searchOnly

section

open X64.DispatcherContext

variable {gs : FunctionFrame → Bool} {env : Env} {frames : List Frame}
  {code : CatchVariable.Code 32} {v : X86.ThrowFrame.SehVerifier}
  {regs : List X86.ThrowFrame.SehRegistration} {frameAt : X86.ThrowFrame.FrameAt}

def noDispatch : Dispatch := ⟨⟨0, 0, 0, 0, none, 0⟩, 0, ⟨fun _ => 0, []⟩⟩

instance : Nonempty Dispatch := ⟨noDispatch⟩

instance : Nonempty X86.Handler.Dispatch := ⟨⟨none, 0, 0, 0, none⟩, 0, ⟨fun _ => 0, []⟩⟩

/-- SEH goes uniformly through the frames of both machines exactly if the x64 ones use FH3. -/
theorem seh_uniform_iff (stack64 : List Frame) (stack86 : List X86.ThrowFrame.SehRegistration) :
    Uniform (handler64 gs env frames) stack64 ∧
      Uniform (handler86 code v regs frameAt) stack86 ↔ ∀ frame ∈ stack64, UsesFh3 frame := by
  rw [uniform_iff fun frame _ handler h => (handler64_once h).imp And.right And.right,
    uniform_iff fun p _ handler h => .inl (handler86_searchOnly h)]
  refine ⟨?_, ?_⟩
  · rintro ⟨h, -⟩ frame hframe
    cases hhandler : handler64 gs env frames frame with
    | none => exact handler64_none hhandler
    | some handler =>
      obtain ⟨hfh3, -⟩ | ⟨-, hunwind⟩ := handler64_once hhandler
      · exact hfh3
      · exact absurd (h frame hframe handler hhandler) hunwind.not_searchOnly
  · intro h
    refine ⟨?_, fun p _ handler => handler86_searchOnly⟩
    intro frame hframe handler hhandler
    obtain ⟨-, hsearch⟩ | ⟨hnot, -⟩ := handler64_once hhandler
    · exact hsearch
    · exact absurd (h frame hframe) hnot

/-- A function with FH4 under a catch funclet under a throw. -/
def mixedStack : List Frame :=
  [.seh, .callCatch 0x6000 ⟨0, 0, 0, 0x2000, none, 0⟩,
    .function ⟨0x7000, 0x401010, 0x1000, .fh4 0x100⟩]

/-- A search is stopped by these frames, and unwinding leaves them without any cleanup. -/
theorem seh_reversed :
    ¬ Uniform (handler64 (fun _ => false) bareEnv []) mixedStack ∧
      Passes (handler64 (fun _ => false) bareEnv []) ⟨0x2⟩ mixedStack noDispatch []
        noDispatch := by
  refine ⟨?_, ?_⟩
  · intro h
    have hsearch := h.search ⟨0⟩ noDispatch rfl
    obtain ⟨d, d₁, hcall⟩ := hsearch.called List.mem_cons_self rfl
    cases hcall
  · exact .next rfl rfl (.next rfl rfl (.next rfl rfl (.here [] _)))

end

end Vcrtl.SehPass

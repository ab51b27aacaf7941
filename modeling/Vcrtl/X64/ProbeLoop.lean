import Vcrtl.X64.CatchFrame
import Vcrtl.X64.Unwinder

namespace Vcrtl.X64.ProbeLoop

open Lib.Memory BugCheck EhStructs Throw CatchFrame Unwinder

inductive Registered
  | function
  | callCatch (framePtr : Ptr)
  | seh

structure Pdata where
  unwindInfo : MachFrame → PeUnwindInfo
  registered : FrameWalkContext → MachFrame → Registered

/-- `cxx_throw_frame_t`, whose catch info is among those in memory. -/
structure ThrowFrame where
  ctx : FrameWalkContext
  mach : MachFrame
  infos : InfoAt

variable (pdata : Pdata) (m : Mem 64) (self : Ptr)

/-- `_execute_handler` in a probe, for the throw whose catch info is at `self`. -/
def executeProbe (infos : InfoAt) : Registered → Exec InfoAt
  | .function => .ok infos
  | .callCatch framePtr => do
    let frame ← deref infos (catchInfoAddr framePtr)
    let ci ← deref infos self
    let (disposition, ci, _) ← cxxCallCatchFrameHandler none framePtr frame .rethrowProbe ci
    verify (disposition = .cxxHandler)
    return Function.update infos self (some ci)
  | .seh => do
    let disposition ← cxxSehFrameHandler none
    verify (disposition = .cxxHandler)
    return infos

def probeLoop : Nat → FrameWalkContext → MachFrame → InfoAt → Exec InfoAt
  | 0, _, _, _ => .error .hang
  | fuel + 1, probeCtx, probeMach, infos => do
    let infos ← executeProbe self infos (pdata.registered probeCtx probeMach)
    let ci ← deref infos self
    if ci.exceptionObjectOrLink ≠ null then
      return infos
    else
      let (probeCtx, probeMach) ← unwind (pdata.unwindInfo probeMach) m probeCtx probeMach
      probeLoop fuel probeCtx probeMach infos

/-- `probe_for_exception_object`, which walks with copies of the registers. -/
def probeThrowFrame (fuel : Nat) (tf : ThrowFrame) : Exec ThrowFrame := do
  let infos ← probeLoop pdata m self fuel tf.ctx tf.mach tf.infos
  return { tf with infos := infos }

/-- Of the catch infos at most that of the throw itself is another, and only in its link. -/
def OnlyLink (infos infos' : InfoAt) : Prop :=
  (∀ a, a ≠ self → infos' a = infos a) ∧
    ∀ ci, infos self = some ci →
      ∃ link, infos' self = some { ci with exceptionObjectOrLink := link }

variable {pdata m self} {infos infos' infos'' : InfoAt}

theorem onlyLink_refl : OnlyLink self infos infos :=
  ⟨fun _ _ => rfl, fun ci hci => ⟨ci.exceptionObjectOrLink, hci⟩⟩

theorem OnlyLink.trans (h : OnlyLink self infos infos') (h' : OnlyLink self infos' infos'') :
    OnlyLink self infos infos'' := by
  refine ⟨fun a ha => (h'.1 a ha).trans (h.1 a ha), fun ci hci => ?_⟩
  obtain ⟨link, hlink⟩ := h.2 ci hci
  obtain ⟨link', hlink'⟩ := h'.2 _ hlink
  exact ⟨link', hlink'⟩

theorem executeProbe_onlyLink {r : Registered} (h : executeProbe self infos r = .ok infos') :
    OnlyLink self infos infos' := by
  cases r with
  | function =>
    cases h
    exact onlyLink_refl
  | seh =>
    simp only [executeProbe, bind_ok] at h
    obtain ⟨-, -, -, -, h⟩ := h
    obtain rfl := pure_ok.mp h
    exact onlyLink_refl
  | callCatch framePtr =>
    simp only [executeProbe, bind_ok, callCatch_probe] at h
    obtain ⟨frame, -, ci, hci, -, ⟨-, rfl⟩, -, -, h⟩ := h
    obtain rfl := pure_ok.mp h
    refine ⟨fun a ha => Function.update_of_ne ha _ _, fun ci' hci' => ?_⟩
    have hself : infos self = some ci := by
      rw [deref] at hci
      split at hci
      · cases hci
        assumption
      · cases hci
    obtain rfl := Option.some.inj (hself.symm.trans hci')
    exact ⟨_, Function.update_self _ _ _⟩

theorem probeLoop_onlyLink {fuel : Nat} {ctx : FrameWalkContext} {mach : MachFrame}
    (h : probeLoop pdata m self fuel ctx mach infos = .ok infos') :
    OnlyLink self infos infos' := by
  induction fuel generalizing ctx mach infos with
  | zero => cases h
  | succ fuel ih =>
    simp only [probeLoop, bind_ok] at h
    obtain ⟨infos₁, hexecute, ci, -, h⟩ := h
    have hstep := executeProbe_onlyLink hexecute
    split at h
    · obtain rfl := pure_ok.mp h
      exact hstep
    · obtain ⟨⟨ctx', mach'⟩, -, h⟩ := bind_ok.mp h
      exact hstep.trans (ih h)

theorem probe_frame {fuel : Nat} {tf tf' : ThrowFrame}
    (h : probeThrowFrame pdata m self fuel tf = .ok tf') :
    tf'.ctx = tf.ctx ∧ tf'.mach = tf.mach ∧ OnlyLink self tf.infos tf'.infos := by
  simp only [probeThrowFrame, bind_ok] at h
  obtain ⟨infos', hloop, h⟩ := h
  obtain rfl := pure_ok.mp h
  exact ⟨rfl, rfl, probeLoop_onlyLink hloop⟩

def RegisteredAs (self : Ptr) (infos : InfoAt) : Frame → Registered → Prop
  | .function _, r => r = .function
  | .callCatch framePtr info, r => r = .callCatch framePtr ∧ catchInfoAddr framePtr ≠ self ∧
      infos (catchInfoAddr framePtr) = some info
  | .seh, r => r = .seh

def StackAt (pdata : Pdata) (m : Mem 64) (self : Ptr) (infos : InfoAt) :
    List Frame → FrameWalkContext → MachFrame → Prop
  | [], _, _ => True
  | frame :: rest, ctx, mach =>
    RegisteredAs self infos frame (pdata.registered ctx mach) ∧ (rest = [] ∨ ∃ ctx' mach',
      unwind (pdata.unwindInfo mach) m ctx mach = .ok (ctx', mach') ∧
        StackAt pdata m self infos rest ctx' mach')

theorem stackAt_update {frames : List Frame} {ctx : FrameWalkContext} {mach : MachFrame}
    {ci : CatchInfo} (h : StackAt pdata m self infos frames ctx mach) :
    StackAt pdata m self (Function.update infos self (some ci)) frames ctx mach := by
  induction frames generalizing ctx mach with
  | nil => trivial
  | cons frame rest ih =>
    refine ⟨?_, ?_⟩
    · cases frame with
      | function f | seh => exact h.1
      | callCatch framePtr info =>
        obtain ⟨hregistered, hne, hinfo⟩ := h.1
        exact ⟨hregistered, hne, (Function.update_of_ne hne _ _).trans hinfo⟩
    · obtain hnil | ⟨ctx', mach', hunwind, hrest⟩ := h.2
      · exact .inl hnil
      · exact .inr ⟨ctx', mach', hunwind, ih hrest⟩

theorem executeProbe_frame {frame : Frame} {r : Registered} {ci ci' : CatchInfo}
    {disposition : ExceptionDisposition} (hr : RegisteredAs self infos frame r)
    (hci : infos self = some ci) (h : probeFrame frame ci = .ok (disposition, ci'))
    (hdisposition : disposition = .cxxHandler) :
    executeProbe self infos r = .ok (Function.update infos self (some ci')) := by
  subst hdisposition
  cases frame with
  | function f =>
    obtain rfl := hr
    cases h
    rw [executeProbe, ← hci, Function.update_eq_self]
  | seh => cases h
  | callCatch framePtr info =>
    obtain ⟨rfl, -, hinfo⟩ := hr
    simp only [probeFrame, bind_ok] at h
    obtain ⟨⟨disposition, ci₁, calls⟩, hhandler, h⟩ := h
    cases h
    simp only [executeProbe, deref, hinfo, hci, hhandler, bind, Except.bind, verify, if_true, pure,
      Except.pure]

/-- The probe of the walk over the frames is that of the loop over the registers. -/
theorem probeLoop_probe {frames : List Frame} {ctx : FrameWalkContext} {mach : MachFrame}
    {ci ci' : CatchInfo} (hstack : StackAt pdata m self infos frames ctx mach)
    (hci : infos self = some ci) (h : probeForExceptionObject frames ci = .ok ci') :
    probeLoop pdata m self frames.length ctx mach infos =
      .ok (Function.update infos self (some ci')) := by
  induction frames generalizing ctx mach infos ci with
  | nil => cases h
  | cons frame rest ih =>
    simp only [probeForExceptionObject, bind_ok, verify_ok] at h
    obtain ⟨⟨disposition, ci₁⟩, hframe, -, hdisposition, h⟩ := h
    have hexecute := executeProbe_frame hstack.1 hci hframe hdisposition
    have hself : Function.update infos self (some ci₁) self = some ci₁ :=
      Function.update_self _ _ _
    have hderef : deref (Function.update infos self (some ci₁)) self = .ok ci₁ := by
      rw [deref, hself]
    simp only [List.length_cons, probeLoop, hexecute, hderef, bind, Except.bind]
    split at h
    · rename_i hlink
      obtain rfl := pure_ok.mp h
      rw [if_pos hlink]
      rfl
    · rename_i hlink
      rw [if_neg hlink]
      obtain rfl | ⟨ctx', mach', hunwind, hrest⟩ := hstack.2
      · cases h
      · have hloop := ih (stackAt_update hrest) hself h
        simp only [hunwind, hloop, Function.update_idem]

end Vcrtl.X64.ProbeLoop

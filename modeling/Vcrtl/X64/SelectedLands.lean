import Vcrtl.X64.FrameHandlers
import Vcrtl.X64.ThrowLands

namespace Vcrtl.X64.SelectedLands

open Lib.Memory Lib.Listing Lib.Amd64 Lib.Parts BugCheck EhStructs Throw CatchFrame
open DispatcherContext Unwinder FunctionTable Capture Transfer ThrowFrame Resume CallStack
open DispatchLoop (dispatchLoop)
open FrameHandlers
open ThrowLands
open Dispatch (Visits)

structure InfoStored (image : Image) (m : Mem 64) (p : Ptr) (ci : CatchInfo) : Prop where
  continuationAddress0 : readWord m p = ci.continuationAddress0
  continuationAddress1 : readWord m (slot p 8) = ci.continuationAddress1
  primaryFramePtr : readWord m (slot p 0x10) = ci.primaryFramePtr
  exceptionObjectOrLink : readWord m (slot p 0x18) = ci.exceptionObjectOrLink
  throwInfoIfOwner : image.throwInfoAt (readWord m (slot p 0x20)) = ci.throwInfoIfOwner
  unwindContext : readWord m (slot p 0x28) = ci.unwindContext

def start (image : Image) (uninit : CatchInfo) (s : Cpu) : Dispatch :=
  ⟨Steps.initCatchInfo uninit (s.reg .rcx) (image.throwInfoAt (s.reg .rdx)), null, ⟨s.mem, []⟩⟩

/-- A call of `__cxx_dispatch_exception` that returns. The catch info that the handlers have worked
on is in the throw frame. -/
structure DispatchesFrames (image : Image) (depth fuel : Nat) (uninit : CatchInfo)
    (s t : Cpu) : Prop extends Dispatches (image.program depth) fuel (start image uninit) s t where
  catchInfo : ∀ tf, dispatchLoop (image.program depth) fuel
    ⟨contextAt s.mem (slot (s.reg .r8) 0x20), machFrameAt s.mem (slot (s.reg .r8) 0x100),
      start image uninit s⟩ = .ok tf →
      InfoStored image t.mem (slot (s.reg .r8) 0x128) tf.state.catchInfo

structure ThrowsThrough (image : Image) (depth fuel : Nat) (uninit : CatchInfo) (env : Transfer.Env)
    (as : List Activation) (frames : List Frame) (s : Cpu) : Prop where
  abides : env.Abides
  dispatches : ∀ u d, env.dispatch u d → DispatchesFrames image depth fuel uninit u d
  aligned : (s.reg .rsp).toNat % 16 = 8
  sorted : Sorted image.pdata.functions
  depth : as.length ≤ depth
  standing : Standing image.pdata image.mem s.mem as (context s) (thrownMach s)
  beyond : Beyond s (savesOf as)
  framesOf : image.framesOf as (context s, thrownMach s) = .ok frames
  ends : ¬ image.pdata.Inside (callerOfAll s as).2.rip
  spares : ∀ u, Captured s u → Spares image.env frames (start image uninit u) (savesOf as)

/-- The dispatch has gone by the frames of `passed`, and the handler of the next frame has selected
what there is in `d`. -/
def Selected (image : Image) (uninit : CatchInfo) (as : List Activation) (frames : List Frame)
    (s : Cpu) (passed : List Activation) (d : Dispatch) : Prop :=
  ∃ u rest frame frames' before, Captured s u ∧ as = passed ++ rest ∧
    image.framesOf rest (callerOfAll s passed) = .ok (frame :: frames') ∧
    Visits image.env frames (start image uninit u) (frame :: frames') before ∧
    Dispatch.executeHandler image.env (frame :: frames') frame before = .ok d ∧ d.handler ≠ null

theorem Selected.handler {image : Image} {uninit : CatchInfo} {as passed : List Activation}
    {frames : List Frame} {s : Cpu} {d : Dispatch}
    (h : Selected image uninit as frames s passed d) : d.handler ≠ null := by
  obtain ⟨u, rest, frame, frames', before, -, -, -, -, -, hhandler⟩ := h
  exact hhandler

theorem Selected.split {image : Image} {uninit : CatchInfo} {as passed : List Activation}
    {frames : List Frame} {s : Cpu} {d : Dispatch}
    (h : Selected image uninit as frames s passed d) : ∃ rest, as = passed ++ rest := by
  obtain ⟨u, rest, frame, frames', before, -, has, -⟩ := h
  exact ⟨rest, has⟩

def goesOn (ci : CatchInfo) (returned : Ptr) : Ptr :=
  if returned = 0 then
    ci.continuationAddress0
  else if returned = 1 then
    ci.continuationAddress1
  else
    returned

section

variable {image : Image} {depth fuel : Nat} {uninit : CatchInfo} {env : Transfer.Env}
  {as : List Activation} {frames : List Frame} {s t u : Cpu}

theorem ThrowsThrough.framed (h : ThrowsThrough image depth fuel uninit env as frames s)
    (hu : Captured s u) : Framed image as frames ⟨contextAt u.mem (slot (u.reg .r8) 0x20),
      machFrameAt u.mem (slot (u.reg .r8) 0x100), start image uninit u⟩ := by
  have hmach : machFrameAt u.mem (slot (u.reg .r8) 0x100) = thrownMach s := hu.mach
  have hsame : Same s.mem u.mem (slot (bottom s) 0x158) (2 ^ 64 - 0x158) := by
    rw [slot_bottom]
    exact hu.mem
  rw [hu.context, hmach]
  refine ⟨h.sorted, ?_, h.framesOf, h.ends, h.spares u hu⟩
  exact h.standing.congr rfl rfl (untouched_beyond h.standing.untouched h.beyond hsame
    (Nat.le_refl _) (by decide))

theorem ThrowsThrough.selected (h : ThrowsThrough image depth fuel uninit env as frames s)
    (hu : Captured s u) (hdispatch : env.dispatch u t) :
    ∃ passed d, Selected image uninit as frames s passed d ∧ t.reg .rax = d.handler ∧
      contextAt t.mem (slot (t.reg .rsp) 0x20) = (callerOfAll s passed).1 ∧
      machFrameAt t.mem (slot (t.reg .rsp) 0x100) = (callerOfAll s passed).2 ∧
      InfoStored image t.mem (slot (t.reg .rsp) 0x128) d.catchInfo ∧
      Untouched t.mem (savesOf as) := by
  have hreturned := h.dispatches _ _ hdispatch
  have hframed := h.framed hu
  obtain ⟨tf, hloop, hctx, hmach, hrax, hmem⟩ := hreturned.found
  have hstored := hreturned.catchInfo tf hloop
  obtain ⟨passed, rest, frame, frames', before, has, hregs, hframes, hvisits, hexec, hhandler⟩ :=
    dispatch_selects hframed h.depth hloop
  have hcaller : (tf.ctx, tf.mach) = callerOfAll s passed := by
    have hthrown : machFrameAt u.mem (slot (u.reg .r8) 0x100) = thrownMach s := hu.mach
    rw [hregs, hu.context, hthrown]
    rfl
  have hsaved := hframed.spares _ _ _ _ hvisits hexec
  rw [hcaller] at hframes
  have hrsp : t.reg .rsp = u.reg .r8 := hreturned.conforms.rsp.trans hu.throwFrame.symm
  refine ⟨passed, tf.state, ⟨u, rest, frame, frames', before, hu, has, hframes, hvisits, hexec,
    hhandler⟩, hrax, ?_, ?_, ?_, ?_⟩
  · rw [hrsp, hctx, ← hcaller]
  · rw [hrsp, hmach, ← hcaller]
  · rw [hrsp]
    exact hstored
  · rw [hu.rsp] at hmem
    exact untouched_beyond hsaved h.beyond hmem (Nat.le_refl _) (by decide)

theorem continuation_goesOn {k : Cpu} {ci : CatchInfo}
    (h : InfoStored image t.mem (slot (t.reg .rsp) 0x128) ci) :
    continuation t k = goesOn ci (k.reg .rax) := by
  rw [continuation, goesOn]
  generalize k.reg .rax = returned
  by_cases hzero : returned = 0
  · have hslot (p : Ptr) : p + 8 * (0 : Ptr) = p := BitVec.add_zero p
    rw [hzero, if_pos (by decide), if_pos rfl, ← h.continuationAddress0, hslot]
  · by_cases hone : returned = 1
    · rw [hone, if_pos (by decide), if_neg (by decide), if_pos rfl, ← h.continuationAddress1]
      rfl
    · have habove : ¬ returned ≤ 1 := by
        bv_omega
      rw [if_neg habove, if_neg hzero, if_neg hone]

/-- What the dispatch selects is what is called, with the frame pointer that is recorded for it and
the registers that the function of that frame had when it made the call that was thrown out of. In
the end this function goes on, at the address that its tables have for what the handler has
returned. The flags and the selectors are those of the throw. -/
theorem selected_lands (h : ThrowsThrough image depth fuel uninit env as frames s) :
    (∀ calls f code t, Gets (machine env.returns) listing s calls ((f, .call .rcx) :: code) t →
      ∃ passed d, Selected image uninit as frames s passed d ∧ t.reg .rcx = d.handler ∧
        d.handler ≠ null ∧ t.reg .rdx = d.catchInfo.primaryFramePtr ∧
        context t = (callerOfAll s passed).1) ∧
    (∀ calls t, Gets (machine env.returns) listing s calls [] t →
      ∃ passed d, Selected image uninit as frames s passed d ∧
        (∃ k ∈ calls, k.callee = .rcx ∧ k.before.reg .rcx = d.handler ∧
          t.rip = goesOn d.catchInfo (k.after.reg .rax)) ∧
        context t = (callerOfAll s passed).1 ∧ t.reg .rsp = (callerOfAll s passed).2.rsp ∧
        t.rflags = capturedFlags s ∧ t.selector .cs = s.selector .cs ∧
          t.selector .ss = s.selector .ss) := by
  have hsafe := safe_listing (fun _ => 0) h.abides h.aligned
  refine ⟨fun calls f code t hgets => ?_, fun calls t hgets => ?_⟩
  · obtain ⟨d, n, rfl, hcallee, -, hlanded⟩ :=
      (hsafe.inv _ _ _ hgets (List.cons_ne_nil _ _)).call _ _ _ rfl
    obtain ⟨hcaptured, hd⟩ := captured_gets h.abides h.aligned hcallee hgets
    obtain ⟨passed, r, hselected, hrax, hctx, -, hstored, -⟩ := h.selected hcaptured hd
    refine ⟨passed, r, hselected, ?_, hselected.handler, ?_, ?_⟩
    · rw [hlanded.handler, hrax]
    · rw [hlanded.primaryFramePtr, ← hstored.primaryFramePtr, slot_slot]
    · rw [hlanded.context, ← hctx]
      rfl
  · obtain ⟨d, n, k, n', n'', e, rfl, hcallees, hresumed⟩ := hsafe.post _ _ hgets
    have hcallee : d.callee = .cxxDispatchException := (List.cons.inj hcallees).1
    have hfunclet : k.callee = .rcx :=
      (List.cons.inj (List.cons.inj (List.cons.inj hcallees).2).2).1
    obtain ⟨hcaptured, hd⟩ := captured_gets h.abides h.aligned hcallee hgets
    obtain ⟨passed, r, hselected, hrax, hctx, hmach, hstored, -⟩ := h.selected hcaptured hd
    obtain ⟨hcs, hflags, hss⟩ := system_callerOfAll s passed
    refine ⟨passed, r, hselected, ⟨k, by simp, hfunclet, ?_, ?_⟩, ?_, ?_, ?_, ?_, ?_⟩
    · obtain ⟨f, code, hto, -⟩ :=
        Gets.split (show Gets _ listing s ([d, n] ++ k :: [n', n'', e]) [] t from hgets)
      rw [hfunclet] at hto
      obtain ⟨d', n₁, hcalls, -, -, hlanded⟩ :=
        (hsafe.inv _ _ _ hto (List.cons_ne_nil _ _)).call _ _ _ rfl
      cases hcalls
      rw [hlanded.handler, hrax]
    · rw [hresumed.rip]
      exact continuation_goesOn hstored
    · rw [hresumed.context, ← hctx]
      rfl
    · rw [hresumed.rsp, catcher, hmach]
    · rw [hresumed.rflags, hmach, hflags]
      rfl
    · rw [hresumed.cs, hmach, hcs]
      exact BitVec.setWidth_setWidth_of_le _ (by decide)
    · rw [hresumed.ss, hmach, hss]
      exact BitVec.setWidth_setWidth_of_le _ (by decide)

def Above (rsp : Ptr) (xs : List (Store 64)) : Prop :=
  ∀ x ∈ xs, ∀ i < x.2.length, (x.1 + .ofNat 64 i - rsp).toNat < 2 ^ 63

theorem above_machFrame {ctx : FrameWalkContext} {mach : MachFrame} {m : Mem 64} {b : Ptr} :
    Above (slot b 0xe0) (Prologue.stores (.machineFrame (slot b 0x128) none) ⟨ctx, mach, m⟩
      (directives .cxxCallCatchHandler)) := by
  have hword (j i : Nat) (hj : 0x100 ≤ j ∧ j ≤ 0x120) (hi : i < 8) :
      (slot b 0x128 - .ofNat 64 (0x128 - j) + .ofNat 64 i - slot b 0xe0).toNat < 2 ^ 63 := by
    rw [slot_sub (by omega), Nat.sub_sub_self (by omega), slot_add, slot, slot]
    have hdiff : b + .ofNat 64 (j + i) - (b + .ofNat 64 0xe0) = .ofNat 64 (j + i - 0xe0) := by
      have hsplit : j + i = 0xe0 + (j + i - 0xe0) := by
        omega
      rw [hsplit, BitVec.ofNat_add, ← BitVec.add_assoc, Nat.add_sub_cancel_left, BitVec.add_comm,
        BitVec.add_sub_cancel]
    rw [hdiff, BitVec.toNat_ofNat, Nat.mod_eq_of_lt (by omega)]
    omega
  intro x hx i hi
  change x ∈ [_, _, _, _, _] at hx
  simp only [List.mem_cons, List.not_mem_nil, or_false] at hx
  obtain rfl | rfl | rfl | rfl | rfl := hx
  · exact hword 0x120 i (by decide) hi
  · exact hword 0x118 i (by decide) hi
  · exact hword 0x110 i (by decide) hi
  · exact hword 0x108 i (by decide) hi
  · exact hword 0x100 i (by decide) hi

theorem above_beyond {xs : List (Store 64)} (h : Beyond s xs) :
    Above (slot (bottom s) 0xe0) xs := by
  intro x hx i hi
  obtain ⟨hlow, hhigh⟩ := h x hx i hi
  generalize x.1 + .ofNat 64 i = q at *
  have hsub : q - slot (bottom s) 0xe0 = q - bottom s - 0xe0 := by
    rw [slot, BitVec.sub_sub]
    rfl
  have hsmall : (0xe0 : Ptr).toNat = 0xe0 := rfl
  rw [hsub, BitVec.toNat_sub_of_le (BitVec.le_def.mpr (by omega)), hsmall]
  omega

theorem ends_back {x y : FrameWalkContext × MachFrame} (hctx : x.1 = y.1)
    (hrip : x.2.rip = y.2.rip) (hrsp : x.2.rsp = y.2.rsp) :
    (as.foldl (fun x a => a.back x) x).2.rip = (as.foldl (fun x a => a.back x) y).2.rip := by
  induction as generalizing x y with
  | nil => exact hrip
  | cons a as ih => exact ih rfl rfl rfl

/-- While the handler runs, the stack is as described again, with the catch frame on what was not
unwound, all above the stack pointer and with the same end. Another throw finds it like the
first one did. -/
theorem handler_stands {calls : List (Called Callee Cpu)} {f : Region} {code : Code}
    {offsets : Nat → BitVec 8} {mach : MachFrame}
    (h : ThrowsThrough image depth fuel uninit env as frames s)
    (hcatches : Catches image.pdata image.mem offsets mach.rip)
    (hgets : Gets (machine env.returns) listing s calls ((f, .call .rcx) :: code) t)
    (hrsp : mach.rsp = t.reg .rsp) :
    ∃ passed rest d, Selected image uninit as frames s passed d ∧ as = passed ++ rest ∧
      Standing image.pdata image.mem t.mem (catchActivation s passed offsets :: rest) (context t)
        mach ∧
      Above (t.reg .rsp) (savesOf (catchActivation s passed offsets :: rest)) ∧
      ¬ image.pdata.Inside ((catchActivation s passed offsets :: rest).foldl (fun x a => a.back x)
        (context t, mach)).2.rip := by
  have hsafe := safe_listing (fun _ => 0) h.abides h.aligned
  obtain ⟨d, n, rfl, hcallee, -, hlanded⟩ :=
    (hsafe.inv _ _ _ hgets (List.cons_ne_nil _ _)).call _ _ _ rfl
  obtain ⟨hcaptured, hd⟩ := captured_gets h.abides h.aligned hcallee hgets
  obtain ⟨passed, r, hselected, -, hctx, hmach, -, huntouched⟩ := h.selected hcaptured hd
  obtain ⟨rest, rfl⟩ := hselected.split
  have hbottom : d.after.reg .rsp = bottom s :=
    (h.abides.dispatch _ _ hd).1.rsp.trans hcaptured.rsp
  have htrsp : t.reg .rsp = slot (bottom s) 0xe0 := by
    rw [hlanded.rsp, hbottom]
  have hsame := hlanded.mem
  rw [htrsp] at hsame
  have hcontext : context t = (callerOfAll s passed).1 := by
    rw [hlanded.context, ← hctx]
    rfl
  refine ⟨passed, rest, r, hselected, rfl, ⟨⟨hcatches.inside, ?_, trivial,
    ⟨⟨trivial, trivial⟩, rfl⟩, ?_⟩, ?_⟩, ?_, ?_⟩
  · obtain ⟨i, fn, hfn, hcovers, hdescribes⟩ := hcatches.describes
    exact ⟨i, fn, hfn, hcovers, hdescribes.count, hdescribes.data, hdescribes.frame⟩
  · have hframe : machFrameAt t.mem (slot (bottom s) 0x100) = (callerOfAll s passed).2 := by
      rw [machFrameAt_same hsame (by decide) (by decide), ← hbottom, hmach]
    rw [hcontext]
    refine ⟨?_, fun _ _ => rfl, fun _ _ => rfl, untouched_machFrame hframe⟩
    have hrun : slot (bottom s) 0x128 - 40 - ((3 : BitVec 4).setWidth 64 * 8 + 8) =
        slot (bottom s) 0xe0 := by
      rw [BitVec.sub_sub]
      exact slot_sub (by decide)
    rw [hrsp, htrsp]
    exact hrun.symm
  · exact (h.standing.congr rfl rfl (untouched_beyond huntouched h.beyond hsame (by decide)
      (by decide))).drop
  · rw [htrsp]
    refine List.forall_mem_append.mpr ⟨above_machFrame, above_beyond fun x hx => h.beyond x ?_⟩
    rw [savesOf, List.flatMap_append]
    exact List.mem_append_right _ hx
  · have hends := h.ends
    rw [callerOfAll, List.foldl_append] at hends
    have hback : (rest.foldl (fun x a => a.back x)
        ((catchActivation s passed offsets).back (context t, mach))).2.rip =
          (rest.foldl (fun x a => a.back x) (callerOfAll s passed)).2.rip := ends_back rfl rfl rfl
    rw [List.foldl_cons, hback]
    exact hends

end

def thrown : Cpu where
  reg r := if r = .rsp then DispatchLoop.pushingBody.mach.rsp - 8 else
    .ofNat 64 ([Reg.rbx, .rbp, .rsi, .rdi, .r12, .r13, .r14, .r15].idxOf r)
  xmm _ := 0
  selector _ := 0x10
  rflags := 0x202
  mem := writeWord DispatchLoop.pushingBody.mem (DispatchLoop.pushingBody.mach.rsp - 8) 0x401010
  rip := 0

def blank : CatchInfo := ⟨0, 0, 0, 0, none, 0⟩

def catchingEnv : Transfer.Env where
  dispatch := DispatchesFrames catchingImage 2 3 blank
  funclet s t := t = s.setReg .rax 0x4010b0
  destroy s t := t = s.setReg .rcx 0

theorem catchingEnv_abides : catchingEnv.Abides := by
  refine ⟨fun s t h => ⟨h.conforms, h.returnAddress⟩, ?_, ?_⟩ <;>
  · rintro s _ rfl
    exact ⟨⟨reg_setReg_of_ne (by decide), context_setReg (by decide)⟩, same_refl _ _ _⟩

theorem context_thrown : context thrown = DispatchLoop.thrownInside.ctx := by
  have hgpr : ∀ r : Fin 8, thrown.reg (gprReg r) = DispatchLoop.thrownInside.ctx.gpr r := by
    decide
  exact congrArg (FrameWalkContext.mk _) (funext hgpr)

theorem beyond_thrown : Beyond thrown (savesOf [DispatchLoop.pushing, DispatchLoop.handling]) := by
  have hall : ∀ x ∈ savesOf [DispatchLoop.pushing, DispatchLoop.handling], ∀ i < x.2.length,
      0x158 ≤ (x.1 + .ofNat 64 i - bottom thrown).toNat ∧
        (x.1 + .ofNat 64 i - bottom thrown).toNat < 2 ^ 63 := by
    decide
  exact hall

theorem framed_thrown {m : Mem 64}
    (hm : Untouched m (savesOf [DispatchLoop.pushing, DispatchLoop.handling])) :
    Framed catchingImage [DispatchLoop.pushing, DispatchLoop.handling]
      [pushingFrame, catchingFrame] ⟨context thrown, thrownMach thrown, startWith blank m⟩ := by
  have hrip : (thrownMach thrown).rip = 0x401010 := by
    decide
  have hrsp : (thrownMach thrown).rsp = 0x8ff0 := by
    decide
  refine framed_catching hrip hrsp ?_
  rw [context_thrown]
  exact DispatchLoop.standing_small.congr hrip hrsp hm

theorem untouched_thrown :
    Untouched thrown.mem (savesOf [DispatchLoop.pushing, DispatchLoop.handling]) := by
  have hall : ∀ x ∈ savesOf [DispatchLoop.pushing, DispatchLoop.handling],
      Holds thrown.mem x.1 x.2 := by
    decide
  exact hall

theorem start_thrown {u : Cpu} (hu : Captured thrown u) :
    start catchingImage blank u = startWith blank u.mem := by
  have hobject : u.reg .rcx = 8 := hu.exceptionObject
  have hinfo : u.reg .rdx = 8 := hu.throwInfo
  rw [start, startWith, hobject, hinfo]
  rfl

theorem framed_captured {u : Cpu} (hu : Captured thrown u) :
    Framed catchingImage [DispatchLoop.pushing, DispatchLoop.handling]
      [pushingFrame, catchingFrame] ⟨context thrown, thrownMach thrown, startWith blank u.mem⟩ := by
  have hsame := hu.mem
  rw [← slot_bottom] at hsame
  exact framed_thrown (untouched_beyond untouched_thrown beyond_thrown hsame (Nat.le_refl _)
    (by decide))

theorem throws_thrown : ThrowsThrough catchingImage 2 3 blank catchingEnv
    [DispatchLoop.pushing, DispatchLoop.handling] [pushingFrame, catchingFrame] thrown where
  abides := catchingEnv_abides
  dispatches _ _ h := h
  aligned := by decide
  sorted := DispatchLoop.sorted_table
  depth := Nat.le_refl 2
  standing := (framed_thrown untouched_thrown).standing
  beyond := beyond_thrown
  framesOf := (framed_thrown untouched_thrown).framesOf
  ends := (framed_thrown untouched_thrown).ends
  spares u hu := by
    rw [start_thrown hu]
    exact (framed_captured hu).spares

theorem same_caught {m : Mem 64} {b : Ptr} {i n : Nat} (hb : b = 0x8e90) (h : i + n ≤ 0x178) :
    Same m (caught m) (slot b i) n := by
  have hvar : slot b 0x178 = 0x9008 := by
    rw [hb]
    rfl
  have hlength : 0x178 + (readBytes m 8 4).length ≤ 2 ^ 64 := by
    change 0x178 + 4 ≤ 2 ^ 64
    decide
  rw [caught, ← hvar]
  exact same_write (.inl h) (by omega) hlength

theorem dispatches_thrown {u : Cpu} (hu : Captured thrown u) : ∃ d, catchingEnv.dispatch u d := by
  have hbottom : u.reg .rsp = 0x8e90 := hu.rsp
  have hmach : machFrameAt u.mem (slot (u.reg .r8) 0x100) = thrownMach thrown := hu.mach
  obtain ⟨d, hloop, hhandler, hmem, hinfo⟩ := dispatchLoop_catching (framed_captured hu)
  rw [← start_thrown hu, ← hu.context, ← hmach] at hloop
  have hr8 : u.reg .r8 = 0x8e90 := hu.throwFrame.trans hbottom
  generalize hys : ([(0x128, bytesLE 8 d.catchInfo.continuationAddress0.toNat),
    (0x130, bytesLE 8 d.catchInfo.continuationAddress1.toNat),
    (0x138, bytesLE 8 d.catchInfo.primaryFramePtr.toNat),
    (0x140, bytesLE 8 d.catchInfo.exceptionObjectOrLink.toNat),
    (0x148, bytesLE 8 (8 : BitVec 64).toNat),
    (0x150, bytesLE 8 d.catchInfo.unwindContext.toNat)] : List Part) = ys
  have hextents : ys.map extent =
      [(0x128, 8), (0x130, 8), (0x138, 8), (0x140, 8), (0x148, 8), (0x150, 8)] := by
    rw [← hys]
    rfl
  obtain ⟨m, hctx, hframe, hholds, hsame⟩ := @frame_redirected (caught u.mem) (u.reg .r8) 0x4010a0
    0x9000 ys (by rw [hextents]; decide) (by rw [hextents]; decide)
  have hstored {i : Nat} {v : BitVec 64} (hv : (i, bytesLE 8 v.toNat) ∈ ys) :
      readWord m (slot (u.reg .r8) i) = v := readWord_bytesLE (by decide) (hholds _ hv)
  refine ⟨Cpu.setReg { u with mem := m } .rax 0x401060, ⟨?_, ?_, _, hloop, ?_, ?_, ?_, ?_⟩, ?_⟩
  · exact ⟨reg_setReg_of_ne (by decide), context_setReg (s := { u with mem := m }) (by decide)⟩
  · rw [← hu.throwFrame]
    exact (same_caught hr8 (by decide)).trans (hsame.within (Nat.le_refl _) (by decide))
  · have hsame : Same u.mem (caught u.mem) (slot (u.reg .r8) 0x20) 0xe0 :=
      same_caught hr8 (by decide)
    rw [contextAt_same hsame (Nat.le_refl _) (Nat.le_refl _), hu.context, context_thrown] at hctx
    exact hctx
  · have hsame : Same u.mem (caught u.mem) (slot (u.reg .r8) 0x100) 0x28 :=
      same_caught hr8 (by decide)
    rw [machFrameAt_same hsame (Nat.le_refl _) (Nat.le_refl _)] at hframe
    exact hframe
  · rw [reg_setReg_self]
    exact hhandler.symm
  · rw [← hu.throwFrame]
    have hmem' : (catchingImage.program 2).mem d = caught u.mem := hmem
    rw [hmem']
    exact hsame.within (Nat.le_refl _) (by decide)
  · intro tf htf
    obtain rfl := Except.ok.inj (hloop.symm.trans htf)
    have hthrowInfo : readWord m (slot (u.reg .r8) 0x148) = 8 := hstored (by simp [← hys])
    refine ⟨hstored (by simp [← hys]), ?_, ?_, ?_, ?_, ?_⟩
    · rw [slot_slot]
      exact hstored (by simp [← hys])
    · rw [slot_slot]
      exact hstored (by simp [← hys])
    · rw [slot_slot]
      exact hstored (by simp [← hys])
    · rw [slot_slot]
      exact (congrArg catchingImage.throwInfoAt hthrowInfo).trans hinfo.symm
    · rw [slot_slot]
      exact hstored (by simp [← hys])

theorem gets_thrown : ∃ calls t, Gets (machine catchingEnv.returns) listing thrown calls [] t := by
  have hsafe := safe_listing (fun _ => 0) catchingEnv_abides throws_thrown.aligned
  refine hsafe.ends fun calls f k rest t hgets => ?_
  have hcall := (hsafe.inv _ _ _ hgets (List.cons_ne_nil _ _)).call _ _ _ rfl
  cases k with
  | cxxDispatchException => exact dispatches_thrown hcall.2
  | rcx | cxxDestroyException => exact ⟨_, rfl⟩
  | nlgDispatch2 | nlgReturn2 => exact ⟨_, 0, rfl⟩

theorem selected_lands_thrown : ∃ calls t,
    Gets (machine catchingEnv.returns) listing thrown calls [] t ∧
      ∃ passed d, Selected catchingImage blank [DispatchLoop.pushing, DispatchLoop.handling]
        [pushingFrame, catchingFrame] thrown passed d ∧
        (∃ k ∈ calls, k.callee = .rcx ∧ k.before.reg .rcx = d.handler ∧
          t.rip = goesOn d.catchInfo (k.after.reg .rax)) ∧
        context t = (callerOfAll thrown passed).1 ∧
        t.reg .rsp = (callerOfAll thrown passed).2.rsp ∧ t.rflags = capturedFlags thrown ∧
        t.selector .cs = thrown.selector .cs ∧ t.selector .ss = thrown.selector .ss := by
  obtain ⟨calls, t, hgets⟩ := gets_thrown
  exact ⟨calls, t, hgets, (selected_lands throws_thrown).2 _ _ hgets⟩

theorem handler_stands_thrown : ∃ calls f code t,
    Gets (machine catchingEnv.returns) listing thrown calls ((f, .call .rcx) :: code) t ∧
      ∃ passed rest d, Selected catchingImage blank [DispatchLoop.pushing, DispatchLoop.handling]
        [pushingFrame, catchingFrame] thrown passed d ∧
        [DispatchLoop.pushing, DispatchLoop.handling] = passed ++ rest ∧
        Standing catchingImage.pdata catchingImage.mem t.mem
          (catchActivation thrown passed (fun _ => 0) :: rest) (context t)
            ⟨0x401110, 0, 0, t.reg .rsp, 0⟩ ∧
        Above (t.reg .rsp) (savesOf (catchActivation thrown passed (fun _ => 0) :: rest)) ∧
        ¬ catchingImage.pdata.Inside
          ((catchActivation thrown passed (fun _ => 0) :: rest).foldl
            (fun (x : FrameWalkContext × MachFrame) a => a.back x)
            (context t, ⟨0x401110, 0, 0, t.reg .rsp, 0⟩)).2.rip := by
  have hcatches : Catches catchingImage.pdata catchingImage.mem (fun _ => 0) 0x401110 := by
    refine ⟨⟨by decide, by decide⟩, 2, _, rfl, ⟨by decide, by decide⟩, rfl, ?_, ?_⟩
    · exact ⟨by decide, by decide, trivial⟩
    · intro r disp hr
      cases List.mem_singleton.mp hr
  obtain ⟨calls, u, hgets⟩ := gets_thrown
  obtain ⟨d, n, h, n', n'', e, rfl, hcallees, -⟩ :=
    (safe_listing (fun _ => 0) catchingEnv_abides throws_thrown.aligned).post _ _ hgets
  have hcallee : h.callee = .rcx :=
    (List.cons.inj (List.cons.inj (List.cons.inj hcallees).2).2).1
  obtain ⟨f, code, hto, -⟩ :=
    Gets.split (show Gets _ listing thrown ([d, n] ++ h :: [n', n'', e]) [] u from hgets)
  rw [hcallee] at hto
  exact ⟨_, f, code, _, hto, handler_stands throws_thrown hcatches hto rfl⟩

end Vcrtl.X64.SelectedLands

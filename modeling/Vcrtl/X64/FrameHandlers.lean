import Vcrtl.SehPass
import Vcrtl.X64.DispatchLoop
import Vcrtl.X64.Steps

namespace Vcrtl.X64.FrameHandlers

open Lib.Memory BugCheck EhStructs Throw CatchFrame CatchVariable DispatcherContext Unwinder
open FunctionTable CallStack
open Dispatch (Visits)
open DispatchLoop (Thrown Program dispatchLoop turn_back)
open FailStop (unwindInfoAt FrameHandler executeHandler)

structure HandlerCall where
  handler : Ptr
  framePtr : Ptr
  fnent : PeFunction
  extraData : Ptr

/-- The call for the function that the registers are in, and the function's unwind info. -/
def callFor (pdata : FrameWalkPdata) (image : Mem 64) (ctx : FrameWalkContext) (mach : MachFrame) :
    Exec (Ptr × Option HandlerCall) :=
  executeHandler pdata image (fun handler framePtr fnent extraData _ =>
    .ok (.cxxHandler, some ⟨handler, framePtr, fnent, extraData⟩)) ctx mach none

inductive HandlerKind
  | cxxFrameHandler3
  | cxxFrameHandler4
  | cxxCallCatchFrameHandler
  | cxxSehFrameHandler
  deriving DecidableEq

/-- The image with its function table and its code, the addresses of the handlers, the tables that
are read through typed pointers, and the catch infos on the stack. -/
structure Image where
  pdata : FrameWalkPdata
  mem : Mem 64
  code : Code 64
  kindOf : Ptr → Option HandlerKind
  ehInfoAt : Rva → FunctionEhInfo
  throwInfoAt : Ptr → Option ThrowInfo
  infoAt : InfoAt

def Image.env (image : Image) : Env := ⟨image.code, image.pdata.imageBase, image.mem, image.infoAt⟩

def Image.frame (image : Image) (rip : Ptr) (c : HandlerCall) : Exec Frame :=
  match image.kindOf c.handler with
  | none => .error .fault
  | some .cxxFrameHandler3 =>
    .ok (.function ⟨c.framePtr, rip, c.fnent.begin,
      .fh3 (image.ehInfoAt (read32 image.mem c.extraData))⟩)
  | some .cxxFrameHandler4 =>
    .ok (.function ⟨c.framePtr, rip, c.fnent.begin, .fh4 (read32 image.mem c.extraData)⟩)
  | some .cxxCallCatchFrameHandler => do
    let info ← deref image.infoAt (catchInfoAddr c.framePtr)
    return .callCatch c.framePtr info
  | some .cxxSehFrameHandler => .ok .seh

def Image.frameOf (image : Image) (ctx : FrameWalkContext) (mach : MachFrame) :
    Exec (Ptr × Frame) := do
  let (info, call) ← callFor image.pdata image.mem ctx mach
  match call with
  | none => return (info, .function ⟨mach.rsp, mach.rip, 0, .none⟩)
  | some c => do
    let frame ← image.frame mach.rip c
    return (info, frame)

/-- The frames that a walk comes by, as far as the unwinder gets. -/
def Image.walk (image : Image) (m : Mem 64) : Nat → FrameWalkContext → MachFrame → List Frame
  | 0, _, _ => []
  | fuel + 1, ctx, mach =>
    match image.frameOf ctx mach with
    | .error _ => []
    | .ok (info, frame) =>
      match unwind (unwindInfoAt image.mem info) m ctx mach with
      | .error _ => [frame]
      | .ok (ctx, mach) => frame :: image.walk m fuel ctx mach

def Image.probe (image : Image) (m : Mem 64) :
    Nat → FrameWalkContext → MachFrame → CatchInfo → Exec CatchInfo
  | 0, _, _, _ => .error .hang
  | fuel + 1, ctx, mach, ci => do
    let (info, ci) ← executeHandler image.pdata image.mem
      (fun handler framePtr fnent extraData ci =>
        image.frame mach.rip ⟨handler, framePtr, fnent, extraData⟩ >>= fun frame =>
          probeFrame frame ci) ctx mach ci
    if ci.exceptionObjectOrLink ≠ null then
      return ci
    else do
      let (ctx, mach) ← unwind (unwindInfoAt image.mem info) m ctx mach
      image.probe m fuel ctx mach ci

/-- The handlers, called from the loop. A probe goes by the frames of a walk that starts
where the loop is. -/
def Image.handlers (image : Image) (depth : Nat) (handler : Ptr) : FrameHandler (Thrown Dispatch) :=
  fun framePtr fnent extraData tf => do
    let frame ← image.frame tf.mach.rip ⟨handler, framePtr, fnent, extraData⟩
    let frames := image.walk tf.state.world.mem depth tf.ctx tf.mach
    match SehPass.handler64 (fun _ => false) image.env frames frame with
    | none => .error .fault
    | some frameHandler => do
      let (disposition, d) ← frameHandler none tf.state
      return (disposition, { tf with state := d })

def Image.program (image : Image) (depth : Nat) : Program Dispatch where
  pdata := image.pdata
  image := image.mem
  handlers := image.handlers depth
  handler := Dispatch.handler
  mem d := d.world.mem

def Image.framesOf (image : Image) :
    List Activation → FrameWalkContext × MachFrame → Exec (List Frame)
  | [], _ => .ok []
  | a :: rest, x => do
    let (_, frame) ← image.frameOf x.1 x.2
    let frames ← image.framesOf rest (a.back x)
    return frame :: frames

/-- Each handler that the dispatch calls leaves alone what the functions have saved. -/
def Spares (env : Env) (frames : List Frame) (d : Dispatch) (saves : List (Store 64)) : Prop :=
  ∀ frame frames' d₁ d₂, Visits env frames d (frame :: frames') d₁ →
    Dispatch.executeHandler env (frame :: frames') frame d₁ = .ok d₂ → Untouched d₂.world.mem saves

/-- The frames are those of the functions on the stack that the loop is in. The stack ends
outside the image. -/
structure Framed (image : Image) (as : List Activation) (frames : List Frame)
    (tf : Thrown Dispatch) : Prop where
  sorted : Sorted image.pdata.functions
  standing : Standing image.pdata image.mem tf.state.world.mem as tf.ctx tf.mach
  framesOf : image.framesOf as (tf.ctx, tf.mach) = .ok frames
  ends : ¬ image.pdata.Inside (as.foldl (fun x a => a.back x) (tf.ctx, tf.mach)).2.rip
  spares : Spares image.env frames tf.state (savesOf as)

section

variable {σ : Type} {pdata : FrameWalkPdata} {mem : Mem 64} {handlers : Ptr → FrameHandler σ}
  {ctx : FrameWalkContext} {mach : MachFrame} {image : Image} {m : Mem 64} {fuel n depth : Nat}
  {ci ci' : CatchInfo} {a : Activation} {as rest : List Activation} {frame : Frame}
  {frames : List Frame} {tf tf' : Thrown Dispatch} {info : Ptr} {saves : List (Store 64)}

theorem executeHandler_call (d : σ) : executeHandler pdata mem handlers ctx mach d = (do
    let (info, call) ← callFor pdata mem ctx mach
    match call with
    | none => return (info, d)
    | some c => do
      let (disposition, d) ← handlers c.handler c.framePtr c.fnent c.extraData d
      verify (disposition = .cxxHandler)
      return (info, d)) := by
  simp only [callFor, executeHandler, bind_assoc]
  cases pdata.findFunctionEntry mach.rip with
  | error e => rfl
  | ok found =>
    cases found with
    | none => rfl
    | some i =>
      simp only [bind, Except.bind]
      cases Algorithm.elementAt pdata.functions i with
      | error e => rfl
      | ok fn =>
        dsimp only
        split
        · generalize displace pdata.imageBase (read32 mem _) = handler
          cases verify (handler ≠ null) with
          | error e => rfl
          | ok _ =>
            dsimp only
            cases FrameBase.handlerFramePtr
              (unwindInfoAt mem (displace pdata.imageBase fn.unwindInfo)) ctx mach <;> rfl
        · rfl

theorem frame_handled {rip : Ptr} {c : HandlerCall} (h : image.frame rip c = .ok frame) :
    SehPass.handler64 (fun _ => false) image.env frames frame ≠ none := by
  rw [Image.frame] at h
  split at h
  · cases h
  · cases h
    exact Option.some_ne_none _
  · cases h
    exact Option.some_ne_none _
  · obtain ⟨info, -, h⟩ := bind_ok.mp h
    cases h
    exact Option.some_ne_none _
  · cases h
    exact Option.some_ne_none _

theorem executeHandler_frame :
    executeHandler image.pdata image.mem (image.handlers depth) tf.ctx tf.mach tf = (do
      let (info, frame) ← image.frameOf tf.ctx tf.mach
      let d ← Dispatch.executeHandler image.env
        (image.walk tf.state.world.mem depth tf.ctx tf.mach) frame tf.state
      return (info, { tf with state := d })) := by
  rw [executeHandler_call, Image.frameOf]
  cases callFor image.pdata image.mem tf.ctx tf.mach with
  | error e => rfl
  | ok x =>
    obtain ⟨info, none | c⟩ := x
    · rfl
    · simp only [Image.handlers, bind, Except.bind]
      cases hframe : image.frame tf.mach.rip c with
      | error e => rfl
      | ok frame =>
        simp only [pure, Except.pure, SehPass.executeHandler_handler (fun _ => false)]
        cases hhandler : SehPass.handler64 (fun _ => false) image.env
            (image.walk tf.state.world.mem depth tf.ctx tf.mach) frame with
        | none => exact absurd hhandler (frame_handled hframe)
        | some handler =>
          dsimp only
          cases handler none tf.state with
          | error e => rfl
          | ok x =>
            simp only [bind, Except.bind]
            cases verify (x.1 = .cxxHandler) <;> rfl

theorem frameOf_found {info : Ptr} (hsorted : Sorted image.pdata.functions)
    (h : a.Stands image.pdata image.mem m ctx mach)
    (hframe : image.frameOf ctx mach = .ok (info, frame)) :
    unwind (unwindInfoAt image.mem info) m ctx mach = .ok (a.back (ctx, mach)) := by
  obtain ⟨⟨info', call⟩, hcall, hframe⟩ := bind_ok.mp hframe
  obtain ⟨i, fn, hfind, hfn, rfl, -⟩ := executeHandler_ok hcall
  have hinfo : displace image.pdata.imageBase fn.unwindInfo = info := by
    cases call with
    | none =>
      cases hframe
      rfl
    | some c =>
      obtain ⟨frame', -, hframe⟩ := bind_ok.mp hframe
      cases hframe
      rfl
  rw [← hinfo]
  exact unwind_caller h (h.found hsorted hfind hfn)

theorem frameOf_outside (h : ¬ image.pdata.Inside mach.rip) :
    image.frameOf ctx mach = onBugCheck .assertionFailure := by
  rw [Image.frameOf, callFor, executeHandler, findFunctionEntry_outside h]
  rfl

theorem framesOf_cons (h : image.framesOf (a :: rest) (ctx, mach) = .ok frames) :
    ∃ info frame frames', image.frameOf ctx mach = .ok (info, frame) ∧
      image.framesOf rest (a.back (ctx, mach)) = .ok frames' ∧ frames = frame :: frames' := by
  obtain ⟨⟨info, frame⟩, hframe, h⟩ := bind_ok.mp h
  obtain ⟨frames', hrest, h⟩ := bind_ok.mp h
  exact ⟨info, frame, frames', hframe, hrest, (pure_ok.mp h).symm⟩

/-- A walk from the registers of a stack that ends outside the image comes by its frames. -/
theorem walk_frames (hsorted : Sorted image.pdata.functions)
    (h : Standing image.pdata image.mem m as ctx mach)
    (hframes : image.framesOf as (ctx, mach) = .ok frames)
    (hend : ¬ image.pdata.Inside (as.foldl (fun x a => a.back x) (ctx, mach)).2.rip)
    (hdepth : as.length ≤ n) : image.walk m n ctx mach = frames := by
  induction as generalizing ctx mach frames n with
  | nil =>
    cases hframes
    cases n with
    | zero => rfl
    | succ n =>
      have houtside : image.frameOf ctx mach = _ := frameOf_outside hend
      rw [Image.walk, houtside]
      rfl
  | cons a rest ih =>
    obtain ⟨n, rfl⟩ := Nat.exists_eq_succ_of_ne_zero (Nat.ne_zero_of_lt hdepth)
    obtain ⟨info, frame, frames', hframe, hrest, rfl⟩ := framesOf_cons hframes
    simp only [Image.walk, hframe, frameOf_found hsorted h.1 hframe]
    have hback : Standing image.pdata image.mem m rest (a.back (ctx, mach)).1
        (a.back (ctx, mach)).2 :=
      h.2.congr rfl rfl (List.forall_mem_append.mp h.untouched).2
    rw [ih hback hrest hend (Nat.le_of_succ_le_succ hdepth)]

theorem executeProbe_frame :
    executeHandler image.pdata image.mem (fun handler framePtr fnent extraData ci =>
      image.frame mach.rip ⟨handler, framePtr, fnent, extraData⟩ >>= fun frame =>
        probeFrame frame ci) ctx mach ci = (do
      let (info, frame) ← image.frameOf ctx mach
      let (disposition, ci) ← probeFrame frame ci
      verify (disposition = .cxxHandler)
      return (info, ci)) := by
  rw [executeHandler_call, Image.frameOf]
  cases callFor image.pdata image.mem ctx mach with
  | error e => rfl
  | ok x =>
    obtain ⟨info, none | c⟩ := x
    · rfl
    · simp only [bind, Except.bind]
      cases image.frame mach.rip c <;> rfl

/-- A probe with the registers returns what one over the frames of a walk returns. -/
theorem probe_walk : image.probe m fuel ctx mach ci = .ok ci' ↔
    probeForExceptionObject (image.walk m fuel ctx mach) ci = .ok ci' := by
  induction fuel generalizing ctx mach ci with
  | zero =>
    refine iff_of_false ?_ ?_ <;>
    · intro h
      cases h
  | succ fuel ih =>
    rw [Image.probe, Image.walk, executeProbe_frame]
    cases image.frameOf ctx mach with
    | error e =>
      refine iff_of_false ?_ ?_ <;>
      · intro h
        cases h
    | ok x =>
      obtain ⟨info, frame⟩ := x
      have htail : ∃ rest, (match unwind (unwindInfoAt image.mem info) m ctx mach with
            | .error _ => [frame]
            | .ok (ctx, mach) => frame :: image.walk m fuel ctx mach) = frame :: rest ∧
          ∀ ci₁, (unwind (unwindInfoAt image.mem info) m ctx mach >>= fun x =>
            image.probe m fuel x.1 x.2 ci₁) = .ok ci' ↔
              probeForExceptionObject rest ci₁ = .ok ci' := by
        cases unwind (unwindInfoAt image.mem info) m ctx mach with
        | error e =>
          refine ⟨[], rfl, fun ci₁ => iff_of_false ?_ ?_⟩ <;>
          · intro h
            cases h
        | ok y => exact ⟨_, rfl, fun ci₁ => ih⟩
      obtain ⟨rest, hwalk, hrest⟩ := htail
      have hwalk' : probeForExceptionObject _ ci = _ :=
        congrArg (fun frames => probeForExceptionObject frames ci) hwalk
      refine Iff.trans ?_ (iff_of_eq (congrArg (· = Except.ok ci') hwalk'.symm))
      rw [probeForExceptionObject]
      simp only [bind_assoc, pure_bind]
      change (probeFrame frame ci >>= fun x => _) = Except.ok ci' ↔ _
      rw [bind_ok, bind_ok]
      refine exists_congr fun y => and_congr_right fun _ => ?_
      rw [bind_ok, bind_ok]
      refine exists_congr fun _ => and_congr_right fun _ => ?_
      dsimp only
      split
      · exact Iff.rfl
      · exact hrest y.2

theorem Framed.execute (h : Framed image (a :: rest) frames tf)
    (hdepth : (a :: rest).length ≤ depth) :
    ∃ info frame frames', frames = frame :: frames' ∧
      image.frameOf tf.ctx tf.mach = .ok (info, frame) ∧
      image.framesOf rest (a.back (tf.ctx, tf.mach)) = .ok frames' ∧
      executeHandler (image.program depth).pdata (image.program depth).image
        (image.program depth).handlers tf.ctx tf.mach tf = (do
          let d ← Dispatch.executeHandler image.env frames frame tf.state
          return (info, { tf with state := d })) := by
  obtain ⟨info, frame, frames', hframe, hrest, rfl⟩ := framesOf_cons h.framesOf
  refine ⟨info, frame, frames', rfl, hframe, hrest, executeHandler_frame.trans ?_⟩
  rw [hframe, walk_frames h.sorted h.standing h.framesOf h.ends hdepth]
  rfl

theorem Framed.callers {d : Dispatch} (h : Framed image (a :: rest) (frame :: frames) tf)
    (hrest : image.framesOf rest (a.back (tf.ctx, tf.mach)) = .ok frames)
    (hd : Dispatch.executeHandler image.env (frame :: frames) frame tf.state = .ok d)
    (hnull : d.handler = null) : Framed image rest frames ({ tf with state := d }.back a) := by
  have hmem : Untouched d.world.mem (savesOf (a :: rest)) := h.spares _ _ _ _ (.here _ _) hd
  refine ⟨h.sorted, ?_, hrest, h.ends, fun _ _ _ _ hvisits hd' => ?_⟩
  · exact (h.standing.congr rfl rfl hmem).2.congr rfl rfl (List.forall_mem_append.mp hmem).2
  · exact (List.forall_mem_append.mp (h.spares _ _ _ _ (.next hd hnull hvisits) hd')).2

/-- The handlers of the library write neither to the registers in the throw frame nor, on the way
through such frames, to what the functions have saved. -/
theorem Framed.program_spares (h : Framed image as frames tf) (hdepth : as.length ≤ depth) :
    (image.program depth).Spares as tf := by
  induction as generalizing tf frames with
  | nil => trivial
  | cons a rest ih =>
    obtain ⟨info, frame, frames', rfl, -, hrest, hexecute⟩ := h.execute hdepth
    intro info' tf' hexec
    obtain ⟨d, hd, hreturn⟩ := bind_ok.mp (hexecute.symm.trans hexec)
    cases hreturn
    refine ⟨rfl, rfl, fun hnull => ⟨h.spares _ _ _ _ (.here _ _) hd, ?_⟩⟩
    exact ih (h.callers hrest hd hnull) (Nat.le_of_succ_le hdepth)

/-- The loop's turn in a function on the stack is the dispatch's for its frame. -/
theorem Framed.turn (h : Framed image (a :: rest) frames tf) (hdepth : (a :: rest).length ≤ depth)
    (fuel : Nat) :
    ∃ frame frames', frames = frame :: frames' ∧
      image.framesOf (a :: rest) (tf.ctx, tf.mach) = .ok (frame :: frames') ∧
      (∀ d, Dispatch.executeHandler image.env frames frame tf.state = .ok d → d.handler = null →
        Framed image rest frames' ({ tf with state := d }.back a)) ∧
      dispatchLoop (image.program depth) (fuel + 1) tf = (do
        let d ← Dispatch.executeHandler image.env frames frame tf.state
        if d.handler ≠ null then
          return { tf with state := d }
        else
          dispatchLoop (image.program depth) fuel ({ tf with state := d }.back a)) := by
  obtain ⟨info, frame, frames', rfl, hframe, hrest, hexecute⟩ := h.execute hdepth
  refine ⟨frame, frames', rfl, h.framesOf, fun d hd hnull => h.callers hrest hd hnull, ?_⟩
  rw [dispatchLoop, hexecute]
  cases hd : Dispatch.executeHandler image.env (frame :: frames') frame tf.state with
  | error e => rfl
  | ok d =>
    by_cases hhandler : d.handler ≠ null
    · have hfound : (image.program depth).handler d ≠ null := hhandler
      simp only [bind, Except.bind, pure, Except.pure]
      rw [if_pos hhandler, if_pos hfound]
    · have hnull : ¬ (image.program depth).handler d ≠ null := hhandler
      have hmem : Untouched d.world.mem (savesOf (a :: rest)) := h.spares _ _ _ _ (.here _ _) hd
      have hcaller : unwind (unwindInfoAt (image.program depth).image info)
          ((image.program depth).mem d) tf.ctx tf.mach = .ok (a.back (tf.ctx, tf.mach)) :=
        frameOf_found h.sorted (h.standing.congr rfl rfl hmem).1 hframe
      simp only [bind, Except.bind, pure, Except.pure]
      rw [if_neg hhandler, if_neg hnull, hcaller]
      rfl

theorem Framed.ended (h : Framed image [] frames tf) :
    dispatchLoop (image.program depth) (fuel + 1) tf = onBugCheck .assertionFailure := by
  have hexec : executeHandler (image.program depth).pdata (image.program depth).image
      (image.program depth).handlers tf.ctx tf.mach tf = onBugCheck .assertionFailure := by
    have houtside : image.frameOf tf.ctx tf.mach = _ := frameOf_outside h.ends
    refine executeHandler_frame.trans ?_
    rw [houtside]
    rfl
  rw [dispatchLoop, hexec]
  rfl

/-- What the loop does with the registers in the throw frame is what the dispatch does with the
frames of the functions on the stack. -/
theorem dispatch_refines (h : Framed image as frames tf) (hdepth : as.length ≤ depth)
    (hfuel : as.length < fuel) : (image.program depth).Spares as tf ∧
      Thrown.state <$> dispatchLoop (image.program depth) fuel tf =
        Dispatch.dispatch image.env frames tf.state := by
  refine ⟨h.program_spares hdepth, ?_⟩
  induction as generalizing tf frames fuel with
  | nil =>
    obtain ⟨fuel, rfl⟩ := Nat.exists_eq_succ_of_ne_zero (Nat.ne_zero_of_lt hfuel)
    obtain rfl : [] = frames := Except.ok.inj h.framesOf
    rw [h.ended]
    rfl
  | cons a rest ih =>
    obtain ⟨fuel, rfl⟩ := Nat.exists_eq_succ_of_ne_zero (Nat.ne_zero_of_lt hfuel)
    obtain ⟨frame, frames', rfl, -, hrest, hloop⟩ := h.turn hdepth fuel
    rw [hloop, Dispatch.dispatch]
    cases hd : Dispatch.executeHandler image.env (frame :: frames') frame tf.state with
    | error e => rfl
    | ok d =>
      simp only [bind, Except.bind]
      split
      · rfl
      · rename_i hnull
        exact ih (hrest d hd (not_not.mp hnull)) (Nat.le_of_succ_le hdepth)
          (Nat.lt_of_succ_lt_succ hfuel)

theorem dispatch_selects (h : Framed image as frames tf) (hdepth : as.length ≤ depth)
    (hloop : dispatchLoop (image.program depth) fuel tf = .ok tf') :
    ∃ passed rest frame frames' d, as = passed ++ rest ∧
      (tf'.ctx, tf'.mach) = passed.foldl (fun x a => a.back x) (tf.ctx, tf.mach) ∧
      image.framesOf rest (tf'.ctx, tf'.mach) = .ok (frame :: frames') ∧
      Visits image.env frames tf.state (frame :: frames') d ∧
      Dispatch.executeHandler image.env (frame :: frames') frame d = .ok tf'.state ∧
      tf'.state.handler ≠ null := by
  induction as generalizing tf frames fuel with
  | nil =>
    cases fuel with
    | zero => cases hloop
    | succ fuel =>
      rw [h.ended] at hloop
      cases hloop
  | cons a rest ih =>
    cases fuel with
    | zero => cases hloop
    | succ fuel =>
      obtain ⟨frame, frames', rfl, hframes, hrest, hturn⟩ := h.turn hdepth fuel
      rw [hturn] at hloop
      obtain ⟨d, hd, hloop⟩ := bind_ok.mp hloop
      split at hloop
      · rename_i hhandler
        obtain rfl := pure_ok.mp hloop
        exact ⟨[], a :: rest, frame, frames', tf.state, rfl, rfl, hframes, .here _ _, hd, hhandler⟩
      · rename_i hnull
        have hd' := hrest d hd (not_not.mp hnull)
        obtain ⟨passed, rest', frame', frames'', d', rfl, hback, hframes', hvisits, hselect⟩ :=
          ih hd' (Nat.le_of_succ_le hdepth) hloop
        exact ⟨a :: passed, rest', frame', frames'', d', rfl, hback, hframes',
          .next hd (not_not.mp hnull) hvisits, hselect⟩

end

def catchingInfo : FunctionEhInfo :=
  ⟨[⟨-1, 0⟩], [⟨0, 0, 1, [⟨0, 0x30, 8, 0x1060, 0⟩]⟩], [⟨0x1090, 0⟩], 0⟩

def thrownInt : ThrowInfo := ⟨0, 0, [⟨0x1, 0x30, ⟨0, 0, 0⟩, 4, 0⟩]⟩

def catchingImage : Image where
  pdata := { DispatchLoop.table with imageSize := 0x2f00 }
  mem := DispatchLoop.image
  code _ m := m
  kindOf p := if p = 0x401050 then some .cxxFrameHandler3 else none
  ehInfoAt _ := catchingInfo
  throwInfoAt p := if p = null then none else some thrownInt
  infoAt _ := none

section

variable {ctx : FrameWalkContext} {mach : MachFrame} {m : Mem 64}

def pushingFrame : Frame := .function ⟨0x8ff0, 0x401010, 0, .none⟩

def catchingFrame : Frame := .function ⟨0x9000, 0x4010a0, 0x1090, .fh3 catchingInfo⟩

def startWith (uninit : CatchInfo) (m : Mem 64) : Dispatch :=
  ⟨Steps.initCatchInfo uninit 8 (some thrownInt), null, ⟨m, []⟩⟩

def caught (m : Mem 64) : Mem 64 := write m 0x9008 (readBytes m 8 4)

theorem untouched_caught
    (h : Untouched m (savesOf [DispatchLoop.pushing, DispatchLoop.handling])) :
    Untouched (caught m) (savesOf [DispatchLoop.pushing, DispatchLoop.handling]) := by
  have hclear : ∀ x ∈ savesOf [DispatchLoop.pushing, DispatchLoop.handling],
      ∀ i < x.2.length, ∀ j < 4, x.1 + .ofNat 64 i ≠ 0x9008 + .ofNat 64 j := by
    decide
  intro x hx
  have hholds : Holds (writeAll m [(0x9008, readBytes m 8 4)]) x.1 x.2 := by
    refine holds_writeAll (h x hx) fun y hy => ?_
    obtain rfl := List.mem_singleton.mp hy
    exact hclear x hx
  exact hholds

theorem frameOf_pushing (h : mach.rip = 0x401010) : catchingImage.frameOf ctx mach =
    .ok (0x402000, .function ⟨mach.rsp, 0x401010, 0, .none⟩) := by
  rw [Image.frameOf, callFor, executeHandler, h]
  rfl

theorem frameOf_catching (h : mach.rip = 0x4010a0) : catchingImage.frameOf ctx mach =
    .ok (0x402010, .function ⟨mach.rsp, 0x4010a0, 0x1090, .fh3 catchingInfo⟩) := by
  rw [Image.frameOf, callFor, executeHandler, h]
  rfl

theorem framed_catching {uninit : CatchInfo} (hrip : mach.rip = 0x401010) (hrsp : mach.rsp = 0x8ff0)
    (h : Standing DispatchLoop.program.pdata DispatchLoop.program.image m
      [DispatchLoop.pushing, DispatchLoop.handling] ctx mach) :
    Framed catchingImage [DispatchLoop.pushing, DispatchLoop.handling]
      [pushingFrame, catchingFrame] ⟨ctx, mach, startWith uninit m⟩ := by
  obtain ⟨hpushing, hhandling, -⟩ := h
  have hstanding : Standing catchingImage.pdata catchingImage.mem m
      [DispatchLoop.pushing, DispatchLoop.handling] ctx mach := by
    have hinside : catchingImage.pdata.Inside mach.rip := by
      rw [hrip]
      exact ⟨by decide, by decide⟩
    have hinside' : catchingImage.pdata.Inside 0x4010a0 := ⟨by decide, by decide⟩
    exact ⟨⟨hinside, hpushing.describes, hpushing.frameSaved, hpushing.undoable,
      hpushing.kept⟩,
      ⟨hinside', hhandling.describes, hhandling.frameSaved, hhandling.undoable,
      hhandling.kept⟩, trivial⟩
  refine ⟨DispatchLoop.sorted_table, hstanding, ?_, ?_, ?_⟩
  · have hcatching := @frameOf_catching DispatchLoop.pushing.caller.ctx
      (DispatchLoop.pushing.back (ctx, mach)).2 rfl
    simp only [Image.framesOf, frameOf_pushing hrip, bind, Except.bind]
    rw [Activation.back] at hcatching ⊢
    rw [hcatching, hrsp]
    rfl
  · have houtside : ¬ catchingImage.pdata.Inside 0x402f00 := by
      intro hinside
      exact absurd hinside.2 (by decide)
    exact houtside
  · intro frame frames' d₁ d₂ hvisits hexecute
    cases hvisits with
    | here =>
      cases hexecute
      exact hstanding.untouched
    | next hd hnull hrest =>
      cases hd
      cases hrest with
      | here =>
        cases hexecute
        exact untouched_caught hstanding.untouched
      | next hd hnull hrest =>
        cases hd
        cases hnull

theorem dispatchLoop_catching {uninit : CatchInfo} (h : Framed catchingImage
    [DispatchLoop.pushing, DispatchLoop.handling] [pushingFrame, catchingFrame]
      ⟨ctx, mach, startWith uninit m⟩) :
    ∃ d, dispatchLoop (catchingImage.program 2) 3 ⟨ctx, mach, startWith uninit m⟩ =
      .ok ⟨DispatchLoop.pushing.caller.ctx, (DispatchLoop.pushing.back (ctx, mach)).2, d⟩ ∧
      d.handler = 0x401060 ∧ d.world.mem = caught m ∧
      d.catchInfo.throwInfoIfOwner = some thrownInt := by
  obtain ⟨frame, frames', hframes, -, hrest, hloop⟩ := h.turn (Nat.le_refl 2) 2
  obtain ⟨rfl, rfl⟩ := List.cons.inj hframes
  obtain ⟨frame, frames', hframes, -, -, hloop'⟩ := (hrest _ rfl rfl).turn (Nat.le_succ 1) 1
  obtain ⟨rfl, rfl⟩ := List.cons.inj hframes
  exact ⟨_, hloop.trans hloop', rfl, rfl, rfl⟩

end

theorem dispatch_refines_small :
    (catchingImage.program 2).Spares [DispatchLoop.pushing, DispatchLoop.handling]
      ⟨DispatchLoop.thrownInside.ctx, DispatchLoop.thrownInside.mach,
        startWith ⟨0, 0, 0, 0, none, 0⟩ DispatchLoop.pushingBody.mem⟩ ∧
    Thrown.state <$> dispatchLoop (catchingImage.program 2) 3 ⟨DispatchLoop.thrownInside.ctx,
      DispatchLoop.thrownInside.mach, startWith ⟨0, 0, 0, 0, none, 0⟩
        DispatchLoop.pushingBody.mem⟩ = Dispatch.dispatch catchingImage.env
          [pushingFrame, catchingFrame] (startWith ⟨0, 0, 0, 0, none, 0⟩
            DispatchLoop.pushingBody.mem) :=
  dispatch_refines (framed_catching rfl (by decide) DispatchLoop.standing_small) (Nat.le_refl 2)
    (Nat.lt_succ_self 2)

end Vcrtl.X64.FrameHandlers

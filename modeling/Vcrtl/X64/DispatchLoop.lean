import Vcrtl.X64.CallStack

namespace Vcrtl.X64.DispatchLoop

open Lib.Memory BugCheck EhStructs CatchFrame Unwinder FunctionTable CallStack
open FailStop (unwindInfoAt FrameHandler executeHandler flagsAt)

variable {σ : Type}

/-- `cxx_throw_frame_t` and the dispatcher context, with what the handlers have in `state`. -/
structure Thrown (σ : Type) where
  ctx : FrameWalkContext
  mach : MachFrame
  state : σ

/-- The table of the functions, the image that their infos are in, and the frame handlers.
A dispatch looks into its state for the handler that was found and for the memory. -/
structure Program (σ : Type) where
  pdata : FrameWalkPdata
  image : Mem 64
  handlers : Ptr → FrameHandler (Thrown σ)
  handler : σ → Ptr
  mem : σ → Mem 64

def dispatchLoop (p : Program σ) : Nat → Thrown σ → Exec (Thrown σ)
  | 0, _ => .error .hang
  | fuel + 1, tf => do
    let (unwindInfo, tf) ← executeHandler p.pdata p.image p.handlers tf.ctx tf.mach tf
    if p.handler tf.state ≠ null then
      return tf
    else do
      let (ctx, mach) ← unwind (unwindInfoAt p.image unwindInfo) (p.mem tf.state) tf.ctx tf.mach
      dispatchLoop p fuel { tf with ctx := ctx, mach := mach }

def Thrown.back (tf : Thrown σ) (a : Activation) : Thrown σ :=
  { tf with ctx := (a.back (tf.ctx, tf.mach)).1, mach := (a.back (tf.ctx, tf.mach)).2 }

/-- The loop from caller to caller, whoever wrote down what they had. -/
def dispatchCallers (p : Program σ) : List Activation → Thrown σ → Exec (Thrown σ)
  | [], _ => .error .hang
  | a :: rest, tf => do
    let (_, tf) ← executeHandler p.pdata p.image p.handlers tf.ctx tf.mach tf
    if p.handler tf.state ≠ null then
      return tf
    else
      dispatchCallers p rest (tf.back a)

/-- No handler that is called on the way from caller to caller writes to the registers in the throw
frame. One that finds nothing leaves alone what the functions that are left have saved. -/
def Program.Spares (p : Program σ) : List Activation → Thrown σ → Prop
  | [], _ => True
  | a :: rest, tf =>
    ∀ info tf', executeHandler p.pdata p.image p.handlers tf.ctx tf.mach tf = .ok (info, tf') →
      tf'.ctx = tf.ctx ∧ tf'.mach = tf.mach ∧ (p.handler tf'.state = null →
        Untouched (p.mem tf'.state) (savesOf (a :: rest)) ∧ p.Spares rest (tf'.back a))

section

variable {p : Program σ} {as : List Activation} {a : Activation} {tf tf' : Thrown σ} {info : Ptr}
  {ctx : FrameWalkContext} {mach : MachFrame}

theorem turn_back {rest : List Activation} (hsorted : Sorted p.pdata.functions)
    (h : Standing p.pdata p.image (p.mem tf.state) (a :: rest) tf.ctx tf.mach)
    (hexec : executeHandler p.pdata p.image p.handlers tf.ctx tf.mach tf = .ok (info, tf'))
    (hctx : tf'.ctx = tf.ctx) (hmach : tf'.mach = tf.mach)
    (hmem : Untouched (p.mem tf'.state) (savesOf (a :: rest))) :
    unwind (unwindInfoAt p.image info) (p.mem tf'.state) tf'.ctx tf'.mach =
        .ok ((tf'.back a).ctx, (tf'.back a).mach) ∧
      Standing p.pdata p.image (p.mem tf'.state) rest (tf'.back a).ctx (tf'.back a).mach := by
  obtain ⟨i, fn, hfind, hfn, rfl, -⟩ := executeHandler_ok hexec
  obtain ⟨hstands, hrest⟩ := h.congr rfl rfl hmem
  refine ⟨?_, hrest.congr rfl rfl fun x hx => hmem x (List.mem_append_right _ hx)⟩
  rw [Thrown.back, hctx, hmach]
  exact unwind_caller hstands (h.1.found hsorted hfind hfn)

/-- The loop over the registers goes from caller to caller. -/
theorem dispatch_callers {fuel : Nat} (hsorted : Sorted p.pdata.functions)
    (hspares : p.Spares as tf)
    (h : Standing p.pdata p.image (p.mem tf.state) as tf.ctx tf.mach) (hfuel : fuel ≤ as.length) :
    dispatchLoop p fuel tf = dispatchCallers p (as.take fuel) tf := by
  induction as generalizing tf fuel with
  | nil =>
    obtain rfl := Nat.le_zero.mp hfuel
    rfl
  | cons a rest ih =>
    cases fuel with
    | zero => rfl
    | succ fuel =>
      rw [List.take_succ_cons, dispatchLoop, dispatchCallers]
      cases hexec : executeHandler p.pdata p.image p.handlers tf.ctx tf.mach tf with
      | error e => rfl
      | ok x =>
        obtain ⟨info, tf'⟩ := x
        obtain ⟨hctx, hmach, hleft⟩ := hspares info tf' hexec
        simp only [bind, Except.bind]
        split
        · rfl
        · rename_i hnull
          obtain ⟨hmem, hrest⟩ := hleft (not_not.mp hnull)
          obtain ⟨hunwind, hstands⟩ := turn_back hsorted h hexec hctx hmach hmem
          simp only [hunwind]
          exact ih hrest hstands (Nat.le_of_succ_le_succ hfuel)

end

def table : FrameWalkPdata :=
  ⟨0x400000, [⟨0x1000, 0x1080, 0x2000⟩, ⟨0x1090, 0x1100, 0x2010⟩, ⟨0x1100, 0x1180, 0x2020⟩], 0x3000,
    by decide⟩

def image : Mem 64 :=
  writeAll (fun _ => 0) [(0x402000, [0x01, 0x02, 0x01, 0x00, 0x02, 0x30]),
    (0x402010, [0x09, 0, 0, 0, 0x50, 0x10, 0, 0]),
    (0x402020, [0x01, 0, 0x02, 0, 0, 0x32, 0, 0x0a])]

def program : Program (Ptr × Mem 64) where
  pdata := table
  image := image
  handlers _ _ _ _ tf := .ok (.cxxHandler, { tf with state := (0x401060, tf.state.2) })
  handler := Prod.fst
  mem := Prod.snd

def handling : Activation :=
  ⟨⟨⟨fun _ => 0, fun r => .ofNat 64 r⟩, ⟨0x402f00, 0, 0, 0x9008, 0⟩, fun _ => 0⟩, .call, [],
    fun _ => 0⟩

def handlingBody : Prologue.Cpu := Prologue.run handling.entry handling.caller handling.ops

def pushing : Activation :=
  ⟨{ handlingBody with mach := { handlingBody.mach with rip := 0x4010a0 } }, .call,
    [.pushNonvol ⟨0, Nat.zero_lt_succ 7⟩], fun _ => 2⟩

def pushingBody : Prologue.Cpu := Prologue.run pushing.entry pushing.caller pushing.ops

def thrownInside : Thrown (Ptr × Mem 64) :=
  ⟨pushingBody.ctx, { pushingBody.mach with rip := 0x401010 }, (null, pushingBody.mem)⟩

theorem sorted_table : Sorted table.functions := ⟨by simp [table], by simp [table]⟩

theorem standing_small : Standing program.pdata program.image (program.mem thrownInside.state)
    [pushing, handling] thrownInside.ctx thrownInside.mach := by
  have hsaves : ∀ x ∈ savesOf [pushing, handling], Holds pushingBody.mem x.1 x.2 := by
    decide
  have hpushing : Prologue.Describes (unwindInfoAt image 0x402000) .call pushing.ops
      pushing.offsets := by
    refine ⟨rfl, ⟨by decide, trivial⟩, ?_⟩
    simp [pushing]
  have hhandling : Prologue.Describes (unwindInfoAt image 0x402010) .call handling.ops
      handling.offsets := by
    refine ⟨rfl, trivial, ?_⟩
    simp [handling]
  refine ⟨⟨⟨by decide, by decide⟩, ⟨0, _, rfl, ⟨by decide, by decide⟩, hpushing⟩, trivial,
    by decide, ?_⟩, ⟨⟨by decide, by decide⟩, ⟨1, _, rfl, ⟨by decide, by decide⟩, hhandling⟩,
    trivial, by decide, ?_⟩, trivial⟩
  · exact ⟨rfl, fun _ _ => rfl, fun _ _ => rfl, fun x hx => hsaves x (List.mem_append_left _ hx)⟩
  · refine ⟨rfl, fun _ _ => rfl, fun _ _ => rfl, fun x hx => hsaves x ?_⟩
    exact List.mem_append_right _ (List.mem_append_left _ hx)

theorem executeHandler_pushing {ctx : FrameWalkContext} {mach : MachFrame} {m : Mem 64}
    (h : mach.rip = 0x401010) :
    executeHandler program.pdata program.image program.handlers ctx mach ⟨ctx, mach, (null, m)⟩ =
      .ok (0x402000, ⟨ctx, mach, (null, m)⟩) := by
  rw [executeHandler, h]
  rfl

theorem executeHandler_handling {ctx : FrameWalkContext} {mach : MachFrame} {m : Mem 64}
    (h : mach.rip = 0x4010a0) :
    executeHandler program.pdata program.image program.handlers ctx mach ⟨ctx, mach, (null, m)⟩ =
      .ok (0x402010, ⟨ctx, mach, (0x401060, m)⟩) := by
  rw [executeHandler, h]
  rfl

theorem spares_small : program.Spares [pushing, handling] thrownInside := by
  intro info tf' hexec
  rw [thrownInside, executeHandler_pushing rfl] at hexec
  cases hexec
  refine ⟨rfl, rfl, fun _ => ⟨standing_small.untouched, ?_⟩⟩
  intro info tf' hexec
  rw [Thrown.back, executeHandler_handling rfl] at hexec
  cases hexec
  refine ⟨rfl, rfl, fun hnull => ?_⟩
  cases hnull

theorem dispatch_callers_small : dispatchLoop program 2 thrownInside =
    dispatchCallers program ([pushing, handling].take 2) thrownInside :=
  dispatch_callers sorted_table spares_small standing_small (Nat.le_refl 2)

end Vcrtl.X64.DispatchLoop

import Vcrtl.X64.Prologue

namespace Vcrtl.X64.FrameBase

open Lib.Memory BugCheck EhStructs Unwinder Prologue

/-- The frame pointer that `_execute_handler` passes to a frame handler. -/
def handlerFramePtr (u : PeUnwindInfo) (ctx : FrameWalkContext) (mach : MachFrame) : Exec Ptr :=
  if u.frameReg ≠ 0 then do
    let r ← gp u.frameReg
    return ctx.gpr r
  else
    .ok mach.rsp

/-- The stack pointer that `unwind` goes back to for a set frame pointer. -/
def restoredBase (u : PeUnwindInfo) (ctx : FrameWalkContext) : Exec Ptr := do
  let r ← gp u.frameReg
  return ctx.gpr r - u.frameRegDisp.setWidth 64 * 16

/-- The code for a set frame pointer takes the unwinder back to `base`. -/
def GoesBack (u : PeUnwindInfo) (ctx : FrameWalkContext) (base : Ptr) : Prop :=
  ∀ m i w, w.ctx.gpr = ctx.gpr → UnwindCode.ofBits (u.entry i).code = some .setFramePointer →
    unwindStep u m i w = .ok (i, w.setRsp base)

def FrameLast : List Op → Prop
  | [] => True
  | .setFrame _ _ :: _ => True
  | .saveNonvol _ _ :: ops | .saveXmm _ _ :: ops | .saveXmmFar _ _ :: ops => FrameLast ops
  | .pushNonvol _ :: ops | .allocSmall _ :: ops | .allocLarge _ :: ops | .allocHuge _ :: ops =>
    ∀ r d, .setFrame r d ∉ ops

def Frames (u : PeUnwindInfo) (ops : List Op) : Prop :=
  (u.frameReg = 0 ∧ ∀ r d, .setFrame r d ∉ ops) ∨
    ∃ r d, .setFrame r d ∈ ops ∧ u.frameReg = gpNumber r ∧ u.frameRegDisp = d

/-- The body may allocate below the frame if it has a frame register. It keeps that
register, and otherwise the stack pointer. -/
structure InBody (e : Entry) (caller : Cpu) (ops : List Op) (s : Cpu) : Prop where
  frame : ∀ r d, .setFrame r d ∈ ops → s.ctx.gpr r = (run e caller ops).ctx.gpr r
  rsp : (∀ r d, .setFrame r d ∉ ops) → s.mach.rsp = (run e caller ops).mach.rsp

variable {u : PeUnwindInfo} {e : Entry} {caller : Cpu} {ops : List Op} {s : Cpu} {r : Fin 8}
  {d : BitVec 4} {base : Ptr}

theorem setFramePointer_step {m : Mem 64} {i : Nat} {w : Walk}
    (h : UnwindCode.ofBits (u.entry i).code = some .setFramePointer) :
    unwindStep u m i w = (fun base => (i, w.setRsp base)) <$> restoredBase u w.ctx := by
  simp only [unwindStep, h, restoredBase]
  cases gp u.frameReg <;> rfl

theorem goesBack (h : restoredBase u s.ctx = .ok base) : GoesBack u s.ctx base := by
  intro m i w hgpr hcode
  have hbase : restoredBase u w.ctx = .ok base := by
    rw [← h, restoredBase, restoredBase, hgpr]
  rw [setFramePointer_step hcode, hbase]
  rfl

theorem frame_register (hwf : FrameSaved ops) (hlast : FrameLast ops) (h : .setFrame r d ∈ ops) :
    (run e caller ops).ctx.gpr r = (run e caller ops).mach.rsp + d.setWidth 64 * 16 := by
  induction ops with
  | nil => cases h
  | cons op ops ih =>
    cases op with
    | setFrame r' d' =>
      obtain ⟨-, honce, -⟩ := hwf
      obtain heq | h := List.mem_cons.mp h
      · cases heq
        exact Function.update_self ..
      · exact absurd h (honce r d)
    | saveNonvol r' n | saveXmm r' n | saveXmmFar r' n =>
      exact ih hwf hlast ((List.mem_cons.mp h).resolve_left nofun)
    | pushNonvol r' | allocSmall n | allocLarge n | allocHuge n =>
      exact absurd ((List.mem_cons.mp h).resolve_left nofun) (hlast r d)

theorem gpNumber_ne_zero (r : Fin 8) : gpNumber r ≠ 0 := by
  match r with
  | 0 | 1 | 2 | 3 | 4 | 5 | 6 | 7 => decide

theorem displaced_iff (p : Ptr) (d : BitVec 4) : p + d.setWidth 64 * 16 = p ↔ d = 0 := by
  constructor
  · intro h
    have hzero : d.setWidth 64 * 16 = 0 := by
      apply (BitVec.add_right_inj p).mp
      rw [h]
      exact (BitVec.add_zero p).symm
    have hd := d.isLt
    have hnat := congrArg BitVec.toNat hzero
    simp only [BitVec.toNat_mul, BitVec.toNat_setWidth] at hnat
    apply BitVec.eq_of_toNat_eq
    change d.toNat = 0
    change d.toNat % 2 ^ 64 * 16 % 2 ^ 64 = 0 at hnat
    omega
  · rintro rfl
    exact BitVec.add_zero p

/-- Handlers and unwinder agree on the base of a frame exactly if the frame register
is not displaced. -/
theorem frame_base_iff (hframes : Frames u ops) (hwf : FrameSaved ops) (hlast : FrameLast ops)
    (hs : InBody e caller ops s) :
    (handlerFramePtr u s.ctx s.mach = .ok (run e caller ops).mach.rsp ∧
      (u.frameReg ≠ 0 → restoredBase u s.ctx = .ok (run e caller ops).mach.rsp ∧
        GoesBack u s.ctx (run e caller ops).mach.rsp)) ↔
      u.frameReg = 0 ∨ u.frameRegDisp = 0 := by
  obtain ⟨hreg, hnone⟩ | ⟨r, d, hset, hreg, rfl⟩ := hframes
  · simp [handlerFramePtr, hreg, hs.rsp hnone]
  · have hne : u.frameReg ≠ 0 := hreg ▸ gpNumber_ne_zero r
    have hgpr := (hs.frame r _ hset).trans (frame_register hwf hlast hset)
    have hhandler : handlerFramePtr u s.ctx s.mach =
        .ok ((run e caller ops).mach.rsp + u.frameRegDisp.setWidth 64 * 16) := by
      rw [handlerFramePtr, if_pos hne, hreg, gp_number, ← hgpr]
      rfl
    have hrestored : restoredBase u s.ctx = .ok (run e caller ops).mach.rsp := by
      rw [restoredBase, hreg, gp_number]
      simp only [bind, Except.bind, pure, Except.pure, hgpr, BitVec.add_sub_cancel]
    rw [hhandler, Except.ok.injEq, displaced_iff]
    constructor
    · rintro ⟨hdisp, -⟩
      exact .inr hdisp
    · intro h
      exact ⟨h.resolve_left hne, fun _ => ⟨hrestored, goesBack hrestored⟩⟩

def undisplacedPrologue : List Op :=
  [.saveXmm xmm6 2, .setFrame rbp 0#4, .allocSmall 6, .pushNonvol rbx, .pushNonvol rbp]

def undisplacedInfo : PeUnwindInfo :=
  ⟨6, 5, 0#4, fun i => (encode .call undisplacedPrologue fun _ => 0).getD i.toNat 0⟩

def undisplacedBody : Cpu :=
  let s := run .call framedCaller undisplacedPrologue
  ⟨s.ctx, { s.mach with rsp := s.mach.rsp - 0x60 }, s.mem⟩

theorem frame_base_undisplaced :
    (handlerFramePtr undisplacedInfo undisplacedBody.ctx undisplacedBody.mach = .ok 0x7fa8 ∧
      (undisplacedInfo.frameReg ≠ 0 →
        restoredBase undisplacedInfo undisplacedBody.ctx = .ok 0x7fa8 ∧
          GoesBack undisplacedInfo undisplacedBody.ctx 0x7fa8)) ↔
      undisplacedInfo.frameReg = 0 ∨ undisplacedInfo.frameRegDisp = 0 := by
  have hset : Op.setFrame rbp 0#4 ∈ undisplacedPrologue := by
    simp [undisplacedPrologue]
  have hframes : Frames undisplacedInfo undisplacedPrologue := .inr ⟨_, _, hset, rfl, rfl⟩
  have hwf : FrameSaved undisplacedPrologue := by
    simp [undisplacedPrologue, FrameSaved, savedGps, Op.savedGp]
  have hlast : FrameLast undisplacedPrologue := by simp [undisplacedPrologue, FrameLast]
  have hbody : InBody .call framedCaller undisplacedPrologue undisplacedBody :=
    ⟨fun _ _ _ => rfl, fun hnone => absurd hset (hnone _ _)⟩
  exact frame_base_iff hframes hwf hlast hbody

def framedBody : Cpu :=
  let s := run .call framedCaller framedPrologue
  ⟨s.ctx, { s.mach with rsp := s.mach.rsp - 0x60 }, s.mem⟩

/-- A handler of the framed function looks for its variables 32 bytes too high. -/
theorem handler_base_displaced : InBody .call framedCaller framedPrologue framedBody ∧
    restoredBase framedInfo framedBody.ctx =
      .ok (run .call framedCaller framedPrologue).mach.rsp ∧
    handlerFramePtr framedInfo framedBody.ctx framedBody.mach ≠
      .ok (run .call framedCaller framedPrologue).mach.rsp := by
  refine ⟨⟨fun _ _ _ => rfl, fun hnone => ?_⟩, rfl, ?_⟩
  · exact absurd (by simp [framedPrologue]) (hnone rbp 2)
  · have hbase : (run .call framedCaller framedPrologue).mach.rsp = 0x7fa8 := rfl
    have hhandler : handlerFramePtr framedInfo framedBody.ctx framedBody.mach = .ok 0x7fc8 := rfl
    rw [hbase, hhandler]
    simp

end Vcrtl.X64.FrameBase

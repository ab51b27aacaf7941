import Vcrtl.X64.FrameBase
import Vcrtl.X64.UnwindFlow

namespace Vcrtl.X64.FrameAllocation

open Lib.Memory BugCheck EhStructs Unwinder Prologue FrameBase UnwindCodes UnwindFlow

/-- Two frames of one function that differ in what the body has allocated are unwound alike. -/
def Independent (u : PeUnwindInfo) : Prop :=
  ∀ (m : Mem 64) (ctx : FrameWalkContext) (mach : MachFrame) (base : Ptr),
    restoredBase u ctx = .ok base → ∀ rsp₁ ≤ base, ∀ rsp₂ ≤ base, ∀ x,
      unwind u m ctx { mach with rsp := rsp₁ } = .ok x ↔
        unwind u m ctx { mach with rsp := rsp₂ } = .ok x

variable {u : PeUnwindInfo} {r : Fin 8}

theorem differ_rsp {word : Ptr → Ptr → Prop} {wide : BitVec 128 → BitVec 128 → Prop}
    (ctx : FrameWalkContext) (mach : MachFrame) {rsp₁ rsp₂ : Ptr} (h : word rsp₁ rsp₂) :
    Differ word wide .onlyRsp ⟨ctx, { mach with rsp := rsp₁ }, false⟩
      ⟨ctx, { mach with rsp := rsp₂ }, false⟩ :=
  ⟨fun _ => rfl, fun _ => rfl, h, rfl, ⟨rfl, rfl, rfl⟩, rfl, nofun⟩

theorem base_high : ∀ disp : BitVec 4, 16 ≤ BitVec.allOnes 64 - disp.setWidth 64 * 16 := by
  decide

/-- A framed function is unwound independently of what its body has allocated exactly
if everything that its codes load before they set the stack pointer is loaded again. -/
theorem unwind_independent_iff (hreg : gp u.frameReg = .ok r) : Independent u ↔
    ∀ us, executed u (2 ^ 32) 0 = .ok us → (Affected.onlyRsp.after us).Clean := by
  constructor
  · intro h us hus
    let ctx : FrameWalkContext := ⟨fun _ => 0, fun _ => BitVec.allOnes 64⟩
    let mach : MachFrame := ⟨0, 0, 0, 0, 0⟩
    have hbase : restoredBase u ctx =
        .ok (BitVec.allOnes 64 - u.frameRegDisp.setWidth 64 * 16) := by
      rw [restoredBase, hreg]
      rfl
    have hsame := h lowBytes ctx mach _ hbase 0 (Nat.zero_le _) 16 (base_high _)
    have hfirst := (hsame _).mp (unwind_run hus lowBytes ctx { mach with rsp := 0 })
    have hfinish := Except.ok.inj
      (hfirst.symm.trans (unwind_run hus lowBytes ctx { mach with rsp := 16 }))
    have hdiffer : Differ (LowApart 16) (LowApart 16) .onlyRsp ⟨ctx, { mach with rsp := 0 }, false⟩
        ⟨ctx, { mach with rsp := 16 }, false⟩ := differ_rsp _ _ rfl
    have hend := hdiffer.run (carried_lowBytes 16 us.length) (Nat.le_refl _) fun undo _ =>
      adds_any undo
    exact hend.clean (lowApart_irrefl (by decide)) (lowApart_irrefl (by decide)) hfinish
  · intro h m ctx mach base _ rsp₁ _ rsp₂ _ x
    rw [unwind_executed, unwind_executed]
    apply exists_congr
    intro us
    apply and_congr_right
    intro hus
    have hdiffer : Differ (fun _ _ => True) (fun _ _ => True) .onlyRsp
        ⟨ctx, { mach with rsp := rsp₁ }, false⟩ ⟨ctx, { mach with rsp := rsp₂ }, false⟩ :=
      differ_rsp ctx mach trivial
    have hend := hdiffer.run (carried_any m us.length) (Nat.le_refl _) fun undo _ => adds_any undo
    rw [hend.finish_eq (h us hus)]

def pushedInfo : PeUnwindInfo :=
  ⟨4, 5, 2, fun i => (encode .call framedPrologue.tail fun _ => 0).getD i.toNat 0⟩

theorem unwind_independent_pushed : Independent pushedInfo := by
  apply (unwind_independent_iff (r := ⟨1, by decide⟩) rfl).mpr
  intro us hus
  cases hus
  decide

/-- With `movaps [rsp + 32], xmm6` behind it the prologue saves relative to the frame,
but the unwinder loads relative to what was allocated since. -/
theorem unwind_depends_on_allocation : ¬ Independent framedInfo := by
  intro h
  let ctx : FrameWalkContext := ⟨fun _ => 0, fun _ => 0x8020⟩
  let us : List Undo :=
    [.loadXmm ⟨0, by decide⟩ 0x20, .toFrame ⟨1, by decide⟩ 0x20, .advance 0x38,
      .pop ⟨0, by decide⟩, .pop ⟨1, by decide⟩]
  have hus : executed framedInfo (2 ^ 32) 0 = .ok us := rfl
  have hbase : restoredBase framedInfo ctx = .ok (0x8020 - (2 : BitVec 4).setWidth 64 * 16) := rfl
  have hsame := h lowBytes ctx ⟨0, 0, 0, 0, 0⟩ _ hbase 0x7fa0 (by decide) 0x8000 (by decide)
  have hallocated := (hsame _).mp (unwind_run hus lowBytes ctx ⟨0, 0, 0, 0x7fa0, 0⟩)
  have hfinish := Except.ok.inj
    (hallocated.symm.trans (unwind_run hus lowBytes ctx ⟨0, 0, 0, 0x8000, 0⟩))
  have hdiffer : Differ (LowApart 0x60) (LowApart 0x60) .onlyRsp ⟨ctx, ⟨0, 0, 0, 0x7fa0, 0⟩, false⟩
      ⟨ctx, ⟨0, 0, 0, 0x8000, 0⟩, false⟩ := differ_rsp ctx ⟨0, 0, 0, 0, 0⟩ rfl
  have hend := hdiffer.run (carried_lowBytes 0x60 us.length) (Nat.le_refl _) fun undo _ =>
    adds_any undo
  have hclean := hend.clean (lowApart_irrefl (by decide)) (lowApart_irrefl (by decide)) hfinish
  exact absurd hclean (by decide)

end Vcrtl.X64.FrameAllocation

import Vcrtl.X64.Directives

namespace Vcrtl.X64.Restore

open Lib.Memory EhStructs Unwinder Prologue UnwindCodes Directives

/-- The walk has undone all but the instructions `ops`. -/
structure Unwound (e : Entry) (caller : Cpu) (ops : List Op) (short : Nat) (w : Walk) : Prop where
  rsp : w.mach.rsp + .ofNat 64 short = (run e caller ops).mach.rsp
  gpr : ∀ r, Fixed ops r → w.ctx.gpr r = (run e caller ops).ctx.gpr r
  xmm : ∀ r, r ∉ savedXmms ops → w.ctx.xmm r = (run e caller ops).ctx.xmm r
  rip : w.ripUpdated = false

def ripSlot (rsp : Ptr) : Entry → Ptr
  | .call => rsp - 8
  | .machineFrame base _ => base - 40

section

variable {u : PeUnwindInfo} {m : Mem 64} {e : Entry} {caller s : Cpu} {op : Op} {pre ops : List Op}
  {w w' : Walk} {short : Nat} {offsets : Nat → BitVec 8}

theorem first_add_rest (n : BitVec 32) : first n + .ofNat 64 (rest n) = n.setWidth 64 := by
  have hsplit : n.toNat % 2 ^ 16 + rest n = n.toNat := by
    rw [rest, Nat.mul_comm]
    exact Nat.mod_add_div _ _
  have hfirst : (first n).toNat = n.toNat % 2 ^ 16 := by
    rw [first, BitVec.toNat_setWidth, BitVec.extractLsb'_toNat, Nat.shiftRight_zero]
    exact Nat.mod_eq_of_lt (Nat.lt_trans (Nat.mod_lt _ (by decide)) (by decide))
  apply BitVec.eq_of_toNat_eq
  rw [BitVec.toNat_add, hfirst, BitVec.toNat_ofNat, Nat.add_mod_mod, hsplit,
    BitVec.toNat_setWidth]

theorem gpr_exec {r : Fin 8} (h : ∀ d, op ≠ .setFrame r d) :
    (op.exec s).ctx.gpr r = s.ctx.gpr r := by
  cases op with
  | setFrame r' d =>
    have hne : r ≠ r' := fun he => h d (he ▸ rfl)
    exact Function.update_of_ne hne _ _
  | pushNonvol | allocSmall | allocLarge | allocHuge | saveNonvol | saveXmm | saveXmmFar => rfl

theorem frameSaved_tail (h : FrameSaved (op :: ops)) : FrameSaved ops := by
  cases op with
  | setFrame r d => exact h.2.2
  | pushNonvol | allocSmall | allocLarge | allocHuge | saveNonvol | saveXmm | saveXmmFar => exact h

theorem fixed_cons {r : Fin 8} (hwf : FrameSaved (op :: ops)) (h : Fixed ops r)
    (hop : op.savedGp ≠ some r) : Fixed (op :: ops) r ∧ ∀ d, op ≠ .setFrame r d := by
  constructor
  · refine h.imp (fun hn hm => ?_) fun ⟨d, hd⟩ => ⟨d, List.mem_cons_of_mem _ hd⟩
    rw [savedGps, List.filterMap_cons] at hm
    split at hm
    · exact hn hm
    · rename_i r' hr'
      obtain rfl | hm := List.mem_cons.mp hm
      · exact hop hr'
      · exact hn hm
  · rintro d rfl
    obtain hn | ⟨d', hd'⟩ := h
    · exact hn hwf.1
    · exact hwf.2.1 r d' hd'

theorem Unwound.undo (hw : Unwound e caller (op :: ops) short w) (hwf : FrameSaved (op :: ops))
    (hrsp : w'.mach.rsp + .ofNat 64 (op.short short) = (run e caller ops).mach.rsp)
    (hgpr : ∀ r, w'.ctx.gpr r =
      if op.savedGp = some r then (run e caller ops).ctx.gpr r else w.ctx.gpr r)
    (hxmm : ∀ r, w'.ctx.xmm r =
      if op.savedXmm = some r then (run e caller ops).ctx.xmm r else w.ctx.xmm r)
    (hrip : w'.ripUpdated = w.ripUpdated) : Unwound e caller ops (op.short short) w' := by
  refine ⟨hrsp, fun r hr => ?_, fun r hr => ?_, hrip.trans hw.rip⟩
  · rw [hgpr r]
    split
    · rfl
    · rename_i hop
      obtain ⟨hfixed, hset⟩ := fixed_cons hwf hr hop
      exact (hw.gpr r hfixed).trans (gpr_exec hset)
  · rw [hxmm r]
    split
    · rfl
    · rename_i hop
      apply hw.xmm r
      intro hm
      rw [savedXmms, List.filterMap_cons] at hm
      split at hm
      · exact hr hm
      · rename_i r' hr'
        obtain rfl | hm := List.mem_cons.mp hm
        · exact hop hr'
        · exact hr hm

theorem Unwound.undo_rsp {p : Ptr} (hw : Unwound e caller (op :: ops) short w)
    (hwf : FrameSaved (op :: ops)) (hgp : op.savedGp = none) (hxmm : op.savedXmm = none)
    (hrsp : p + .ofNat 64 (op.short short) = (run e caller ops).mach.rsp) :
    Unwound e caller ops (op.short short) (w.setRsp p) :=
  hw.undo hwf hrsp (fun _ => by simp [hgp, Walk.setRsp]) (fun _ => by simp [hxmm, Walk.setRsp]) rfl

theorem Unwound.undo_gp {r : Fin 8} {v : BitVec 64} {p : Ptr}
    (hw : Unwound e caller (op :: ops) short w) (hwf : FrameSaved (op :: ops))
    (hgp : op.savedGp = some r) (hxmm : op.savedXmm = none)
    (hv : v = (run e caller ops).ctx.gpr r)
    (hrsp : p + .ofNat 64 (op.short short) = (run e caller ops).mach.rsp) :
    Unwound e caller ops (op.short short) ((w.setGp r v).setRsp p) := by
  refine hw.undo hwf hrsp (fun r' => ?_) (fun _ => by simp [hxmm, Walk.setRsp, Walk.setGp]) rfl
  simp only [Walk.setRsp, Walk.setGp, Function.update_apply, hgp, Option.some.injEq, hv, eq_comm]
  split
  · rename_i he
    rw [he]
  · rfl

theorem Unwound.undo_xmm {r : Fin 10} {v : BitVec 128} (hw : Unwound e caller (op :: ops) short w)
    (hwf : FrameSaved (op :: ops)) (hgp : op.savedGp = none) (hxmm : op.savedXmm = some r)
    (hv : v = (run e caller ops).ctx.xmm r)
    (hrsp : w.mach.rsp + .ofNat 64 (op.short short) = (run e caller ops).mach.rsp) :
    Unwound e caller ops (op.short short) (w.setXmm r v) := by
  refine hw.undo hwf hrsp (fun _ => by simp [hgp, Walk.setXmm]) (fun r' => ?_) rfl
  simp only [Walk.setXmm, Function.update_apply, hxmm, Option.some.injEq, hv, eq_comm]
  split
  · rename_i he
    rw [he]
  · rfl

theorem freed {p q k : Ptr} (h : p + .ofNat 64 short = q - k) : p + k + .ofNat 64 short = q := by
  rw [BitVec.add_assoc, BitVec.add_comm k, ← BitVec.add_assoc, h, BitVec.sub_add_cancel]

theorem Unwound.step (hw : Unwound e caller (op :: ops) short w) (hwf : FrameSaved (op :: ops))
    (hmem : Untouched m (op.store (run e caller ops)).toList) (hfine : op.Fine short) :
    Unwound e caller ops (op.short short) ((Directives.undo op).run m w) := by
  have hrsp : w.mach.rsp + .ofNat 64 short = op.rsp (run e caller ops).mach.rsp := hw.rsp
  have hexact (h : short = 0) : w.mach.rsp = op.rsp (run e caller ops).mach.rsp := by
    rw [← hrsp, h]
    exact (BitVec.add_zero _).symm
  cases op with
  | pushNonvol r =>
    have hv : readWord m w.mach.rsp = (run e caller ops).ctx.gpr r :=
      hexact hfine ▸ readWord_bytesLE (by decide) (hmem _ (List.mem_singleton_self _))
    exact hw.undo_gp hwf rfl rfl hv (freed hrsp)
  | allocSmall n => exact hw.undo_rsp hwf rfl rfl (freed hrsp)
  | allocLarge n => exact hw.undo_rsp hwf rfl rfl (freed hrsp)
  | allocHuge n =>
    have hshort : w.mach.rsp + first n + .ofNat 64 (short + rest n) =
        (run e caller ops).mach.rsp := by
      rw [Nat.add_comm, ← add_ofNat_add, BitVec.add_assoc w.mach.rsp, first_add_rest]
      exact freed hrsp
    exact hw.undo_rsp hwf rfl rfl hshort
  | setFrame r d =>
    have hv : w.ctx.gpr r = (run e caller ops).mach.rsp + d.setWidth 64 * 16 := by
      rw [hw.gpr r (.inr ⟨d, List.mem_cons_self⟩)]
      exact Function.update_self ..
    refine hw.undo_rsp hwf rfl rfl (p := w.ctx.gpr r - d.setWidth 64 * 16) ?_
    rw [hv, BitVec.add_sub_cancel]
    exact BitVec.add_zero _
  | saveNonvol r n =>
    have hv : readWord m (w.mach.rsp + n.setWidth 64 * 8) = (run e caller ops).ctx.gpr r :=
      hexact hfine ▸ readWord_bytesLE (by decide) (hmem _ (List.mem_singleton_self _))
    exact hw.undo_gp hwf rfl rfl hv hrsp
  | saveXmm r n =>
    have hv : read128 m (w.mach.rsp + n.setWidth 64 * 16) = (run e caller ops).ctx.xmm r :=
      hexact hfine ▸ read128_bytesLE (hmem _ (List.mem_singleton_self _))
    exact hw.undo_xmm hwf rfl rfl hv hrsp
  | saveXmmFar r n =>
    obtain ⟨hshort, hrest⟩ := Nat.add_eq_zero_iff.mp hfine
    have hfirst : first n = n.setWidth 64 := by
      rw [← first_add_rest, hrest]
      exact (BitVec.add_zero _).symm
    have hv : read128 m (w.mach.rsp + first n) = (run e caller ops).ctx.xmm r := by
      rw [hfirst, hexact hshort]
      exact read128_bytesLE (hmem _ (List.mem_singleton_self _))
    exact hw.undo_xmm hwf rfl rfl hv hrsp

theorem Unwound.run (hw : Unwound e caller (pre ++ ops) short w) (hwf : FrameSaved (pre ++ ops))
    (hmem : Untouched m (stores e caller (pre ++ ops))) (hfine : AllFine short pre) :
    Unwound e caller ops (shortAfter short pre) (runAll m (pre.map Directives.undo) w) := by
  induction pre generalizing w short with
  | nil => exact hw
  | cons op pre ih =>
    obtain ⟨hop, hpre⟩ := List.forall_mem_append.mp hmem
    exact ih (hw.step hwf hop hfine.1) (frameSaved_tail hwf) hpre hfine.2

theorem stores_entry (h : Untouched m (stores e caller ops)) :
    Untouched m (e.stores caller.mach) := by
  induction ops with
  | nil => exact h
  | cons op ops ih => exact ih (List.forall_mem_append.mp h).2

theorem finish_ctx : (finish m (runAll m (undoEntry e) w)).1 = w.ctx := by
  cases e with
  | call => by_cases h : w.ripUpdated <;> simp [undoEntry, runAll, finish, h]
  | machineFrame base errorCode => simp [undoEntry, runAll, finish, Undo.run]

theorem finish_rip (hw : Unwound e caller [] short w) :
    (finish m (runAll m (undoEntry e) w)).2.rip =
      readWord m (ripSlot caller.mach.rsp e - .ofNat 64 short) := by
  have hrsp : w.mach.rsp = e.rsp caller.mach.rsp - .ofNat 64 short := by
    rw [← show w.mach.rsp + .ofNat 64 short = e.rsp caller.mach.rsp from hw.rsp,
      BitVec.add_sub_cancel]
  cases e with
  | call =>
    simp only [undoEntry, runAll, List.foldl_nil, finish, hw.rip, Bool.false_eq_true, if_false,
      hrsp]
    rfl
  | machineFrame base errorCode =>
    have hslot : w.mach.rsp + (if errorCode.isSome then 8 else 0) =
        base - 40 - .ofNat 64 short := by
      rw [hrsp]
      cases errorCode with
      | none => exact BitVec.add_zero _
      | some v =>
        simp only [Entry.rsp, Option.isSome_some, if_true]
        bv_omega
    exact congrArg (readWord m) hslot

theorem finish_rsp (hmem : Untouched m (e.stores caller.mach)) (hw : Unwound e caller [] 0 w) :
    (finish m (runAll m (undoEntry e) w)).2.rsp = caller.mach.rsp := by
  have hrsp : w.mach.rsp = e.rsp caller.mach.rsp := (BitVec.add_zero _).symm.trans hw.rsp
  cases e with
  | call =>
    simp only [undoEntry, runAll, List.foldl_nil, finish, hw.rip, Bool.false_eq_true, if_false,
      hrsp]
    exact BitVec.sub_add_cancel _ _
  | machineFrame base errorCode =>
    have hslot : w.mach.rsp + (if errorCode.isSome then 8 else 0) + 24 = base - 16 := by
      rw [hrsp]
      cases errorCode with
      | none =>
        simp only [Entry.rsp, Option.isSome_none, Bool.false_eq_true, if_false]
        bv_omega
      | some v =>
        simp only [Entry.rsp, Option.isSome_some, if_true]
        bv_omega
    have hold : wordAt (base - 16) caller.mach.rsp ∈
        (Entry.machineFrame base errorCode).stores caller.mach := by
      simp [Entry.stores]
    exact (congrArg (readWord m) hslot).trans (readWord_bytesLE (by decide) (hmem _ hold))

theorem rip_held (hmem : Untouched m (e.stores caller.mach)) :
    readWord m (ripSlot caller.mach.rsp e) = caller.mach.rip := by
  have hrip : wordAt (ripSlot caller.mach.rsp e) caller.mach.rip ∈ e.stores caller.mach := by
    cases e <;> simp [Entry.stores, ripSlot]
  exact readWord_bytesLE (by decide) (hmem _ hrip)

theorem unwind_described (hu : Describes u e ops offsets) (m : Mem 64) (ctx : FrameWalkContext)
    (mach : MachFrame) : unwind u m ctx mach = .ok (finish m (runAll m (undoEntry e)
      (runAll m (ops.map Directives.undo) ⟨ctx, mach, false⟩))) := by
  rw [unwind_run (executed_encode hu), runAll_append]

theorem kept_unwound (hs : Kept e caller ops s) :
    Unwound e caller ops 0 ⟨s.ctx, s.mach, false⟩ :=
  ⟨(BitVec.add_zero _).trans hs.rsp, hs.gpr, hs.xmm, rfl⟩

/-- After a prologue that it can undo the unwinder gives back to the caller what it had. -/
theorem unwind_restores (hu : Describes u e ops offsets) (hundo : Undoable ops)
    (hwf : FrameSaved ops) (hs : Kept e caller ops s) :
    ∃ mach, unwind u s.mem s.ctx s.mach = .ok (caller.ctx, mach) ∧
      mach.rip = caller.mach.rip ∧ mach.rsp = caller.mach.rsp := by
  have hentry := stores_entry hs.mem
  have hstart : Unwound e caller (ops ++ []) 0 ⟨s.ctx, s.mach, false⟩ := by
    rw [List.append_nil]
    exact kept_unwound hs
  have hw := hstart.run (by rwa [List.append_nil]) (by rw [List.append_nil]; exact hs.mem) hundo.1
  rw [hundo.2] at hw
  have hgpr : _ = caller.ctx.gpr := funext fun r => hw.gpr r (.inl List.not_mem_nil)
  have hxmm : _ = caller.ctx.xmm := funext fun r => hw.xmm r List.not_mem_nil
  refine ⟨_, ?_, ?_, finish_rsp hentry hw⟩
  · rw [unwind_described hu, Except.ok.injEq]
    refine Prod.ext ?_ rfl
    rw [finish_ctx]
    exact congrArg₂ FrameWalkContext.mk hxmm hgpr
  · rw [finish_rip hw]
    exact (congrArg (readWord s.mem) (BitVec.sub_zero _)).trans (rip_held hentry)

end

end Vcrtl.X64.Restore

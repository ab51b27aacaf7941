import Vcrtl.X64.UnwindCodes

namespace Vcrtl.X64.Directives

open Lib.Memory BugCheck EhStructs Unwinder Prologue UnwindCodes

def undo : Op → Undo
  | .pushNonvol r => .pop r
  | .allocSmall n => .advance (n.setWidth 64 * 8 + 8)
  | .allocLarge n => .advance (n.setWidth 64 * 8)
  | .allocHuge n => .advance (first n)
  | .setFrame r disp => .toFrame r (disp.setWidth 64 * 16)
  | .saveNonvol r n => .loadGp r (n.setWidth 64 * 8)
  | .saveXmm r n => .loadXmm r (n.setWidth 64 * 16)
  | .saveXmmFar r n => .loadXmm r (first n)

def undoEntry : Entry → List Undo
  | .call => []
  | .machineFrame _ errorCode => [.machineFrame (if errorCode.isSome then 8 else 0)]

variable {op : Op} {ops : List Op} {e : Entry} {offsets : Nat → BitVec 8} {o : BitVec 8}
  {ws : List (BitVec 16)} {frameReg frameRegDisp : BitVec 4} {m : Mem 64} {u : Undo}
  {us vs : List Undo} {s : Walk} {info : PeUnwindInfo}

theorem codes_op (h : ∀ r d, op = .setFrame r d → frameReg = gpNumber r ∧ frameRegDisp = d) :
    codes frameReg frameRegDisp 0 (op.encode o ++ ws) =
      (undo op :: ·) <$> codes frameReg frameRegDisp 0 ws := by
  cases op with
  | setFrame r d =>
    obtain ⟨rfl, rfl⟩ := h r d rfl
    simp only [Op.encode, List.cons_append, codes, operands, decode, entryOf_word, gp_number]
    rfl
  | pushNonvol r | saveNonvol r n =>
    simp only [Op.encode, List.cons_append, codes, operands, decode, entryOf_word, gp_number]
    rfl
  | allocSmall n | allocLarge n =>
    simp only [Op.encode, List.cons_append, codes, operands, decode, entryOf_word]
    rfl
  | saveXmm r n =>
    simp only [Op.encode, List.cons_append, codes, operands, decode, entryOf_word, xmm_number]
    rfl
  | allocHuge n =>
    simp only [Op.encode, words32, List.cons_append, codes, operands, decode, entryOf_word]
    rfl
  | saveXmmFar r n =>
    simp only [Op.encode, words32, List.cons_append, codes, operands, decode, entryOf_word,
      xmm_number]
    rfl

theorem codes_encode
    (h : ∀ r d, .setFrame r d ∈ ops → frameReg = gpNumber r ∧ frameRegDisp = d) :
    codes frameReg frameRegDisp 0 (encode e ops offsets) = .ok (ops.map undo ++ undoEntry e) := by
  induction ops with
  | nil =>
    cases e with
    | call => rfl
    | machineFrame base errorCode =>
      simp only [encode, Entry.encode, codes, operands, decode, entryOf_word]
      cases errorCode <;> rfl
  | cons op ops ih =>
    rw [encode, codes_op fun r d heq => h r d (heq ▸ List.mem_cons_self),
      ih fun r d hmem => h r d (List.mem_cons_of_mem _ hmem)]
    rfl

theorem whole_encode : Whole 0 (encode e ops offsets) := by
  induction ops with
  | nil =>
    cases e with
    | call => trivial
    | machineFrame base errorCode =>
      simp only [encode, Entry.encode, Whole, operands, entryOf_word]
      trivial
  | cons op ops ih =>
    refine Whole.append ?_ ih
    cases op <;>
    · simp only [Op.encode, words32, Whole, operands, entryOf_word]
      trivial

theorem executed_encode (h : Describes info e ops offsets) :
    executed info (2 ^ 32) 0 = .ok (ops.map undo ++ undoEntry e) :=
  (Written.executed_eq ⟨h.count, h.data⟩ whole_encode).trans (codes_encode h.frame)

theorem length_encode : (encode e ops offsets).length =
    (ops.map fun op => (op.encode 0).length).sum + e.encode.length := by
  induction ops with
  | nil => exact (Nat.zero_add _).symm
  | cons op ops ih =>
    have hop : (op.encode (offsets ops.length)).length = (op.encode 0).length := by
      cases op <;> rfl
    rw [encode, List.length_append, ih, hop, List.map_cons, List.sum_cons, Nat.add_assoc]

theorem runAll_append :
    runAll m (us ++ vs) s = runAll m vs (runAll m us s) :=
  List.foldl_append

theorem runAll_cons :
    runAll m (u :: us) s = runAll m us (u.run m s) := rfl

theorem runAll_loadXmm (rs : List (Fin 10)) (n : Fin 10 → Ptr) : ∃ xmm,
    runAll m (rs.map fun r => .loadXmm r (n r)) s = { s with ctx := { s.ctx with xmm := xmm } } ∧
      (∀ r ∉ rs, xmm r = s.ctx.xmm r) ∧ ∀ r ∈ rs, xmm r = read128 m (s.mach.rsp + n r) := by
  induction rs generalizing s with
  | nil => exact ⟨s.ctx.xmm, rfl, fun _ _ => rfl, by simp⟩
  | cons r rs ih =>
    obtain ⟨xmm, hrun, hother, hload⟩ := @ih ((Undo.loadXmm r (n r)).run m s)
    refine ⟨xmm, hrun, fun r' hr' => ?_, fun r' hr' => ?_⟩
    · obtain ⟨hne, hmem⟩ := List.ne_and_not_mem_of_not_mem_cons hr'
      rw [hother r' hmem]
      exact Function.update_of_ne hne _ _
    · by_cases hmem : r' ∈ rs
      · exact hload r' hmem
      · obtain rfl := (List.mem_cons.mp hr').resolve_right hmem
        rw [hother r' hmem]
        exact Function.update_self ..

theorem runAll_pop {rs : List (Fin 8)} (h : rs.Nodup) : ∃ gpr,
    runAll m (rs.map .pop) s = { s with
      ctx := { s.ctx with gpr := gpr }
      mach := { s.mach with rsp := s.mach.rsp + 8 * .ofNat 64 rs.length } } ∧
      (∀ r ∉ rs, gpr r = s.ctx.gpr r) ∧
        ∀ i (hi : i < rs.length), gpr rs[i] = readWord m (s.mach.rsp + 8 * .ofNat 64 i) := by
  induction rs generalizing s with
  | nil => exact ⟨s.ctx.gpr, by simp [runAll], fun _ _ => rfl, by simp⟩
  | cons r rs ih =>
    obtain ⟨hr, hrs⟩ := List.nodup_cons.mp h
    have hnext (i : Nat) :
        s.mach.rsp + 8 + 8 * .ofNat 64 i = s.mach.rsp + 8 * .ofNat 64 (i + 1) := by
      rw [BitVec.ofNat_add, BitVec.mul_add, BitVec.add_assoc, BitVec.add_comm (8 * .ofNat 64 i)]
      rfl
    obtain ⟨gpr, hrun, hother, hpop⟩ := @ih ((Undo.pop r).run m s) hrs
    refine ⟨gpr, ?_, fun r' hr' => ?_, fun i hi => ?_⟩
    · rw [List.length_cons, ← hnext]
      exact hrun
    · obtain ⟨hne, hmem⟩ := List.ne_and_not_mem_of_not_mem_cons hr'
      rw [hother r' hmem]
      exact Function.update_of_ne hne _ _
    · cases i with
      | zero =>
        rw [List.getElem_cons_zero, hother r hr]
        exact (Function.update_self ..).trans (by simp)
      | succ i =>
        rw [List.getElem_cons_succ, hpop i (Nat.lt_of_succ_lt_succ hi), ← hnext]
        rfl

end Vcrtl.X64.Directives

import Vcrtl.X64.Transfer

namespace Vcrtl.X64.ThrowFrame

open Lib.Memory Lib.Listing Lib.Amd64 Lib.Parts BugCheck EhStructs Unwinder Capture Transfer

def bottom (s : Cpu) : Ptr := s.reg .rsp - 0x158

def wordPart (i : Nat) (v : BitVec 64) : Part := (i, bytesLE 8 v.toNat)

def xmmPart (i : Nat) (v : BitVec 128) : Part := (i, bytesLE 16 v.toNat)

def gprParts (s : Cpu) : List Part :=
  [wordPart 0x120 ((s.selector .ss).setWidth 64), wordPart 0x118 (s.reg .rsp + 8),
    wordPart 0x110 (capturedFlags s), wordPart 0x108 ((s.selector .cs).setWidth 64),
    wordPart 0x100 (readWord s.mem (s.reg .rsp)), wordPart 0xf8 (s.reg .r15),
    wordPart 0xf0 (s.reg .r14), wordPart 0xe8 (s.reg .r13), wordPart 0xe0 (s.reg .r12),
    wordPart 0xd8 (s.reg .rdi), wordPart 0xd0 (s.reg .rsi), wordPart 0xc8 (s.reg .rbp),
    wordPart 0xc0 (s.reg .rbx)]

def xmmParts (s : Cpu) (rs : List (Fin 10)) : List Part :=
  rs.map fun r => xmmPart (0x20 + 16 * r.val) (s.xmm (xmmReg r))

section

variable {κ : Type} (returns : κ → Cpu → Cpu → Prop) {s t : Cpu} {b : Ptr} {m : Mem 64}
  {xs : List Part} {i : Nat} {r : Fin 10}

theorem slot_bottom (s : Cpu) : slot (bottom s) 0x158 = s.reg .rsp :=
  BitVec.sub_add_cancel (s.reg .rsp) 0x158

theorem writeWord_parts {v : BitVec 64} : writeWord (writeAll m (stores b xs)) (slot b i) v =
    writeAll m (stores b (xs ++ [wordPart i v])) :=
  write_stores (x := wordPart i v)

theorem run_captureGpr (hrsp : s.reg .rsp = slot b 0x158) : ∃ t,
    run (machine returns) captureGpr s = some t ∧ t.reg .rsp = slot b 0 ∧
      (∀ r, r ∉ [Reg.rax, .r10, .r11, .rsp] → t.reg r = s.reg r) ∧ t.xmm = s.xmm ∧
        t.mem = writeAll s.mem (stores b (gprParts s)) := by
  refine ⟨_, rfl, ?_, ?_, rfl, ?_⟩
  · simp [Cpu.push, Cpu.setReg, Cpu.statusOfSub, Cpu.setStatus, hrsp, slot_sub]
  · intro r hr
    simp only [List.mem_cons, List.not_mem_nil, not_or] at hr
    simp [Cpu.push, Cpu.setReg, Cpu.statusOfSub, Cpu.setStatus, hr]
  · have hfirst (v : BitVec 64) (i : Nat) : writeWord s.mem (slot b i) v =
        writeAll s.mem (stores b [wordPart i v]) := rfl
    simp [Cpu.push, Cpu.setReg, Cpu.statusOfSub, Cpu.setStatus, Cpu.eval, Cpu.address, hrsp,
      slot_sub, hfirst, writeWord_parts, gprParts, capturedFlags]

def storeXmm (r : Fin 10) : Instr := .movdqaStore (.above .rax (0x20 + 16 * r - 0x60)) (xmmReg r)

theorem captureXmm_lines :
    captureXmm = .lea .rax (.above .rsp 0x60) :: (List.finRange 10).map storeXmm := rfl

theorem address_xmm (hrax : s.reg .rax = slot b 0x60) :
    s.address (.above .rax (0x20 + 16 * r - 0x60)) = slot b (0x20 + 16 * r) := by
  have hdisp : ((0x60 : Nat) : Int) + (0x20 + 16 * (r : Nat) - 0x60) = (0x20 + 16 * r : Nat) := by
    omega
  rw [Cpu.address, hrax, slot_disp (by omega), hdisp, Int.toNat_natCast]

theorem exec_storeXmm (hb : aligned b = true) (hrax : s.reg .rax = slot b 0x60) :
    exec (storeXmm r) s = some { s with
      mem := write s.mem (slot b (0x20 + 16 * r)) (bytesLE 16 (s.xmm (xmmReg r)).toNat) } := by
  rw [storeXmm, exec, address_xmm hrax, if_pos (aligned_slot hb (by omega))]

theorem run_storeXmm (rs : List (Fin 10)) (hb : aligned b = true) (hrax : s.reg .rax = slot b 0x60)
    (hmem : s.mem = writeAll m (stores b xs)) :
    run (machine returns) (rs.map storeXmm) s = some { s with
      mem := writeAll m (stores b (xs ++ xmmParts s rs)) } := by
  induction rs generalizing s xs with
  | nil =>
    have hnone : xs ++ xmmParts s [] = xs := List.append_nil xs
    rw [hnone, ← hmem]
    rfl
  | cons r rs ih =>
    have hexec : (machine returns).exec (storeXmm r) s = _ := exec_storeXmm hb hrax
    have hwrite : write s.mem (slot b (0x20 + 16 * r)) (bytesLE 16 (s.xmm (xmmReg r)).toNat) =
        writeAll m (stores b (xs ++ [xmmPart (0x20 + 16 * r) (s.xmm (xmmReg r))])) := by
      rw [hmem]
      exact write_stores (x := xmmPart _ _)
    rw [List.map_cons, run_cons, hexec, Option.bind_some]
    refine (@ih { s with mem := write s.mem _ _ } _ hrax hwrite).trans ?_
    rw [List.append_assoc]
    rfl

theorem extent_frame (s t : Cpu) :
    (gprParts s ++ xmmParts t (List.finRange 10)).map extent =
      [(0x120, 8), (0x118, 8), (0x110, 8), (0x108, 8), (0x100, 8), (0xf8, 8), (0xf0, 8), (0xe8, 8),
        (0xe0, 8), (0xd8, 8), (0xd0, 8), (0xc8, 8), (0xc0, 8)] ++
        (List.finRange 10).map fun r => (0x20 + 16 * r.val, 16) := by
  simp [gprParts, wordPart, xmmParts, xmmPart, extent]

theorem frame_spaced (s t : Cpu) :
    Spaced 64 ((gprParts s ++ xmmParts t (List.finRange 10)).map extent) := by
  rw [extent_frame]
  decide

theorem gprParts_mem (s : Cpu) (r : Fin 8) :
    wordPart (0x20 + (0xa0 + 8 * r)) (s.reg (gprReg r)) ∈ gprParts s := by
  have hregs : gprParts s = (gprParts s).take 5 ++ (List.finRange 8).reverse.map
      fun r => wordPart (0x20 + (0xa0 + 8 * r.val)) (s.reg (gprReg r)) := rfl
  rw [hregs]
  exact List.mem_append_right _ (List.mem_map.mpr ⟨r, by simp, rfl⟩)

theorem readWord_part {v : BitVec 64} (hxs : Spaced 64 (xs.map extent)) (h : wordPart i v ∈ xs) :
    readWord (writeAll m (stores b xs)) (slot b i) = v :=
  readWord_bytesLE (by decide) (holds_part hxs h)

theorem read128_part {v : BitVec 128} (hxs : Spaced 64 (xs.map extent)) (h : xmmPart i v ∈ xs) :
    read128 (writeAll m (stores b xs)) (slot b i) = v :=
  read128_bytesLE (holds_part hxs h)

end

section

variable {env : Env} {offsets : Nat → BitVec 8} {s t u : Cpu} {b : Ptr} {f g : Funclet}
  {calls past : List (Called Callee Cpu)} {code rest : Code} {i : Instr} {k : Callee}
  {l : Line Instr Condition Callee}

structure Throwing (s t : Cpu) : Prop where
  rsp : t.reg .rsp = bottom s
  context : context t = context s
  mem : Same s.mem t.mem (s.reg .rsp) 8

theorem Throwing.stacked (h : Throwing s t) :
    Stacked offsets s past (.body .cxxThrowException) t := by
  intro m hm
  have hbottom : slot (t.reg .rsp) 0x158 = s.reg .rsp := by
    rw [h.rsp, slot_bottom]
  have htop : slot (t.reg .rsp) 0x158 + 8 = slot (t.reg .rsp) 0x160 := slot_add
  change Same t.mem m (slot (t.reg .rsp) 0x158) 8 at hm
  rw [hbottom] at hm
  refine ⟨_, callerOf_throw, ?_⟩
  rw [← htop, hbottom, h.context, (h.mem.trans hm).readWord]
  rfl

theorem Throwing.setReg {r : Reg} {v : BitVec 64} (h : Throwing s t) (hrsp : Reg.rsp ≠ r)
    (hr : ∀ q, gprReg q ≠ r) : Throwing s (t.setReg r v) :=
  ⟨(reg_setReg_of_ne hrsp).trans h.rsp, (context_setReg hr).trans h.context, h.mem⟩

def frameParts (s : Cpu) : List Part := gprParts s ++ xmmParts s (List.finRange 10)

theorem frameParts_below (s : Cpu) :
    ∀ e ∈ (frameParts s).map extent, Clear (0x158, 2 ^ 64 - 0x158) e ∧ e.1 + e.2 ≤ 2 ^ 64 := by
  rw [frameParts, extent_frame]
  decide

theorem captured_of_parts (haligned : aligned (bottom s) = true) (hrsp : t.reg .rsp = bottom s)
    (hrcx : t.reg .rcx = s.reg .rcx) (hrdx : t.reg .rdx = s.reg .rdx)
    (hr8 : t.reg .r8 = bottom s)
    (hmem : t.mem = writeAll s.mem (stores (bottom s) (frameParts s))) : Captured s t := by
  have hgpr (x : Part) (hx : x ∈ gprParts s) : x ∈ frameParts s := List.mem_append_left _ hx
  have hword (i : Nat) (v : BitVec 64) (h : wordPart i v ∈ gprParts s) :
      readWord t.mem (slot (bottom s) i) = v := by
    rw [hmem]
    exact readWord_part (frame_spaced s s) (hgpr _ h)
  have hxmm (r : Fin 10) : read128 t.mem (slot (bottom s) (0x20 + 16 * r)) = s.xmm (xmmReg r) := by
    rw [hmem]
    exact read128_part (frame_spaced s s)
      (List.mem_append_right _ (List.mem_map.mpr ⟨r, List.mem_finRange r, rfl⟩))
  have hcontext : contextAt t.mem (slot (bottom s) 0x20) = context s := by
    simp only [contextAt_slot, hxmm, hword _ _ (gprParts_mem s _), context]
  have hmach : machFrameAt t.mem (slot (bottom s) 0x100) =
      ⟨readWord s.mem (s.reg .rsp), (s.selector .cs).setWidth 64, capturedFlags s, s.reg .rsp + 8,
        (s.selector .ss).setWidth 64⟩ := by
    rw [machFrameAt_slot, hword 0x100 (readWord s.mem (s.reg .rsp)) (by simp [gprParts]),
      hword (0x100 + 8) ((s.selector .cs).setWidth 64) (by simp [gprParts]),
      hword (0x100 + 16) (capturedFlags s) (by simp [gprParts]),
      hword (0x100 + 24) (s.reg .rsp + 8) (by simp [gprParts]),
      hword (0x100 + 32) ((s.selector .ss).setWidth 64) (by simp [gprParts])]
  refine ⟨hrsp, ?_, hrcx, hrdx, hr8.trans hrsp.symm, ?_, ?_, ?_⟩
  · rwa [hrsp]
  · rwa [hr8]
  · rwa [hr8]
  · rw [← slot_bottom, hmem]
    exact same_stores (frameParts_below s) (by decide)

theorem same_below (s : Cpu) {xs : List Part} (hxs : ∀ x ∈ xs, x ∈ frameParts s) :
    Same s.mem (writeAll s.mem (stores (bottom s) xs)) (s.reg .rsp) (2 ^ 64 - 0x158) := by
  rw [← slot_bottom]
  refine same_stores (fun e he => ?_) (by decide)
  obtain ⟨x, hx, rfl⟩ := List.mem_map.mp he
  exact frameParts_below s _ (List.mem_map_of_mem (hxs x hx))

theorem throwing_of_parts {xs : List Part} (hrsp : t.reg .rsp = bottom s)
    (hcontext : context t = context s) (hxs : ∀ x ∈ xs, x ∈ frameParts s)
    (hmem : t.mem = writeAll s.mem (stores (bottom s) xs)) : Throwing s t := by
  refine ⟨hrsp, hcontext, ?_⟩
  rw [hmem, ← slot_zero (s.reg .rsp)]
  have hsame := same_below s hxs
  rw [← slot_zero (s.reg .rsp)] at hsame
  exact hsame.within (Nat.le_refl _) (by decide)

theorem safe_cxxThrowException (henv : env.Abides) (haligned : aligned (bottom s) = true)
    (hrest : ∀ u d, Captured s u → env.dispatch u d → d.reg .rsp = bottom s →
      Safe (machine env.returns) (AtLine offsets s) Done [⟨.cxxDispatchException, u, d⟩] rest
        (d.setReg .rcx (d.reg .rax))) :
    Safe (machine env.returns) (AtLine offsets s) Done [] (cxxThrowException ++ rest) s := by
  rw [cxxThrowException, List.append_assoc, List.append_assoc]
  refine safe_lines (fun _ => True) trivial (fun _ _ _ _ => atLine_prolog) ?_ ?_
  · intro i hi t _
    have hall : ∀ i ∈ captureGpr, faults i = false := by decide
    obtain ⟨u, hu⟩ := exec_of_not_faults (hall i hi) t
    exact ⟨u, hu, trivial⟩
  intro t₁ hrun _
  obtain ⟨t₁', hrun', hrsp, hreg, hxmm, hmem⟩ :=
    run_captureGpr env.returns (slot_bottom s).symm
  obtain rfl : t₁' = t₁ := Option.some.inj (hrun'.symm.trans hrun)
  rw [slot_zero] at hrsp
  have hvolatile : ∀ q, gprReg q ∉ [Reg.rax, .r10, .r11, .rsp] := by decide
  have hcontext : context t₁' = context s := by
    rw [context, hxmm, funext fun q => hreg _ (hvolatile q)]
    rfl
  have hgpr : ∀ x ∈ gprParts s, x ∈ frameParts s := fun x hx => List.mem_append_left _ hx
  have hthrowing : Throwing s t₁' := throwing_of_parts hrsp hcontext hgpr hmem
  rw [captureXmm_lines]
  refine safe_instr (atLine_instr hthrowing.stacked) rfl ?_
  have hbase : t₁'.address (.above .rsp 0x60) = slot (bottom s) 0x60 := by
    rw [← hrsp]
    exact address_above t₁' .rsp 0x60
  rw [hbase]
  have hthrowing₂ : Throwing s (t₁'.setReg .rax (slot (bottom s) 0x60)) :=
    hthrowing.setReg (by decide) (by decide)
  have hrax : (t₁'.setReg .rax (slot (bottom s) 0x60)).reg .rax = slot (bottom s) 0x60 :=
    reg_setReg_self _ _ _
  have harg (r : Reg) (hr : r ∉ [Reg.rax, .r10, .r11, .rsp]) :
      (t₁'.setReg .rax (slot (bottom s) 0x60)).reg r = s.reg r := by
    rw [reg_setReg_of_ne (by rintro rfl; simp at hr), hreg r hr]
  have hstores := run_storeXmm env.returns (List.finRange 10) haligned hrax hmem
  have hparts : xmmParts (t₁'.setReg .rax (slot (bottom s) 0x60)) (List.finRange 10) =
      xmmParts s (List.finRange 10) := by
    rw [xmmParts, xmmParts, ← hxmm]
    rfl
  rw [hparts] at hstores
  generalize t₁'.setReg .rax (slot (bottom s) 0x60) = t₂ at *
  refine safe_lines (fun t => Throwing s t ∧ t.reg .rax = slot (bottom s) 0x60)
    ⟨hthrowing₂, hrax⟩ (fun _ _ _ h => atLine_instr h.1.stacked) ?_ ?_
  · rintro i hi t ⟨hthrowing, hrax⟩
    obtain ⟨r, -, rfl⟩ := List.mem_map.mp hi
    refine ⟨_, exec_storeXmm haligned hrax, ⟨hthrowing.rsp, hthrowing.context, ?_⟩, hrax⟩
    refine hthrowing.mem.trans ?_
    have hlt := r.isLt
    rw [← slot_bottom]
    exact same_write (.inr (by rw [length_bytesLE]; omega)) (by decide)
      (by rw [length_bytesLE]; omega)
  rintro t₃ hrun₃ ⟨hthrowing₃, -⟩
  obtain rfl := Option.some.inj (hstores.symm.trans hrun₃)
  refine safe_instr (atLine_instr hthrowing₃.stacked) rfl ?_
  have hr8 : Cpu.address { t₂ with mem := writeAll s.mem (stores (bottom s) (frameParts s)) }
      (.above .rsp 0) = bottom s := by
    rw [← slot_zero (bottom s), ← hthrowing₃.rsp]
    exact address_above _ .rsp 0
  have hcaptured : Captured s (Cpu.setReg
      { t₂ with mem := writeAll s.mem (stores (bottom s) (frameParts s)) } .r8 (bottom s)) := by
    refine captured_of_parts haligned ?_ ?_ ?_ (reg_setReg_self _ _ _) rfl
    · rw [reg_setReg_of_ne (by decide)]
      exact hthrowing₃.rsp
    · rw [reg_setReg_of_ne (by decide)]
      exact harg .rcx (by decide)
    · rw [reg_setReg_of_ne (by decide)]
      exact harg .rdx (by decide)
  have hthrowing₄ := hthrowing₃.setReg (v := bottom s) (by decide : Reg.rsp ≠ .r8) (by decide)
  rw [← frameParts] at hthrowing₄ ⊢
  rw [hr8]
  refine safe_call (atLine_call hthrowing₄.stacked hthrowing₄.stacked ⟨rfl, hcaptured⟩) ?_
  intro d hd
  obtain ⟨hconforms, hsame⟩ := henv.dispatch _ _ hd
  rw [hthrowing₄.rsp, slot_bottom] at hsame
  have hdispatched : Throwing s d := ⟨hconforms.rsp.trans hthrowing₄.rsp,
    hconforms.context.trans hthrowing₄.context, hthrowing₄.mem.trans hsame⟩
  refine safe_instr (atLine_instr hdispatched.stacked) rfl ?_
  exact hrest _ d hcaptured hd hdispatched.rsp

end

end Vcrtl.X64.ThrowFrame

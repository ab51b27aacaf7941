import Vcrtl.X64.ThrowFrame

namespace Vcrtl.X64.CatchTransfer

open Lib.Memory Lib.Listing Lib.Amd64 Lib.Parts BugCheck EhStructs Unwinder Capture Transfer
open ThrowFrame (address_xmm)

section

variable {env : Env} {offsets : Nat → BitVec 8} {s t u : Cpu} {b : Ptr} {f : Funclet}
  {calls past : List (Called Callee Cpu)} {code rest : Code} {l : Line Instr Condition Callee}

def loadXmm (r : Fin 10) : Instr := .movdqaLoad (xmmReg r) (.above .rax (0x20 + 16 * r - 0x60))

theorem applyXmm_lines :
    applyXmm = .lea .rax (.above .rsp 0x60) :: (List.finRange 10).map loadXmm := rfl

theorem exec_loadXmm (hb : aligned b = true) (hrax : s.reg .rax = slot b 0x60) :
    exec (loadXmm r) s = some { s with
      xmm := Function.update s.xmm (xmmReg r) (read128 s.mem (slot b (0x20 + 16 * r))) } := by
  rw [loadXmm, exec, address_xmm hrax, if_pos (aligned_slot hb (by omega))]

structure Applying (d t : Cpu) : Prop where
  rsp : t.reg .rsp = d.reg .rsp
  mem : t.mem = d.mem
  rcx : t.reg .rcx = d.reg .rax

theorem Applying.stacked {d : Called Callee Cpu} (h : Applying d.after t) (hd : d ∈ past)
    (hcallee : d.callee = .cxxDispatchException) :
    Stacked offsets s past (.body .cxxEhApplyContext) t := by
  intro m hm
  rw [h.rsp, h.mem] at hm
  change Same d.after.mem m (slot (d.after.reg .rsp) 0x20) 0x108 at hm
  have hmach := machFrameAt_same hm (by decide : 0x20 ≤ 0x100) (by decide)
  refine ⟨_, callerOf_apply, d, hd, hcallee, ?_⟩
  rw [machFrameAt_slot, machFrameAt_slot, MachFrame.mk.injEq] at hmach
  rw [h.rsp, catcher, machFrameAt_slot, contextAt_same hm (Nat.le_refl _) (by decide), hmach.1,
    hmach.2.2.2.1]

theorem Applying.setReg {d : Cpu} {r : Reg} {v : BitVec 64} (h : Applying d t) (hrsp : Reg.rsp ≠ r)
    (hrcx : Reg.rcx ≠ r) : Applying d (t.setReg r v) :=
  ⟨(reg_setReg_of_ne hrsp).trans h.rsp, h.mem, (reg_setReg_of_ne hrcx).trans h.rcx⟩

theorem run_loadXmm (returns : Callee → Cpu → Cpu → Prop) (rs : List (Fin 10))
    (hb : aligned b = true) (hrax : t.reg .rax = slot b 0x60) : ∃ xmm,
    run (machine returns) (rs.map loadXmm) t = some { t with xmm := xmm } ∧
      (∀ r ∉ rs, xmm (xmmReg r) = t.xmm (xmmReg r)) ∧
        ∀ r ∈ rs, xmm (xmmReg r) = read128 t.mem (slot b (0x20 + 16 * r)) := by
  induction rs generalizing t with
  | nil => exact ⟨t.xmm, rfl, fun _ _ => rfl, by simp⟩
  | cons r rs ih =>
    have hinj : ∀ r r' : Fin 10, xmmReg r' = xmmReg r → r' = r := by decide
    obtain ⟨xmm, hrun, hother, hload⟩ := @ih { t with
      xmm := Function.update t.xmm (xmmReg r) (read128 t.mem (slot b (0x20 + 16 * r))) } hrax
    have hexec : (machine returns).exec (loadXmm r) t = _ := exec_loadXmm hb hrax
    refine ⟨xmm, ?_, fun r' hr' => ?_, fun r' hr' => ?_⟩
    · rw [List.map_cons, run_cons, hexec, Option.bind_some]
      exact hrun
    · obtain ⟨hne, hr'⟩ := List.ne_and_not_mem_of_not_mem_cons hr'
      rw [hother r' hr']
      exact Function.update_of_ne (fun h => hne (hinj _ _ h)) _ _
    · by_cases hmem : r' ∈ rs
      · exact hload r' hmem
      · obtain rfl := (List.mem_cons.mp hr').resolve_right hmem
        rw [hother r' hmem]
        exact Function.update_self ..

def loadGpr (q : Fin 8) : Instr := .mov (gprReg q) (.mem (.above .rax (0xc0 + 8 * q - 0xd8)))

theorem applyGpr_lines :
    applyGpr = .lea .rax (.above .rax (0xd8 - 0x60)) :: (List.finRange 8).map loadGpr := rfl

theorem run_loadGpr (returns : Callee → Cpu → Cpu → Prop) (qs : List (Fin 8))
    (hrax : t.reg .rax = slot b 0xd8) : ∃ u, run (machine returns) (qs.map loadGpr) t = some u ∧
      u.mem = t.mem ∧ u.xmm = t.xmm ∧ (∀ r, (∀ q ∈ qs, gprReg q ≠ r) → u.reg r = t.reg r) ∧
        ∀ q ∈ qs, u.reg (gprReg q) = readWord t.mem (slot b (0x20 + (0xa0 + 8 * q))) := by
  induction qs generalizing t with
  | nil => exact ⟨t, rfl, rfl, rfl, fun _ _ => rfl, by simp⟩
  | cons q qs ih =>
    have hinj : ∀ q q' : Fin 8, gprReg q' = gprReg q → q' = q := by decide
    have hne : ∀ q : Fin 8, Reg.rax ≠ gprReg q := by decide
    have hexec : (machine returns).exec (loadGpr q) t =
        some (t.setReg (gprReg q) (readWord t.mem (slot b (0x20 + (0xa0 + 8 * q))))) := by
      have hdisp : ((0xd8 : Nat) : Int) + (0xc0 + 8 * (q : Nat) - 0xd8) =
          (0x20 + (0xa0 + 8 * q) : Nat) := by
        omega
      change some _ = some _
      rw [Cpu.eval, Cpu.address, hrax, slot_disp (by omega), hdisp, Int.toNat_natCast]
    obtain ⟨u, hrun, hmem, hxmm, hother, hload⟩ :=
      @ih (t.setReg (gprReg q) (readWord t.mem (slot b (0x20 + (0xa0 + 8 * q)))))
        ((reg_setReg_of_ne (hne q)).trans hrax)
    refine ⟨u, ?_, hmem, hxmm, fun r hr => ?_, fun q' hq' => ?_⟩
    · rw [List.map_cons, run_cons, hexec, Option.bind_some]
      exact hrun
    · obtain ⟨hfirst, hrest⟩ := List.forall_mem_cons.mp hr
      rw [hother r hrest, reg_setReg_of_ne (Ne.symm hfirst)]
    · by_cases hmem' : q' ∈ qs
      · exact hload q' hmem'
      · obtain rfl := (List.mem_cons.mp hq').resolve_right hmem'
        have hlast : ∀ q ∈ qs, gprReg q ≠ gprReg q' := fun q hq h => hmem' (hinj q' q h ▸ hq)
        rw [hother _ hlast, reg_setReg_self]

theorem safe_cxxEhApplyContext {d : Called Callee Cpu}
    (haligned : aligned (d.after.reg .rsp) = true)
    (h : Applying d.after t) (hd : d ∈ past) (hcallee : d.callee = .cxxDispatchException)
    (hrest : ∀ u, u.reg .rsp = slot (d.after.reg .rsp) 0xe0 → u.mem = d.after.mem →
      u.reg .rcx = d.after.reg .rax → context u = (catcher d.after).ctx →
      Safe (machine env.returns) (AtLine offsets s) Done past rest u) :
    Safe (machine env.returns) (AtLine offsets s) Done past (cxxEhApplyContext ++ rest) t := by
  rw [cxxEhApplyContext, List.append_assoc, List.append_assoc, applyXmm_lines, applyGpr_lines]
  refine safe_instr (atLine_instr (h.stacked hd hcallee)) rfl ?_
  have hbase : t.address (.above .rsp 0x60) = slot (d.after.reg .rsp) 0x60 := by
    rw [← h.rsp]
    exact address_above t .rsp 0x60
  rw [hbase]
  have h₁ := h.setReg (v := slot (d.after.reg .rsp) 0x60) (by decide : Reg.rsp ≠ .rax) (by decide)
  have hrax₁ := reg_setReg_self t .rax (slot (d.after.reg .rsp) 0x60)
  obtain ⟨xmm, hrun, -, hxmm⟩ := run_loadXmm env.returns (List.finRange 10) haligned hrax₁
  generalize t.setReg .rax (slot (d.after.reg .rsp) 0x60) = t₁ at *
  refine safe_lines (fun u => Applying d.after u ∧ u.reg .rax = slot (d.after.reg .rsp) 0x60)
    ⟨h₁, hrax₁⟩ (fun _ _ _ h => atLine_instr (h.1.stacked hd hcallee)) ?_ ?_
  · rintro i hi u ⟨hu, hrax⟩
    obtain ⟨r, -, rfl⟩ := List.mem_map.mp hi
    exact ⟨_, exec_loadXmm haligned hrax, ⟨hu.rsp, hu.mem, hu.rcx⟩, hrax⟩
  rintro t₂ hrun₂ ⟨h₂, hrax₂⟩
  obtain rfl := Option.some.inj (hrun.symm.trans hrun₂)
  refine safe_instr (atLine_instr (h₂.stacked hd hcallee)) rfl ?_
  have hbase₂ : Cpu.address { t₁ with xmm := xmm } (.above .rax (0xd8 - 0x60)) =
      slot (d.after.reg .rsp) 0xd8 := by
    rw [Cpu.address, hrax₂, slot_disp (by decide)]
    rfl
  rw [hbase₂]
  have h₃ := h₂.setReg (v := slot (d.after.reg .rsp) 0xd8) (by decide : Reg.rsp ≠ .rax) (by decide)
  have hrax₃ := reg_setReg_self { t₁ with xmm := xmm } .rax (slot (d.after.reg .rsp) 0xd8)
  obtain ⟨t₄, hrun₄, hmem₄, hxmm₄, hother, hgpr⟩ := run_loadGpr env.returns (List.finRange 8) hrax₃
  refine safe_lines (Applying d.after) h₃ (fun _ _ _ h => atLine_instr (h.stacked hd hcallee)) ?_ ?_
  · intro i hi u hu
    obtain ⟨q, -, rfl⟩ := List.mem_map.mp hi
    have hne : ∀ q : Fin 8, Reg.rsp ≠ gprReg q ∧ Reg.rcx ≠ gprReg q := by decide
    exact ⟨_, rfl, hu.setReg (hne q).1 (hne q).2⟩
  intro t₄' hrun₄' h₄
  obtain rfl := Option.some.inj (hrun₄.symm.trans hrun₄')
  refine safe_instr (atLine_instr (h₄.stacked hd hcallee)) rfl ?_
  have hrax₄ : t₄.reg .rax = slot (d.after.reg .rsp) 0xd8 :=
    (hother .rax fun q _ => by revert q; decide).trans hrax₃
  have hbase₄ : t₄.address (.above .rax (0x158 - 0x78 - 0xd8)) = slot (d.after.reg .rsp) 0xe0 := by
    rw [Cpu.address, hrax₄, slot_disp (by decide)]
    rfl
  rw [hbase₄]
  refine hrest _ (reg_setReg_self _ _ _) h₄.mem ?_ ?_
  · rw [reg_setReg_of_ne (by decide)]
    exact h₄.rcx
  · rw [context_setReg (by decide), catcher, contextAt_slot, context]
    have hmem : t₁.mem = d.after.mem := h₁.mem
    rw [hxmm₄]
    simp only [FrameWalkContext.mk.injEq]
    refine ⟨funext fun r => ?_, funext fun q => ?_⟩
    · rw [← hmem]
      exact hxmm r (List.mem_finRange r)
    · rw [← hmem]
      exact hgpr q (List.mem_finRange q)

structure Catching (d t : Cpu) (rip : Ptr) : Prop where
  rsp : t.reg .rsp = slot (d.reg .rsp) 0xe0
  context : context t = (catcher d).ctx
  rip : readWord t.mem (slot (d.reg .rsp) 0x100) = rip
  mem : Same d.mem t.mem (slot (d.reg .rsp) 0x108) 0x38

section

variable {d : Cpu} {rip : Ptr} {m : Mem 64}

theorem Catching.setReg {r : Reg} {v : BitVec 64} (h : Catching d t rip) (hrsp : Reg.rsp ≠ r)
    (hr : ∀ q, gprReg q ≠ r) : Catching d (t.setReg r v) rip :=
  ⟨(reg_setReg_of_ne hrsp).trans h.rsp, (context_setReg hr).trans h.context, h.rip, h.mem⟩

theorem Catching.of_same (h : Catching d t rip) (hrsp : u.reg .rsp = t.reg .rsp)
    (hcontext : Capture.context u = Capture.context t)
    (hmem : Same t.mem u.mem (slot (d.reg .rsp) 0x100) 0x40) : Catching d u rip :=
  ⟨hrsp.trans h.rsp, hcontext.trans h.context,
    (hmem.within (Nat.le_refl _) (by decide)).readWord.trans h.rip,
    h.mem.trans (hmem.within (by decide) (by decide))⟩

theorem same_returned (h : t.reg .rsp = slot b 0xe0) (returnAddress : Ptr) :
    Same t.mem (t.returned returnAddress).mem (slot b 0xe0) (2 ^ 64 - 0xe0) := by
  have hbelow : t.reg .rsp - 8 = slot b 0xd8 := by
    rw [h]
    exact slot_sub (by decide)
  rw [Cpu.returned, hbelow]
  exact same_write (.inr (by rw [length_bytesLE]; decide)) (by decide)
    (by rw [length_bytesLE]; decide)

theorem Catching.returned (h : Catching d t rip) (returnAddress : Ptr) :
    Catching d (t.returned returnAddress) rip :=
  h.of_same rfl rfl ((same_returned h.rsp returnAddress).within (by decide) (by decide))

theorem Catching.primaryFramePtr (h : Catching d t rip) :
    t.eval (.mem (.above .rsp (0x48 + 0x10))) = readWord d.mem (slot (d.reg .rsp) 0x138) := by
  have haddress : t.address (.above .rsp (0x48 + 0x10)) = slot (d.reg .rsp) 0x138 := by
    rw [Cpu.address, h.rsp, slot_disp (by decide)]
    rfl
  rw [Cpu.eval, haddress]
  exact (h.mem.within (by decide : 0x108 ≤ 0x138) (by decide)).readWord

theorem Catching.caller (h : Catching d t rip)
    (hf : f = .cxxCallCatchHandler ∨ f = .cxxCallExceptionDestructor)
    (hm : Same t.mem m (slot (t.reg .rsp) 0x20) 0x28) :
    callerOf offsets f m t = .ok { catcher d with rip := rip } := by
  rw [h.rsp, slot_slot] at hm
  have hrip := (hm.within (Nat.le_refl _) (by decide : 0x100 + 8 ≤ 0x100 + 0x28)).readWord
  have hrsp := (hm.within (by decide : 0x100 ≤ 0x118) (by decide)).readWord
  have hkept := (h.mem.within (by decide : 0x108 ≤ 0x118) (by decide)).readWord
  rw [callerOf_catch hf, h.context, h.rsp, slot_slot, slot_slot, hrip, hrsp, hkept, h.rip, catcher,
    machFrameAt_slot]

end

section

variable {d h : Called Callee Cpu}

theorem Catching.stacked (hc : Catching d.after t (catcher d.after).rip) (hd : d ∈ past)
    (hcallee : d.callee = .cxxDispatchException) :
    Stacked offsets s past (.body .cxxCallCatchHandler) t :=
  fun _ hm => ⟨_, hc.caller (.inl rfl) hm, d, hd, hcallee, rfl⟩

theorem Catching.stacked_handled
    (hc : Catching d.after t (continuation d.after h.after)) (hd : d ∈ past)
    (hcallee : d.callee = .cxxDispatchException) (hh : h ∈ past) (hfunclet : h.callee = .rcx) :
    Stacked offsets s past .redirected t ∧
      Stacked offsets s past (.body .cxxCallExceptionDestructor) t :=
  ⟨fun _ hm => ⟨_, hc.caller (.inl rfl) hm, d, hd, hcallee, h, hh, hfunclet, rfl⟩,
    fun _ hm => ⟨_, hc.caller (.inr rfl) hm, d, hd, hcallee, h, hh, hfunclet, rfl⟩⟩

theorem safe_callHandler (henv : env.Abides) (haligned : aligned (d.after.reg .rsp) = true)
    (hcallee : d.callee = .cxxDispatchException) (hrsp : t.reg .rsp = slot (d.after.reg .rsp) 0xe0)
    (hmem : t.mem = d.after.mem) (hrcx : t.reg .rcx = d.after.reg .rax)
    (hcontext : context t = (catcher d.after).ctx)
    (hrest : ∀ n h, n.callee = .nlgDispatch2 → h.callee = .rcx → Landed d.after h.before →
      Catching d.after h.after (catcher d.after).rip →
      Safe (machine env.returns) (AtLine offsets s) Done [d, n, h]
        ((.body .cxxCallCatchHandler, l) :: rest) h.after) :
    Safe (machine env.returns) (AtLine offsets s) Done [d]
      (cxxCallCatchHandler.take 4 ++ (.body .cxxCallCatchHandler, l) :: rest) t := by
  have hcatching : Catching d.after t (catcher d.after).rip := by
    refine ⟨hrsp, hcontext, ?_, ?_⟩
    · rw [hmem, catcher, machFrameAt_slot]
    · rw [hmem]
      exact same_refl _ _ _
  have hd : d ∈ [d] := List.mem_singleton_self d
  refine safe_instr (atLine_instr (hcatching.stacked hd hcallee)) rfl ?_
  rw [hcatching.primaryFramePtr]
  have hcatching₁ := hcatching.setReg (r := .rdx)
    (v := readWord d.after.mem (slot (d.after.reg .rsp) 0x138)) (by decide) (by decide)
  have hrdx₁ := reg_setReg_self t .rdx (readWord d.after.mem (slot (d.after.reg .rsp) 0x138))
  have hrcx₁ : (t.setReg .rdx (readWord d.after.mem (slot (d.after.reg .rsp) 0x138))).reg .rcx =
      d.after.reg .rax := (reg_setReg_of_ne (by decide)).trans hrcx
  have hmem₁ : (t.setReg .rdx (readWord d.after.mem (slot (d.after.reg .rsp) 0x138))).mem =
      d.after.mem := hmem
  generalize t.setReg .rdx (readWord d.after.mem (slot (d.after.reg .rsp) 0x138)) = t₁ at *
  refine safe_instr (t := t₁.setReg .r8 1) (atLine_instr (hcatching₁.stacked hd hcallee)) rfl ?_
  have hcatching₂ := hcatching₁.setReg (r := .r8) (v := 1) (by decide) (by decide)
  have hstacked₂ : Stacked offsets s [d] (.body .cxxCallCatchHandler) (t₁.setReg .r8 1) :=
    hcatching₂.stacked hd hcallee
  have hrdx₂ : (t₁.setReg .r8 1).reg .rdx = _ := (reg_setReg_of_ne (by decide)).trans hrdx₁
  have hrcx₂ : (t₁.setReg .r8 1).reg .rcx = _ := (reg_setReg_of_ne (by decide)).trans hrcx₁
  refine safe_call (atLine_call hstacked₂ hstacked₂
    ⟨d, hd, hcallee, hrdx₂, .inl ⟨rfl, hrcx₂, reg_setReg_self _ _ _⟩⟩) ?_
  rintro _ ⟨returnAddress, rfl⟩
  have hcatching₃ := hcatching₂.returned returnAddress
  have hlanded : Landed d.after ((t₁.setReg .r8 1).returned returnAddress) := by
    have hsame := same_returned hcatching₂.rsp returnAddress
    refine ⟨hcatching₃.rsp, ?_, hrcx₂, hrdx₂, hcatching₃.context, ?_⟩
    · rw [hcatching₃.rsp]
      exact aligned_slot haligned (by decide)
    · rw [hcatching₃.rsp, ← hmem₁]
      exact hsame
  generalize (t₁.setReg .r8 1).returned returnAddress = t₃ at *
  have hstacked₃ (n : Called Callee Cpu) :
      Stacked offsets s [d, n] (.body .cxxCallCatchHandler) t₃ :=
    hcatching₃.stacked List.mem_cons_self hcallee
  refine safe_call (atLine_call (hstacked₃ _) (hstacked₃ _) ⟨d, _, rfl, hcallee, rfl, hlanded⟩) ?_
  intro u hu
  obtain ⟨hconforms, hsame⟩ := henv.funclet _ _ hu
  rw [hcatching₃.rsp, slot_slot] at hsame
  exact hrest _ ⟨.rcx, t₃, u⟩ rfl rfl hlanded
    (hcatching₃.of_same hconforms.rsp hconforms.context hsame)

theorem Catching.continuation {h : Cpu} (hc : Catching d.after t (catcher d.after).rip)
    (hrax : t.reg .rax = h.reg .rax) (hle : h.reg .rax ≤ 1) :
    t.eval (.mem (.word .rsp 0x48 .rax)) = continuation d.after h := by
  have haddress : t.address (.word .rsp 0x48 .rax) =
      slot (d.after.reg .rsp) 0x128 + 8 * h.reg .rax := by
    rw [Cpu.address, hc.rsp, hrax, slot_disp (by decide)]
    rfl
  have hk : (h.reg .rax).toNat ≤ 1 := hle
  have hword : 8 * h.reg .rax = .ofNat 64 (8 * (h.reg .rax).toNat) := by
    bv_omega
  rw [Transfer.continuation, if_pos hle, Cpu.eval, haddress, hword, slot_add]
  exact (hc.mem.within (by omega) (by omega)).readWord

theorem Catching.storeContinuation {h : Cpu} (hc : Catching d.after t (catcher d.after).rip)
    (hmem : Same h.mem t.mem (slot (d.after.reg .rsp) 0x128) (2 ^ 64 - 0x128)) :
    let rip := Transfer.continuation d.after h
    let u := { t with mem := writeWord t.mem (slot (d.after.reg .rsp) 0x100) rip }
    Catching d.after u rip ∧
      Same h.mem u.mem (slot (d.after.reg .rsp) 0x128) (2 ^ 64 - 0x128) := by
  intro rip u
  have hwrite {i k : Nat} (hclear : Clear (i, k) (0x100, 8)) (hi : i + k ≤ 2 ^ 64) :
      Same t.mem u.mem (slot (d.after.reg .rsp) i) k := by
    refine same_write ?_ hi (by rw [length_bytesLE]; decide)
    rwa [length_bytesLE]
  refine ⟨⟨hc.rsp, hc.context, readWord_writeWord (by decide), ?_⟩, ?_⟩
  · exact hc.mem.trans (hwrite (by decide) (by decide))
  · exact hmem.trans (hwrite (by decide) (by decide))

theorem safe_storeContinuation {n n' : Called Callee Cpu}
    (hcallee : d.callee = .cxxDispatchException)
    (hfunclet : h.callee = .rcx) (hc : Catching d.after t (catcher d.after).rip)
    (hmem : Same h.after.mem t.mem (slot (d.after.reg .rsp) 0x128) (2 ^ 64 - 0x128))
    (hrax : t.reg .rax = Transfer.continuation d.after h.after)
    (hrest : ∀ n'' u, n''.callee = .nlgDispatch2 →
      Catching d.after u (Transfer.continuation d.after h.after) →
      Same h.after.mem u.mem (slot (d.after.reg .rsp) 0x128) (2 ^ 64 - 0x128) →
      Safe (machine env.returns) (AtLine offsets s) Done [d, n, h, n', n'']
        ((.body .cxxCallExceptionDestructor, l) :: rest) u) :
    Safe (machine env.returns) (AtLine offsets s) Done [d, n, h, n']
      (cxxCallCatchHandler.drop 8 ++ (.body .cxxCallExceptionDestructor, l) :: rest) t := by
  have hd : d ∈ [d, n, h, n'] := List.mem_cons_self
  have hh : h ∈ [d, n, h, n'] := by
    simp
  have hstacked (t : Cpu) (hc : Catching d.after t (Transfer.continuation d.after h.after)) :
      Stacked offsets s [d, n, h, n'] .redirected t ∧
        Stacked offsets s [d, n, h, n'] (.body .cxxCallExceptionDestructor) t :=
    hc.stacked_handled hd hcallee hh hfunclet
  refine safe_instr (atLine_instr (hc.stacked hd hcallee)) rfl ?_
  have haddress : t.address (.above .rsp 0x20) = slot (d.after.reg .rsp) 0x100 := by
    rw [Cpu.address, hc.rsp, slot_disp (by decide)]
    rfl
  rw [haddress, hrax]
  obtain ⟨hc₁, hmem₁⟩ := hc.storeContinuation hmem
  generalize hrip : Transfer.continuation d.after h.after = rip at *
  generalize hm : writeWord t.mem (slot (d.after.reg .rsp) 0x100) rip = m at *
  have hrax₁ : Cpu.eval { t with mem := m } (.reg .rax) = rip := hrax
  generalize ({ t with mem := m } : Cpu) = t₁ at *
  refine safe_instr (atLine_instr (hstacked _ hc₁).1) rfl ?_
  rw [hrax₁]
  have hc₂ := hc₁.setReg (r := .rcx) (v := rip) (by decide) (by decide)
  have hrcx₂ := reg_setReg_self t₁ .rcx rip
  have hmem₂ : (t₁.setReg .rcx rip).mem = t₁.mem := rfl
  generalize t₁.setReg .rcx rip = t₂ at *
  refine safe_instr (atLine_instr (hstacked _ hc₂).1) rfl ?_
  rw [hc₂.primaryFramePtr]
  generalize hprimary : readWord d.after.mem (slot (d.after.reg .rsp) 0x138) = primary
  have hc₃ := hc₂.setReg (r := .rdx) (v := primary) (by decide) (by decide)
  have hrdx₃ := reg_setReg_self t₂ .rdx primary
  have hrcx₃ : (t₂.setReg .rdx primary).reg .rcx = _ := (reg_setReg_of_ne (by decide)).trans hrcx₂
  have hmem₃ : (t₂.setReg .rdx primary).mem = t₂.mem := rfl
  generalize t₂.setReg .rdx primary = t₃ at *
  refine safe_instr (t := t₃.setReg .r8 2) (atLine_instr (hstacked _ hc₃).1) rfl ?_
  have hc₄ := hc₃.setReg (r := .r8) (v := 2) (by decide) (by decide)
  have hnotified : AtCall s [d, n, h, n'] (t₃.setReg .r8 2) .nlgDispatch2 := by
    refine ⟨d, hd, hcallee, ?_, .inr ⟨h, hh, hfunclet, ?_, reg_setReg_self _ _ _⟩⟩
    · rw [reg_setReg_of_ne (by decide), hrdx₃, hprimary]
    · rw [reg_setReg_of_ne (by decide), hrcx₃, hrip]
  refine safe_call (atLine_call (hstacked _ hc₄).1 (hstacked _ hc₄).2 hnotified) ?_
  rintro _ ⟨returnAddress, rfl⟩
  refine hrest ⟨.nlgDispatch2, _, _⟩ _ rfl (hc₄.returned returnAddress) ?_
  have hmem₄ : (t₃.setReg .r8 2).mem = t₁.mem := hmem₃.trans hmem₂
  rw [← hmem₄] at hmem₁
  exact hmem₁.trans ((same_returned hc₄.rsp returnAddress).within (by decide) (by decide))

theorem safe_handlerReturned {n : Called Callee Cpu} (hcallee : d.callee = .cxxDispatchException)
    (hfunclet : h.callee = .rcx) (hc : Catching d.after h.after (catcher d.after).rip)
    (hrest : ∀ n' n'' u, n'.callee = .nlgReturn2 → n''.callee = .nlgDispatch2 →
      Catching d.after u (Transfer.continuation d.after h.after) →
      Same h.after.mem u.mem (slot (d.after.reg .rsp) 0x128) (2 ^ 64 - 0x128) →
      Safe (machine env.returns) (AtLine offsets s) Done [d, n, h, n', n'']
        ((.body .cxxCallExceptionDestructor, l) :: rest) u) :
    Safe (machine env.returns) (AtLine offsets s) Done [d, n, h]
      (cxxCallCatchHandler.drop 4 ++ (.body .cxxCallExceptionDestructor, l) :: rest) h.after := by
  have hd (calls : List (Called Callee Cpu)) : d ∈ [d, n, h] ++ calls := List.mem_cons_self
  have hstacked : Stacked offsets s [d, n, h] (.body .cxxCallCatchHandler) h.after :=
    hc.stacked (hd []) hcallee
  refine safe_call (atLine_call hstacked hstacked trivial) ?_
  rintro _ ⟨returnAddress, rfl⟩
  have hc₁ := hc.returned returnAddress
  have hmem₁ : Same h.after.mem (h.after.returned returnAddress).mem
      (slot (d.after.reg .rsp) 0x128) (2 ^ 64 - 0x128) :=
    (same_returned hc.rsp returnAddress).within (by decide) (by decide)
  have hrax₁ : (h.after.returned returnAddress).reg .rax = h.after.reg .rax := rfl
  generalize h.after.returned returnAddress = t₁ at *
  generalize hn : (⟨.nlgReturn2, h.after, t₁⟩ : Called Callee Cpu) = n'
  have hn' : n'.callee = .nlgReturn2 := by
    rw [← hn]
  have hstacked₁ : Stacked offsets s ([d, n, h] ++ [n']) (.body .cxxCallCatchHandler) t₁ :=
    hc₁.stacked (hd _) hcallee
  refine safe_instr (t := t₁.statusOfSub (t₁.reg .rax) 1) (atLine_instr hstacked₁) rfl ?_
  have hc₂ : Catching d.after (t₁.statusOfSub (t₁.reg .rax) 1) (catcher d.after).rip :=
    ⟨hc₁.rsp, hc₁.context, hc₁.rip, hc₁.mem⟩
  have habove : test .above (t₁.statusOfSub (t₁.reg .rax) 1) = decide (1 < h.after.reg .rax) := by
    rw [test_above, hrax₁]
  have hmem₂ : (t₁.statusOfSub (t₁.reg .rax) 1).mem = t₁.mem := rfl
  have hrax₂ : (t₁.statusOfSub (t₁.reg .rax) 1).reg .rax = h.after.reg .rax := hrax₁
  rw [← hmem₂] at hmem₁
  generalize t₁.statusOfSub (t₁.reg .rax) 1 = t₂ at *
  have hstacked₂ : Stacked offsets s ([d, n, h] ++ [n']) (.body .cxxCallCatchHandler) t₂ :=
    hc₂.stacked (hd _) hcallee
  refine safe_skip (atLine_skip hstacked₂) ?_
  have hstore (t₃ : Cpu) (hc₃ : Catching d.after t₃ (catcher d.after).rip) (hmem₃ : t₃.mem = t₂.mem)
      (hrax₃ : t₃.reg .rax = Transfer.continuation d.after h.after) :
      Safe (machine env.returns) (AtLine offsets s) Done ([d, n, h] ++ [n'])
        (cxxCallCatchHandler.drop 8 ++ (.body .cxxCallExceptionDestructor, l) :: rest) t₃ := by
    rw [← hmem₃] at hmem₁
    exact safe_storeContinuation hcallee hfunclet hc₃ hmem₁ hrax₃ fun n'' u hn'' =>
      hrest n' n'' u hn' hn''
  -- Both ways lead to the store with the continuation in `rax`.
  have htest : (machine env.returns).test .above t₂ = decide (1 < h.after.reg .rax) := habove
  by_cases hle : h.after.reg .rax ≤ 1
  · have hfalls : ¬ (machine env.returns).test .above t₂ = true := by
      rw [htest, decide_eq_true_eq]
      bv_omega
    rw [if_neg hfalls]
    refine safe_instr (atLine_instr hstacked₂) rfl ?_
    rw [hc₂.continuation hrax₂ hle]
    exact hstore _ (hc₂.setReg (by decide) (by decide)) rfl (reg_setReg_self _ _ _)
  · have hjumps : (machine env.returns).test .above t₂ = true := by
      rw [htest, decide_eq_true_eq]
      bv_omega
    rw [if_pos hjumps]
    refine hstore t₂ hc₂ rfl ?_
    rw [hrax₂, Transfer.continuation, if_neg hle]

end

end

end Vcrtl.X64.CatchTransfer

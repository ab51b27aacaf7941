import Vcrtl.X64.CatchTransfer

namespace Vcrtl.X64.Resume

open Lib.Memory Lib.Listing Lib.Amd64 Lib.Parts BugCheck EhStructs Unwinder Capture Transfer
open ThrowFrame CatchTransfer

section

variable {env : Env} {offsets : Nat → BitVec 8} {s t u : Cpu} {past : List (Called Callee Cpu)}
  {d h : Called Callee Cpu}

/-- Only the machine frame is left of `catch_fr`. -/
structure Leaving (d t : Cpu) (rip : Ptr) : Prop where
  context : context t = (catcher d).ctx
  mach : machFrameAt t.mem (slot (d.reg .rsp) 0x100) =
    { machFrameAt d.mem (slot (d.reg .rsp) 0x100) with rip := rip }

theorem leaving_of_catching {rip : Ptr} (hc : Catching d.after t rip)
    (hcontext : Capture.context u = Capture.context t)
    (hmem : Same t.mem u.mem (slot (d.after.reg .rsp) 0x100) 0x28) : Leaving d.after u rip := by
  refine ⟨hcontext.trans hc.context, ?_⟩
  have hword (i : Nat) (hi : 0x108 ≤ i) (hi' : i + 8 ≤ 0x140) :
      readWord t.mem (slot (d.after.reg .rsp) i) =
        readWord d.after.mem (slot (d.after.reg .rsp) i) :=
    (hc.mem.within hi hi').readWord
  rw [machFrameAt_same hmem (Nat.le_refl _) (Nat.le_refl _), machFrameAt_slot, machFrameAt_slot,
    hc.rip, hword, hword, hword, hword] <;> decide

theorem Leaving.caller {rip : Ptr} (hl : Leaving d.after t rip) {m : Mem 64}
    (hm : Same t.mem m (slot (d.after.reg .rsp) 0x100) 0x28) :
    (⟨Capture.context t, readWord m (slot (d.after.reg .rsp) 0x100),
      readWord m (slot (d.after.reg .rsp) 0x118)⟩ : Caller) =
        { catcher d.after with rip := rip } := by
  have hmach := (machFrameAt_same hm (Nat.le_refl _) (Nat.le_refl _)).trans hl.mach
  rw [machFrameAt_slot, machFrameAt_slot, MachFrame.mk.injEq] at hmach
  rw [hl.context, catcher, machFrameAt_slot, hmach.1, hmach.2.2.2.1]

theorem Leaving.stacked (hl : Leaving d.after t (Transfer.continuation d.after h.after))
    (hd : d ∈ past) (hcallee : d.callee = .cxxDispatchException) (hh : h ∈ past)
    (hfunclet : h.callee = .rcx) :
    (t.reg .rsp = slot (d.after.reg .rsp) 0xe0 →
      Stacked offsets s past (.body .cxxCallExceptionDestructor) t) ∧
    (t.reg .rsp = slot (d.after.reg .rsp) 0x100 →
      Stacked offsets s past (.body .cxxContinueAfterException) t) := by
  refine ⟨fun hrsp m hm => ?_, fun hrsp m hm => ?_⟩
  · rw [hrsp, slot_slot] at hm
    refine ⟨_, callerOf_catch (.inr rfl), d, hd, hcallee, h, hh, hfunclet, ?_⟩
    rw [hrsp, slot_slot, slot_slot]
    exact hl.caller hm
  · rw [hrsp, slot_slot] at hm
    refine ⟨_, callerOf_continue, d, hd, hcallee, h, hh, hfunclet, ?_⟩
    rw [hrsp, slot_slot]
    exact hl.caller hm

theorem Leaving.resumed {h : Cpu} (hl : Leaving d.after t (Transfer.continuation d.after h))
    (hrsp : t.reg .rsp = slot (d.after.reg .rsp) 0x100) :
    ∃ u, exec .iretq t = some u ∧ Resumed d.after h u := by
  have hmach := hl.mach
  rw [machFrameAt_slot, machFrameAt_slot, MachFrame.mk.injEq] at hmach
  obtain ⟨hrip, hcs, hflags, hsp, hss⟩ := hmach
  have hword (i : Nat) : t.reg .rsp + .ofNat 64 i = slot (d.after.reg .rsp) (0x100 + i) := by
    rw [hrsp, slot_add]
  refine ⟨_, rfl, ?_, ?_, ?_, ?_, ?_, ?_⟩
  · rw [hrsp]
    exact hrip
  · rw [catcher, machFrameAt_slot]
    refine Eq.trans ?_ hsp
    rw [← hword 24]
    exact reg_setReg_self t .rsp _
  · rw [← hl.context]
    exact context_setReg (s := t) (by decide)
  · rw [machFrameAt_slot, ← hcs, ← hword 8]
    rfl
  · rw [machFrameAt_slot, ← hss, ← hword 32]
    rfl
  · rw [machFrameAt_slot, ← hflags, ← hword 16]
    rfl

theorem safe_destroy {n n' n'' : Called Callee Cpu} (henv : env.Abides)
    (haligned : aligned (d.after.reg .rsp) = true)
    (hcallees : [d, n, h, n', n''].map Called.callee =
      [.cxxDispatchException, .nlgDispatch2, .rcx, .nlgReturn2, .nlgDispatch2])
    (hc : Catching d.after t (Transfer.continuation d.after h.after))
    (hmem : Same h.after.mem t.mem (slot (d.after.reg .rsp) 0x128) (2 ^ 64 - 0x128)) :
    Safe (machine env.returns) (AtLine offsets s) Done [d, n, h, n', n'']
      (cxxCallExceptionDestructor ++ cxxContinueAfterException) t := by
  have hd (calls : List (Called Callee Cpu)) : d ∈ [d, n, h, n', n''] ++ calls := by
    simp
  have hh (calls : List (Called Callee Cpu)) : h ∈ [d, n, h, n', n''] ++ calls := by
    simp
  obtain ⟨hcallee, -, hfunclet, -⟩ : d.callee = .cxxDispatchException ∧
      n.callee = .nlgDispatch2 ∧ h.callee = .rcx ∧ True := by
    simp only [List.map_cons, List.cons.injEq] at hcallees
    simp [hcallees]
  have hstacked (calls : List (Called Callee Cpu)) (u : Cpu)
      (hl : Leaving d.after u (Transfer.continuation d.after h.after)) :
      (u.reg .rsp = slot (d.after.reg .rsp) 0xe0 →
        Stacked offsets s ([d, n, h, n', n''] ++ calls) (.body .cxxCallExceptionDestructor) u) ∧
      (u.reg .rsp = slot (d.after.reg .rsp) 0x100 →
        Stacked offsets s ([d, n, h, n', n''] ++ calls) (.body .cxxContinueAfterException) u) :=
    hl.stacked (hd calls) hcallee (hh calls) hfunclet
  have hl := leaving_of_catching hc rfl (same_refl _ _ _)
  refine safe_instr (atLine_instr ((hstacked [] _ hl).1 hc.rsp)) rfl ?_
  have haddress : t.address (.above .rsp 0x48) = slot (d.after.reg .rsp) 0x128 := by
    rw [Cpu.address, hc.rsp, slot_disp (by decide)]
    rfl
  rw [haddress]
  have hc₁ := hc.setReg (r := .rcx) (v := slot (d.after.reg .rsp) 0x128) (by decide) (by decide)
  have hrcx₁ := reg_setReg_self t .rcx (slot (d.after.reg .rsp) 0x128)
  have hmem₁ : (t.setReg .rcx (slot (d.after.reg .rsp) 0x128)).mem = t.mem := rfl
  generalize t.setReg .rcx (slot (d.after.reg .rsp) 0x128) = t₁ at *
  have hfinished : Finished d.after h.after t₁ := by
    refine ⟨hc₁.rsp, ?_, hrcx₁, ?_⟩
    · rw [hc₁.rsp]
      exact aligned_slot haligned (by decide)
    · rwa [hrcx₁, hmem₁]
  have hstacked₁ := (hstacked [] _ (leaving_of_catching hc₁ rfl (same_refl _ _ _))).1 hc₁.rsp
  refine safe_call (atLine_call hstacked₁ hstacked₁
    ⟨d, n, h, n', n'', rfl, hcallee, hfunclet, hfinished⟩) ?_
  intro e he
  obtain ⟨hconforms, hsame⟩ := henv.destroy _ _ he
  rw [hc₁.rsp, slot_slot] at hsame
  have hl := leaving_of_catching hc₁ hconforms.context hsame
  have hrsp := hconforms.rsp.trans hc₁.rsp
  refine safe_instr (atLine_instr ((hstacked _ _ hl).1 hrsp)) rfl ?_
  have htop : e.reg .rsp + 0x20 = slot (d.after.reg .rsp) 0x100 := by
    rw [hrsp]
    exact slot_add
  rw [htop]
  have hl' : Leaving d.after ((e.statusOfAdd (e.reg .rsp) 0x20).setReg .rsp
      (slot (d.after.reg .rsp) 0x100)) (Transfer.continuation d.after h.after) :=
    ⟨(context_setReg (by decide)).trans hl.context, hl.mach⟩
  have hrsp' := reg_setReg_self (e.statusOfAdd (e.reg .rsp) 0x20) .rsp
    (slot (d.after.reg .rsp) 0x100)
  generalize (e.statusOfAdd (e.reg .rsp) 0x20).setReg .rsp (slot (d.after.reg .rsp) 0x100) = t₂ at *
  obtain ⟨u, hexec, hresumed⟩ := hl'.resumed hrsp'
  refine safe_instr (atLine_instr ((hstacked _ _ hl').2 hrsp')) hexec (safe_nil ?_)
  refine ⟨d, n, h, n', n'', _, rfl, ?_, hresumed⟩
  simp only [List.map_cons, List.cons.injEq] at hcallees
  simp [hcallees]

end

section

variable {env : Env} {offsets : Nat → BitVec 8} {s t : Cpu} {calls : List (Called Callee Cpu)}
  {code : Code}

theorem aligned_bottom (h : (s.reg .rsp).toNat % 16 = 8) : aligned (bottom s) = true := by
  have hsub : (s.reg .rsp - 0x158).toNat = (2 ^ 64 - 0x158 + (s.reg .rsp).toNat) % 2 ^ 64 :=
    BitVec.toNat_sub ..
  rw [aligned, bottom, decide_eq_true_eq, hsub]
  omega

theorem safe_listing (offsets : Nat → BitVec 8) (henv : env.Abides)
    (haligned : (s.reg .rsp).toNat % 16 = 8) :
    Safe (machine env.returns) (AtLine offsets s) Done [] listing s := by
  have hbottom := aligned_bottom haligned
  rw [listing, List.append_assoc, List.append_assoc, List.append_assoc]
  refine safe_cxxThrowException henv hbottom ?_
  intro u d hu hd hrsp
  generalize hdcall : (⟨.cxxDispatchException, u, d⟩ : Called Callee Cpu) = dcall
  obtain rfl : dcall.after = d := by
    rw [← hdcall]
  have hcallee : dcall.callee = .cxxDispatchException := by
    rw [← hdcall]
  have haligned' : aligned (dcall.after.reg .rsp) = true := by
    rwa [hrsp]
  refine safe_cxxEhApplyContext (d := dcall) haligned' ?_ List.mem_cons_self hcallee ?_
  · exact ⟨reg_setReg_of_ne (by decide), rfl, reg_setReg_self _ _ _⟩
  intro v hvrsp hvmem hvrcx hvcontext
  refine safe_callHandler (d := dcall) (l := .call .nlgReturn2) henv haligned' hcallee hvrsp hvmem
    hvrcx hvcontext ?_
  intro n h hn hh _ hc
  refine safe_handlerReturned (d := dcall) hcallee hh hc ?_
  intro n' n'' w hn' hn'' hcw hmem
  refine safe_destroy (d := dcall) henv haligned' ?_ hcw hmem
  simp [hcallee, hn, hh, hn', hn'']

/-- At each line from `.endprolog` on, and in the time of each call, the unwinder finds the code
that is to go on. -/
theorem callstack_valid (henv : env.Abides) (haligned : (s.reg .rsp).toNat % 16 = 8)
    (hgets : Gets (machine env.returns) listing s calls code t) :
    ∀ r ∈ active code, Stacked offsets s calls r t := by
  by_cases hcode : code = []
  · rw [hcode]
    simp [active]
  · exact ((safe_listing offsets henv haligned).inv _ _ _ hgets hcode).callstack

/-- Each call is made with what it needs, and at its turn. -/
theorem calls_receive (henv : env.Abides) (haligned : (s.reg .rsp).toNat % 16 = 8)
    {f : Region} {k : Callee} (hgets : Gets (machine env.returns) listing s calls
      ((f, .call k) :: code) t) : AtCall s calls t k :=
  ((safe_listing (fun _ => 0) henv haligned).inv _ _ _ hgets (List.cons_ne_nil _ _)).call
    _ _ _ rfl

/-- No line faults, and behind the last one the catcher goes on. -/
theorem throw_resumes (henv : env.Abides) (haligned : (s.reg .rsp).toNat % 16 = 8) :
    (∀ calls code t, Gets (machine env.returns) listing s calls code t →
      Ready (machine env.returns) code t) ∧
    (∀ calls t, Gets (machine env.returns) listing s calls [] t → Done calls t) ∧
    ((∀ calls f k rest t, Gets (machine env.returns) listing s calls ((f, .call k) :: rest) t →
      ∃ u, env.returns k t u) →
        ∃ calls t, Gets (machine env.returns) listing s calls [] t ∧ Done calls t) := by
  have hsafe := safe_listing (fun _ => 0) henv haligned
  refine ⟨hsafe.ready, fun calls t hgets => hsafe.post calls t hgets, fun hreturn => ?_⟩
  obtain ⟨calls, t, hgets⟩ := hsafe.ends hreturn
  exact ⟨calls, t, hgets, hsafe.post calls t hgets⟩

end

def leftParts : List Part :=
  [(0xc0, bytesLE 8 5), (0x100, bytesLE 8 0x402000), (0x118, bytesLE 8 0x9000),
    (0x130, bytesLE 8 0x402010)]

/-- The handler takes over the exception, and returns the number of a continuation address. -/
def taking : Env where
  dispatch s t :=
    t = Cpu.setReg { s with mem := writeAll s.mem (stores (s.reg .rsp) leftParts) } .rax 0x401060
  funclet s t :=
    t = Cpu.setReg { s with mem := writeWord s.mem (slot (s.reg .rsp) 0x68) 0 } .rax 1
  destroy s t := t = s.setReg .rcx 0

def thrown : Cpu where
  reg r := if r = .rsp then 0x1008 else
    .ofNat 64 ([Reg.rbx, .rbp, .rsi, .rdi, .r12, .r13, .r14, .r15].idxOf r)
  xmm r := .ofNat 128 r
  selector _ := 0x10
  rflags := 0x202
  mem p := p.setWidth 8
  rip := 0

theorem taking_abides : taking.Abides := by
  refine ⟨?_, ?_, ?_⟩
  · rintro s _ rfl
    refine ⟨⟨reg_setReg_of_ne (by decide), context_setReg (by decide)⟩, ?_⟩
    exact same_stores (by decide) (by decide)
  · rintro s _ rfl
    refine ⟨⟨reg_setReg_of_ne (by decide), context_setReg (by decide)⟩, ?_⟩
    have hlength : (bytesLE (64 / 8) (0 : BitVec 64).toNat).length = 8 := length_bytesLE _ _
    exact same_write (by rw [hlength]; decide) (by decide) (by rw [hlength]; decide)
  · rintro s _ rfl
    exact ⟨⟨reg_setReg_of_ne (by decide), context_setReg (by decide)⟩, same_refl _ _ _⟩

theorem returns_taking (k : Callee) (s : Cpu) : ∃ t, taking.returns k s t := by
  cases k with
  | cxxDispatchException | rcx | cxxDestroyException => exact ⟨_, rfl⟩
  | nlgDispatch2 | nlgReturn2 => exact ⟨_, 0, rfl⟩

theorem gets_destroy : ∃ calls r code t, Gets (machine taking.returns) listing thrown calls
    ((r, .call .cxxDestroyException) :: code) t := by
  have hsafe := safe_listing (fun _ => 0) taking_abides (s := thrown) (by decide)
  obtain ⟨calls, t, hgets⟩ := hsafe.ends fun _ _ k _ t _ => returns_taking k t
  obtain ⟨d, n, h, n', n'', e, rfl, hcallees, -⟩ := hsafe.post _ _ hgets
  obtain ⟨r, code, hto, -⟩ :=
    Gets.split (show Gets _ listing thrown ([d, n, h, n', n''] ++ e :: []) [] t from hgets)
  have hcallee : e.callee = .cxxDestroyException :=
    Option.some.inj (congrArg (fun callees : List Callee => callees[5]?) hcallees)
  rw [hcallee] at hto
  exact ⟨_, r, code, _, hto⟩

theorem callstack_valid_taking : ∃ calls r code t, Gets (machine taking.returns) listing thrown
    calls ((r, .call .cxxDestroyException) :: code) t ∧
      ∀ r' ∈ active ((r, .call .cxxDestroyException) :: code),
        Stacked (fun _ => 0) thrown calls r' t := by
  obtain ⟨calls, r, code, t, hgets⟩ := gets_destroy
  exact ⟨calls, r, code, t, hgets, callstack_valid taking_abides (by decide) hgets⟩

theorem calls_receive_taking : ∃ calls r code t, Gets (machine taking.returns) listing thrown
    calls ((r, .call .cxxDestroyException) :: code) t ∧
      AtCall thrown calls t .cxxDestroyException := by
  obtain ⟨calls, r, code, t, hgets⟩ := gets_destroy
  exact ⟨calls, r, code, t, hgets, calls_receive taking_abides (by decide) hgets⟩

theorem throw_resumes_taking :
    ∃ calls t, Gets (machine taking.returns) listing thrown calls [] t ∧ Done calls t :=
  (throw_resumes taking_abides (by decide)).2.2 fun _ _ k _ t _ => returns_taking k t

end Vcrtl.X64.Resume

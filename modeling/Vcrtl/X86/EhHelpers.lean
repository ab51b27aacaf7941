import Vcrtl.Lib.Ia32
import Vcrtl.X86.Handler

namespace Vcrtl.X86.EhHelpers

open Lib.Memory Lib.Ia32 EhStructs
open Lib.Parts (slot slot_add slot_sub)

/-- Put the registration under the return address, and the caller's `ebp` in
place of the size of the stack allocation. -/
def linkFrame : List Instr :=
  [.push (.place (.reg .eax)),
    .push (.place .fs0),
    .mov (.reg .eax) (.place (.above .esp 0x0c)),
    .mov (.above .esp 0x0c) (.place (.reg .ebp)),
    .lea .ebp .esp 0x0c]

def saveRegisters : List Instr :=
  [.sub .esp (.imm 0x04),
    .sub .esp (.place (.reg .eax)),
    .push (.place (.reg .ebx)),
    .push (.place (.reg .esi)),
    .push (.place (.reg .edi))]

def storeCookie (securityCookie : BitVec 32) : List Instr :=
  [.mov (.reg .eax) (.imm securityCookie),
    .xor .eax (.place (.reg .ebp)),
    .push (.place (.reg .eax))]

def registerFrame : List Instr :=
  [.mov (.below .ebp 0x10) (.place (.reg .esp)),
    .push (.place (.below .ebp 0x04)),
    .mov (.below .ebp 0x04) (.imm (-1)),
    .lea .eax .ebp 0x0c,
    .mov .fs0 (.place (.reg .eax)),
    .ret]

def ehProlog3 (securityCookie : BitVec 32) : List Instr :=
  linkFrame ++ saveRegisters ++ storeCookie securityCookie ++ registerFrame

def ehEpilog3 : List Instr :=
  [.mov (.reg .ecx) (.place (.below .ebp 0x0c)),
    .mov .fs0 (.place (.reg .ecx)),
    .pop .ecx,
    .add .esp (.imm 4),
    .pop .edi,
    .pop .esi,
    .pop .ebx,
    .mov (.reg .esp) (.place (.reg .ebp)),
    .pop .ebp,
    .jmp .ecx]

def callEpilog (returnAddress : Ptr) : List Instr := .push (.imm returnAddress) :: ehEpilog3

/-- `fh3_frame_t`, up to the frame base behind its last member. -/
structure Fh3Frame where
  frameLimit : Ptr
  next : Ptr
  handler : Ptr
  state : Int
  deriving DecidableEq

def fh3FrameAt (m : Mem 32) (p : Ptr) : Fh3Frame :=
  ⟨read32 m p, read32 m (p + 4), read32 m (p + 8), (read32 m (p + 12)).toInt⟩

/-- `container_of(p, fh3_frame_t, seh_reg)`. -/
def containerOfSehReg (p : Ptr) : Ptr := p - 4

def allocation (s : Cpu) : Nat := (readWord s.mem (s.reg .esp + 4)).toNat

def bottom (s : Cpu) : Ptr := s.reg .esp - .ofNat 32 (allocation s + 0x20)

def Fits (s : Cpu) : Prop := allocation s + 0x28 ≤ 2 ^ 32

instance (s : Cpu) : Decidable (Fits s) := inferInstanceAs (Decidable (_ ≤ _))

def savedWords (cookie : BitVec 32) (s : Cpu) : List (Nat × BitVec 32) :=
  let n := allocation s
  [(n + 0x1c, s.reg .eax), (n + 0x18, s.fs0), (n + 0x24, s.reg .ebp),
    (0x10, s.reg .ebx), (0x0c, s.reg .esi), (0x08, s.reg .edi),
    (0x04, cookie ^^^ slot (bottom s) (n + 0x24))]

def frameWords (cookie : BitVec 32) (s : Cpu) : List (Nat × BitVec 32) :=
  let n := allocation s
  savedWords cookie s ++ [(n + 0x14, slot (bottom s) 0x04),
    (0x00, readWord s.mem (slot (bottom s) (n + 0x20))), (n + 0x20, -1)]

variable {cookie : BitVec 32} {s t : Cpu}

theorem esp_slot (s : Cpu) : s.reg .esp = slot (bottom s) (allocation s + 0x20) := by
  rw [slot, bottom, BitVec.sub_add_cancel]

section

variable {b : Ptr} {n : Nat} {m : Mem 32} {ws : List (Nat × BitVec 32)}

theorem run_linkFrame (hesp : s.reg .esp = slot b (n + 0x20)) (hn : n + 0x28 ≤ 2 ^ 32) :
    run linkFrame s =
      { s with
        reg := Function.update (Function.update (Function.update s.reg .esp (slot b (n + 0x18)))
          .eax (readWord s.mem (slot b (n + 0x24)))) .ebp (slot b (n + 0x24))
        mem := writeAll s.mem (words b
          [(n + 0x1c, s.reg .eax), (n + 0x18, s.fs0), (n + 0x24, s.reg .ebp)]) } := by
  have hspaced : Spaced ([(n + 0x1c, s.reg .eax), (n + 0x18, s.fs0)] ++
      [(n + 0x24, s.reg .ebp)]) := by
    refine ⟨?_, ?_⟩
    · simp [Separate]
    · simp
      omega
  have hsize : readWord (writeAll s.mem (words b [(n + 0x1c, s.reg .eax), (n + 0x18, s.fs0)]))
      (slot b (n + 0x24)) = readWord s.mem (slot b (n + 0x24)) :=
    readWord_later hspaced (List.mem_singleton_self _)
  have hpushed : writeWord (writeWord s.mem (slot b (n + 0x1c)) (s.reg .eax)) (slot b (n + 0x18))
      s.fs0 = writeAll s.mem (words b [(n + 0x1c, s.reg .eax), (n + 0x18, s.fs0)]) := rfl
  simp [linkFrame, Instr.exec, Cpu.push, Cpu.eval, Cpu.load, Cpu.store, Cpu.setReg, hesp, slot_add,
    slot_sub, Nat.add_assoc, hpushed, hsize]
  rfl

theorem run_saveRegisters (hesp : s.reg .esp = slot b (n + 0x18))
    (heax : s.reg .eax = .ofNat 32 n) (hmem : s.mem = writeAll m (words b ws)) :
    run saveRegisters s =
      { s with
        reg := Function.update s.reg .esp (slot b 0x08)
        mem := writeAll m (words b (ws ++
          [(0x10, s.reg .ebx), (0x0c, s.reg .esi), (0x08, s.reg .edi)])) } := by
  have halloc : slot b (n + 0x14) - .ofNat 32 n = slot b 0x14 := by
    rw [slot_sub (Nat.le_add_right n _), Nat.add_sub_cancel_left]
  simp [saveRegisters, Instr.exec, Cpu.push, Cpu.eval, Cpu.load, Cpu.setReg, hesp,
    heax, hmem, slot_sub, halloc, writeWord_words]

theorem run_storeCookie (cookie : BitVec 32) (hesp : s.reg .esp = slot b 0x08)
    (hmem : s.mem = writeAll m (words b ws)) : run (storeCookie cookie) s =
      { s with
        reg := Function.update (Function.update s.reg .eax (cookie ^^^ s.reg .ebp))
          .esp (slot b 0x04)
        mem := writeAll m (words b (ws ++ [(0x04, cookie ^^^ s.reg .ebp)])) } := by
  simp [storeCookie, Instr.exec, Cpu.push, Cpu.eval, Cpu.load, Cpu.store, Cpu.setReg, hesp, hmem,
    slot_sub, writeWord_words]

theorem run_registerFrame (hesp : s.reg .esp = slot b 0x04)
    (hebp : s.reg .ebp = slot b (n + 0x24)) (hmem : s.mem = writeAll m (words b ws))
    (hws : Spaced (ws ++ [(n + 0x14, slot b 0x04), (0x00, readWord m (slot b (n + 0x20))),
      (n + 0x20, -1)])) :
    run registerFrame s =
      { s with
        reg := Function.update (Function.update (Function.update s.reg .esp (slot b 0x00))
          .eax (slot b (n + 0x24) + 0x0c)) .esp (slot b 0x04)
        fs0 := slot b (n + 0x24) + 0x0c
        mem := writeAll m (words b (ws ++ [(n + 0x14, slot b 0x04),
          (0x00, readWord m (slot b (n + 0x20))), (n + 0x20, -1)]))
        eip := readWord m (slot b (n + 0x20)) } := by
  have hsplit : Spaced ((ws ++ [(n + 0x14, slot b 0x04)]) ++
      [(0x00, readWord m (slot b (n + 0x20))), (n + 0x20, -1)]) := by
    rw [List.append_assoc]
    exact hws
  have hreturn : readWord (writeAll m (words b (ws ++ [(n + 0x14, slot b 0x04)])))
      (slot b (n + 0x20)) = readWord m (slot b (n + 0x20)) :=
    readWord_later hsplit (List.mem_cons_of_mem _ (List.mem_singleton_self _))
  have hpopped : readWord (writeAll m (words b (ws ++ [(n + 0x14, slot b 0x04),
      (0x00, readWord m (slot b (n + 0x20))), (n + 0x20, -1)]))) (slot b 0x00) =
      readWord m (slot b (n + 0x20)) := readWord_words hws (by simp)
  have htop : slot b 0x00 + 0x04 = slot b 0x04 := slot_add
  simp [registerFrame, Instr.exec, Cpu.push, Cpu.eval, Cpu.load, Cpu.store, Cpu.setReg, hesp, hmem,
    hebp, slot_sub, writeWord_words, hreturn]
  exact ⟨congrArg _ htop, hpopped⟩

end

theorem frameWords_spaced (h : Fits s) : Spaced (frameWords cookie s) := by
  rw [Fits] at h
  refine ⟨?_, ?_⟩
  · simp [frameWords, savedWords, Separate]
  · simp [frameWords, savedWords]
    omega

theorem size_slot (s : Cpu) :
    readWord s.mem (slot (bottom s) (allocation s + 0x24)) = .ofNat 32 (allocation s) := by
  have haddr : slot (bottom s) (allocation s + 0x24) = s.reg .esp + 4 := by
    have hadd : slot (bottom s) (allocation s + 0x20) + .ofNat 32 0x04 =
        slot (bottom s) (allocation s + 0x20 + 0x04) := slot_add
    rw [esp_slot s]
    exact hadd.symm
  rw [haddr, allocation, BitVec.ofNat_toNat, BitVec.setWidth_eq]

structure AtReturn (cookie : BitVec 32) (s t : Cpu) : Prop where
  esp : t.reg .esp = slot (bottom s) 0x04
  ebp : t.reg .ebp = slot (bottom s) (allocation s + 0x24)
  fs0 : t.fs0 = t.reg .ebp + 0x0c
  kept : ∀ r ∈ [Reg.ecx, .edx, .ebx, .esi, .edi], t.reg r = s.reg r
  mem : t.mem = writeAll s.mem (words (bottom s) (frameWords cookie s))
  eip : t.eip = readWord s.mem (s.reg .esp)

theorem ehProlog3_atReturn (h : Fits s) : AtReturn cookie s (run (ehProlog3 cookie) s) := by
  have hlink := run_linkFrame (esp_slot s) h
  rw [size_slot] at hlink
  rw [ehProlog3, run_append, run_append, run_append]
  generalize run linkFrame s = s₁ at *
  have hsave := run_saveRegisters (s := s₁) (by rw [hlink]; rfl) (by rw [hlink]; rfl)
    (congrArg Cpu.mem hlink)
  generalize run saveRegisters s₁ = s₂ at *
  have hcookie := run_storeCookie cookie (by rw [hsave]; rfl) (congrArg Cpu.mem hsave)
  generalize run (storeCookie cookie) s₂ = s₃ at *
  have hebp : s₃.reg .ebp = slot (bottom s) (allocation s + 0x24) := by
    rw [hcookie, hsave, hlink]
    rfl
  have hmem : s₃.mem = writeAll s.mem (words (bottom s) (savedWords cookie s)) := by
    rw [hcookie, hsave, hlink]
    rfl
  have hregister := run_registerFrame (by rw [hcookie]; rfl) hebp hmem (frameWords_spaced h)
  rw [hregister]
  refine ⟨rfl, hebp, ?_, ?_, rfl, ?_⟩
  · change slot (bottom s) (allocation s + 0x24) + 0x0c = s₃.reg .ebp + 0x0c
    rw [hebp]
  · intro r hr
    simp only [List.mem_cons, List.not_mem_nil, or_false] at hr
    obtain rfl | rfl | rfl | rfl | rfl := hr <;> rw [hcookie, hsave, hlink] <;> rfl
  · rw [esp_slot s]

theorem AtReturn.read {i : Nat} {v : BitVec 32} (h : AtReturn cookie s t) (hfits : Fits s)
    (hmem : (i, v) ∈ frameWords cookie s) : readWord t.mem (slot (bottom s) i) = v := by
  rw [h.mem]
  exact readWord_words (frameWords_spaced hfits) hmem

structure Entered (s t : Cpu) : Prop where
  frame : fh3FrameAt t.mem (t.reg .ebp - 0x10) = ⟨t.reg .esp, s.fs0, s.reg .eax, -1⟩
  kept : ∀ r ∈ [Reg.ecx, .edx, .ebx, .esi, .edi], t.reg r = s.reg r
  returns : t.eip = readWord s.mem (s.reg .esp)

structure Registered (s t : Cpu) : Prop where
  head : t.fs0 = t.reg .ebp - 0x0c
  frame : fh3FrameAt t.mem (containerOfSehReg t.fs0) = ⟨t.reg .esp, s.fs0, s.reg .eax, -1⟩

/-- The function's body leaves the frame, as far as the epilogue reads it, as it was. -/
structure KeepsFrame (t t' : Cpu) : Prop where
  esp : t'.reg .esp = t.reg .esp
  ebp : t'.reg .ebp = t.reg .ebp
  next : readWord t'.mem (t.reg .ebp - 0x0c) = readWord t.mem (t.reg .ebp - 0x0c)
  saved : ∀ p ∈ [t.reg .ebp, t.reg .esp + 0x04, t.reg .esp + 0x08, t.reg .esp + 0x0c],
    readWord t'.mem p = readWord t.mem p

/-- After the epilogue everything is as it was before the caller pushed the size of the allocation
and called the prologue. -/
structure Restored (s t u : Cpu) : Prop where
  kept : ∀ r ∈ [Reg.ebx, .esi, .edi, .ebp], u.reg r = s.reg r
  esp : u.reg .esp = s.reg .esp + 8
  fs0 : u.fs0 = s.fs0
  eax : u.reg .eax = t.reg .eax

theorem entered_ehProlog3 (h : AtReturn cookie s t) (hfits : Fits s) : Entered s t := by
  have hlimit : t.reg .ebp - 0x10 = slot (bottom s) (allocation s + 0x14) := by
    rw [h.ebp]
    exact slot_sub (Nat.le_add_left _ _)
  have hread (i : Nat) (v : BitVec 32) (hmem : (i, v) ∈ frameWords cookie s) :
      read32 t.mem (slot (bottom s) i) = v := h.read hfits hmem
  have hlimitWord := hread (allocation s + 0x14) (slot (bottom s) 0x04) (by simp [frameWords])
  have hnext := hread (allocation s + 0x18) s.fs0 (by simp [frameWords, savedWords])
  have hhandler := hread (allocation s + 0x1c) (s.reg .eax) (by simp [frameWords, savedWords])
  have hstate := hread (allocation s + 0x20) (-1) (by simp [frameWords])
  have haddr₁ : slot (bottom s) (allocation s + 0x14) + 4 = slot (bottom s) (allocation s + 0x18) :=
    slot_add
  have haddr₂ : slot (bottom s) (allocation s + 0x14) + 8 = slot (bottom s) (allocation s + 0x1c) :=
    slot_add
  have haddr₃ : slot (bottom s) (allocation s + 0x14) + 12 =
      slot (bottom s) (allocation s + 0x20) := slot_add
  refine ⟨?_, h.kept, h.eip⟩
  rw [hlimit, h.esp, fh3FrameAt, haddr₁, haddr₂, haddr₃, hlimitWord, hnext, hhandler, hstate]
  rfl

theorem run_callEpilog {b : Ptr} {n : Nat} {m : Mem 32} (returnAddress : Ptr)
    (hesp : t.reg .esp = slot b 0x04) (hebp : t.reg .ebp = slot b (n + 0x24))
    (hm : m = writeAll t.mem (words b [(0x00, returnAddress)])) :
    let u := run (callEpilog returnAddress) t
    (u.reg .ebx = readWord m (slot b 0x10) ∧ u.reg .esi = readWord m (slot b 0x0c) ∧
      u.reg .edi = readWord m (slot b 0x08) ∧ u.reg .ebp = readWord m (slot b (n + 0x24))) ∧
      u.reg .esp = slot b (n + 0x28) ∧ u.fs0 = readWord m (slot b (n + 0x18)) ∧
        u.reg .eax = t.reg .eax := by
  have hcall : writeWord t.mem (slot b 0x00) returnAddress = m := hm.symm
  simp [callEpilog, ehEpilog3, Instr.exec, Cpu.push, Cpu.pop, Cpu.eval, Cpu.load, Cpu.store,
    Cpu.setReg, hesp, hebp, slot_add, slot_sub, hcall]

theorem frameState_ehProlog3 (h : Entered s t) : Handler.frameState t.mem (t.reg .ebp) = -1 := by
  have hstate := congrArg Fh3Frame.state h.frame
  have haddr : t.reg .ebp - 0x10 + 12 = t.reg .ebp - 4 := by
    bv_omega
  simp only [fh3FrameAt, haddr] at hstate
  exact hstate

theorem read_kept {t' : Cpu} {returnAddress : Ptr} {i : Nat} {v : BitVec 32}
    (h : AtReturn cookie s t) (hfits : Fits s) (hmem : (i, v) ∈ frameWords cookie s)
    (hi : 4 ≤ i)
    (hkept : readWord t'.mem (slot (bottom s) i) = readWord t.mem (slot (bottom s) i)) :
    readWord (writeAll t'.mem (words (bottom s) [(0x00, returnAddress)])) (slot (bottom s) i) =
      v := by
  have hother : readWord (writeAll t'.mem (words (bottom s) [(0x00, returnAddress)]))
      (slot (bottom s) i) = readWord t'.mem (slot (bottom s) i) := by
    apply readWord_other ((frameWords_spaced hfits).room _ hmem)
    intro x hx
    obtain rfl := List.mem_singleton.mp hx
    exact ⟨.inl hi, by simp⟩
  rw [hother, hkept, h.read hfits hmem]

theorem restored_ehEpilog3 {t' : Cpu} (returnAddress : Ptr) (h : AtReturn cookie s t)
    (hfits : Fits s) (hkeeps : KeepsFrame t t') :
    Restored s t' (run (callEpilog returnAddress) t') := by
  have hesp : t'.reg .esp = slot (bottom s) 0x04 := hkeeps.esp.trans h.esp
  have hebp : t'.reg .ebp = slot (bottom s) (allocation s + 0x24) := hkeeps.ebp.trans h.ebp
  have hnext := hkeeps.next
  have hsaved := hkeeps.saved
  rw [h.ebp] at hnext hsaved
  rw [h.esp] at hsaved
  have haddr : slot (bottom s) (allocation s + 0x24) - 0x0c =
      slot (bottom s) (allocation s + 0x18) := slot_sub (Nat.le_add_left _ _)
  have haddr₁ : slot (bottom s) 0x04 + 0x04 = slot (bottom s) 0x08 := slot_add
  have haddr₂ : slot (bottom s) 0x04 + 0x08 = slot (bottom s) 0x0c := slot_add
  have haddr₃ : slot (bottom s) 0x04 + 0x0c = slot (bottom s) 0x10 := slot_add
  simp only [haddr, haddr₁, haddr₂, haddr₃, List.forall_mem_cons] at hnext hsaved
  obtain ⟨hsavedEbp, hsavedEdi, hsavedEsi, hsavedEbx, -⟩ := hsaved
  obtain ⟨⟨hebx, hesi, hedi, hebp'⟩, hesp', hfs0, heax⟩ :=
    run_callEpilog returnAddress hesp hebp rfl
  refine ⟨?_, ?_, ?_, heax⟩
  · intro r hr
    simp only [List.mem_cons, List.not_mem_nil, or_false] at hr
    obtain rfl | rfl | rfl | rfl := hr
    · exact hebx.trans
        (read_kept h hfits (by simp [frameWords, savedWords]) (by decide) hsavedEbx)
    · exact hesi.trans
        (read_kept h hfits (by simp [frameWords, savedWords]) (by decide) hsavedEsi)
    · exact hedi.trans
        (read_kept h hfits (by simp [frameWords, savedWords]) (by decide) hsavedEdi)
    · exact hebp'.trans
        (read_kept h hfits (by simp [frameWords, savedWords]) (by omega) hsavedEbp)
  · have htop : slot (bottom s) (allocation s + 0x20) + 8 =
        slot (bottom s) (allocation s + 0x28) := slot_add
    rw [hesp', ← htop, ← esp_slot]
  · exact hfs0.trans
      (read_kept h hfits (by simp [frameWords, savedWords]) (by omega) hnext)

/-- The prologue registers its frame, and the epilogue undoes whatever it did. -/
structure SetsUpFrame (cookie : BitVec 32) (s : Cpu) : Prop where
  entered : Entered s (run (ehProlog3 cookie) s)
  registered : Registered s (run (ehProlog3 cookie) s)
  restored : ∀ t' returnAddress, KeepsFrame (run (ehProlog3 cookie) s) t' →
    Restored s t' (run (callEpilog returnAddress) t')

theorem fs0_ehProlog3 (cookie : BitVec 32) (s : Cpu) :
    (run (ehProlog3 cookie) s).fs0 = (run (ehProlog3 cookie) s).reg .ebp + 0x0c := by
  rw [ehProlog3, run_append]
  generalize run (linkFrame ++ saveRegisters ++ storeCookie cookie) s = s₃
  rfl

/-- The prologue never registers its frame: the head of the chain is as far above `ebp` as the
record is below. All else it does right where the frame has room. -/
theorem ehProlog3_never_registers (cookie : BitVec 32) (s : Cpu) :
    ¬ SetsUpFrame cookie s ∧
      (run (ehProlog3 cookie) s).fs0 = (run (ehProlog3 cookie) s).reg .ebp + 0x0c ∧
      (Fits s → Entered s (run (ehProlog3 cookie) s) ∧
        Handler.frameState (run (ehProlog3 cookie) s).mem
          ((run (ehProlog3 cookie) s).reg .ebp) = -1 ∧
        ∀ t' returnAddress, KeepsFrame (run (ehProlog3 cookie) s) t' →
          Restored s t' (run (callEpilog returnAddress) t')) := by
  have hfs0 := fs0_ehProlog3 cookie s
  refine ⟨?_, hfs0, ?_⟩
  · intro h
    have hhead := h.registered.head
    rw [hfs0, BitVec.sub_eq_add_neg, BitVec.add_right_inj] at hhead
    exact absurd hhead (by decide)
  · intro hfits
    have hreturn : AtReturn cookie s _ := ehProlog3_atReturn hfits
    have hentered := entered_ehProlog3 hreturn hfits
    exact ⟨hentered, frameState_ehProlog3 hentered,
      fun t' ret => restored_ehEpilog3 ret hreturn hfits⟩

def smallCall : Cpu where
  reg r := if r = .esp then 0x8000 else if r = .eax then 0x401000 else 0
  fs0 := 0x9000
  mem := write (fun _ => 0) 0x8000 [0x10, 0x20, 0x40, 0x00, 0x08]
  eip := 0x402000

theorem smallCall_fits : Fits smallCall := by decide

theorem ehProlog3_smallCall :
    ¬ SetsUpFrame 0x1234 smallCall ∧
      Entered smallCall (run (ehProlog3 0x1234) smallCall) ∧
      Restored smallCall (run (ehProlog3 0x1234) smallCall)
        (run (callEpilog 0x402020) (run (ehProlog3 0x1234) smallCall)) := by
  obtain ⟨hnot, -, h⟩ := ehProlog3_never_registers 0x1234 smallCall
  obtain ⟨hentered, -, hrestored⟩ := h smallCall_fits
  exact ⟨hnot, hentered, hrestored _ _ ⟨rfl, rfl, rfl, fun _ _ => rfl⟩⟩

/-- The head of the chain is behind the return address, in the frame of the caller. -/
theorem ehProlog3_misregisters :
    ¬ SetsUpFrame 0x1234 smallCall ∧
      (run (ehProlog3 0x1234) smallCall).reg .ebp = 0x8004 ∧
      (run (ehProlog3 0x1234) smallCall).fs0 = 0x8010 := by
  have hebp : (run (ehProlog3 0x1234) smallCall).reg .ebp = 0x8004 :=
    (ehProlog3_atReturn smallCall_fits).ebp.trans (by decide)
  have hfs0 : (run (ehProlog3 0x1234) smallCall).fs0 = 0x8010 := by
    rw [fs0_ehProlog3, hebp]
    rfl
  refine ⟨?_, hebp, hfs0⟩
  intro h
  have hhead := h.registered.head
  rw [hfs0, hebp] at hhead
  exact absurd hhead (by decide)

end Vcrtl.X86.EhHelpers

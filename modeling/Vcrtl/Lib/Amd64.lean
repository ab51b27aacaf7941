import Vcrtl.Lib.Listing
import Vcrtl.Lib.Memory

namespace Vcrtl.Lib.Amd64

open Memory Listing

inductive Reg
  | rax
  | rcx
  | rdx
  | rbx
  | rsp
  | rbp
  | rsi
  | rdi
  | r8
  | r9
  | r10
  | r11
  | r12
  | r13
  | r14
  | r15
  deriving DecidableEq

inductive Selector
  | cs
  | ss
  deriving DecidableEq

/-- The machine between two instructions. Only a jump out of the listing sets
`rip`. -/
structure Cpu where
  reg : Reg → BitVec 64
  xmm : Fin 16 → BitVec 128
  selector : Selector → BitVec 16
  rflags : BitVec 64
  mem : Mem 64
  rip : BitVec 64

/-- A displacement from where a register points, with or without an index of words. -/
inductive Address
  | above (base : Reg) (disp : Int)
  | word (base : Reg) (disp : Int) (index : Reg)

inductive Operand
  | reg (r : Reg)
  | imm (n : BitVec 64)
  | selector (sel : Selector)
  | mem (a : Address)

inductive Instr
  | mov (dst : Reg) (src : Operand)
  | store (dst : Address) (src : Reg)
  | lea (dst : Reg) (a : Address)
  | push (src : Reg)
  | pushfq
  | add (dst : Reg) (n : BitVec 64)
  | sub (dst : Reg) (n : BitVec 64)
  | cmp (x : Reg) (n : BitVec 64)
  | movdqaLoad (dst : Fin 16) (a : Address)
  | movdqaStore (a : Address) (src : Fin 16)
  | iretq

inductive Condition
  | above

def Cpu.address (s : Cpu) : Address → BitVec 64
  | .above base disp => s.reg base + .ofInt 64 disp
  | .word base disp index => s.reg base + .ofInt 64 disp + 8 * s.reg index

def Cpu.eval (s : Cpu) : Operand → BitVec 64
  | .reg r => s.reg r
  | .imm n => n
  | .selector sel => (s.selector sel).setWidth 64
  | .mem a => readWord s.mem (s.address a)

def Cpu.setReg (s : Cpu) (r : Reg) (v : BitVec 64) : Cpu :=
  { s with reg := Function.update s.reg r v }

def Cpu.push (s : Cpu) (v : BitVec 64) : Cpu :=
  let rsp := s.reg .rsp - 8
  { s.setReg .rsp rsp with mem := writeWord s.mem rsp v }

def flag (i : Nat) (b : Bool) : BitVec 64 := if b then .twoPow 64 i else 0

def evenParity (r : BitVec 64) : Bool := (List.range 8).countP r.getLsbD % 2 = 0

/-- The six status flags after `a` and `b` gave `r`. -/
def Cpu.setStatus (s : Cpu) (carry overflow : Bool) (a b r : BitVec 64) : Cpu :=
  { s with
    rflags := (s.rflags &&& ~~~0x8d5) ||| flag 0 carry ||| flag 2 (evenParity r) |||
      flag 4 ((a ^^^ b ^^^ r).getLsbD 4) ||| flag 6 (r = 0) ||| flag 7 r.msb ||| flag 11 overflow }

def Cpu.statusOfSub (s : Cpu) (a b : BitVec 64) : Cpu :=
  s.setStatus (a < b) ((a ^^^ b) &&& (a ^^^ (a - b))).msb a b (a - b)

def Cpu.statusOfAdd (s : Cpu) (a b : BitVec 64) : Cpu :=
  s.setStatus (a + b < a) ((a ^^^ (a + b)) &&& (b ^^^ (a + b))).msb a b (a + b)

def aligned (a : BitVec 64) : Bool := a.toNat % 16 = 0

/-- Pushed flags have no resumption and no virtual mode. A return from an
interrupt stays at its privilege and takes the frame as it is. -/
def exec : Instr → Cpu → Option Cpu
  | .mov dst src, s => some (s.setReg dst (s.eval src))
  | .store dst src, s => some { s with mem := writeWord s.mem (s.address dst) (s.reg src) }
  | .lea dst a, s => some (s.setReg dst (s.address a))
  | .push src, s => some (s.push (s.reg src))
  | .pushfq, s => some (s.push (s.rflags &&& 0xfcffff))
  | .add dst n, s => some ((s.statusOfAdd (s.reg dst) n).setReg dst (s.reg dst + n))
  | .sub dst n, s => some ((s.statusOfSub (s.reg dst) n).setReg dst (s.reg dst - n))
  | .cmp x n, s => some (s.statusOfSub (s.reg x) n)
  | .movdqaLoad dst a, s =>
    if aligned (s.address a) then
      some { s with xmm := Function.update s.xmm dst (read128 s.mem (s.address a)) }
    else
      none
  | .movdqaStore a src, s =>
    if aligned (s.address a) then
      some { s with mem := write s.mem (s.address a) (bytesLE 16 (s.xmm src).toNat) }
    else
      none
  | .iretq, s =>
    let rsp := s.reg .rsp
    some { s with
      reg := Function.update s.reg .rsp (readWord s.mem (rsp + 24))
      selector := fun
        | .cs => (readWord s.mem (rsp + 8)).setWidth 16
        | .ss => (readWord s.mem (rsp + 32)).setWidth 16
      rflags := readWord s.mem (rsp + 16)
      rip := readWord s.mem rsp }

def test : Condition → Cpu → Bool
  | .above, s => !s.rflags.getLsbD 0 && !s.rflags.getLsbD 6

def machine {κ : Type} (returns : κ → Cpu → Cpu → Prop) : Machine Instr Condition κ Cpu :=
  ⟨exec, test, returns⟩

/-- What a call to a function that only returns leaves below the stack. -/
def Cpu.returned (s : Cpu) (returnAddress : BitVec 64) : Cpu :=
  { s with mem := writeWord s.mem (s.reg .rsp - 8) returnAddress }

def faults : Instr → Bool
  | .movdqaLoad _ _ | .movdqaStore _ _ => true
  | _ => false

theorem exec_of_not_faults {i : Instr} (h : faults i = false) (s : Cpu) :
    ∃ t, exec i s = some t := by
  cases i with
  | movdqaLoad dst a | movdqaStore a src => cases h
  | _ => exact ⟨_, rfl⟩

theorem reg_setReg_self (s : Cpu) (r : Reg) (v : BitVec 64) : (s.setReg r v).reg r = v := by
  simp [Cpu.setReg]

theorem reg_setReg_of_ne {s : Cpu} {r r' : Reg} {v : BitVec 64} (h : r' ≠ r) :
    (s.setReg r v).reg r' = s.reg r' := by
  simp [Cpu.setReg, h]

theorem getLsbD_flag {i : Nat} (j : Nat) (b : Bool) (hi : i < 64) :
    (flag i b).getLsbD j = (b && decide (i = j)) := by
  rw [flag]
  cases b with
  | false => simp
  | true => simp [hi]

theorem test_above (s : Cpu) (a b : BitVec 64) :
    test .above (s.statusOfSub a b) = decide (b < a) := by
  have hmask (r : BitVec 64) :
      (r &&& ~~~0x8d5).getLsbD 0 = false ∧ (r &&& ~~~0x8d5).getLsbD 6 = false := by
    simp
  have hcarry : (s.statusOfSub a b).rflags.getLsbD 0 = decide (a < b) := by
    simp (disch := decide) only [Cpu.statusOfSub, Cpu.setStatus, BitVec.getLsbD_or, hmask,
      getLsbD_flag]
    simp
  have hzero : (s.statusOfSub a b).rflags.getLsbD 6 = decide (a - b = 0) := by
    simp (disch := decide) only [Cpu.statusOfSub, Cpu.setStatus, BitVec.getLsbD_or, hmask,
      getLsbD_flag]
    simp
  have hlt : (¬ a < b ∧ ¬ a - b = 0) ↔ b < a := by
    bv_omega
  rw [test, hcarry, hzero, ← decide_not, ← decide_not, ← Bool.decide_and]
  exact decide_eq_decide.mpr hlt

end Vcrtl.Lib.Amd64

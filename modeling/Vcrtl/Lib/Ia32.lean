import Vcrtl.Lib.Parts

namespace Vcrtl.Lib.Ia32

open Memory
open Parts (Part slot slot_add stores extent Clear holds_part holds_beside)

inductive Reg
  | eax
  | ecx
  | edx
  | ebx
  | esp
  | ebp
  | esi
  | edi
  deriving DecidableEq

structure Cpu where
  reg : Reg → BitVec 32
  fs0 : BitVec 32
  mem : Mem 32
  eip : BitVec 32

/-- What an instruction can store to: a register, a word some bytes above or
below where a register points, or the word in the segment. -/
inductive Place
  | reg (r : Reg)
  | above (base : Reg) (n : BitVec 32)
  | below (base : Reg) (n : BitVec 32)
  | fs0

inductive Operand
  | place (x : Place)
  | imm (n : BitVec 32)

inductive Instr
  | push (src : Operand)
  | pop (dst : Reg)
  | mov (dst : Place) (src : Operand)
  | lea (dst base : Reg) (n : BitVec 32)
  | add (dst : Reg) (src : Operand)
  | sub (dst : Reg) (src : Operand)
  | xor (dst : Reg) (src : Operand)
  | ret
  | jmp (r : Reg)

def Cpu.load (s : Cpu) : Place → BitVec 32
  | .reg r => s.reg r
  | .above base n => readWord s.mem (s.reg base + n)
  | .below base n => readWord s.mem (s.reg base - n)
  | .fs0 => s.fs0

def Cpu.eval (s : Cpu) : Operand → BitVec 32
  | .place x => s.load x
  | .imm n => n

def Cpu.setReg (s : Cpu) (r : Reg) (v : BitVec 32) : Cpu :=
  { s with reg := Function.update s.reg r v }

def Cpu.store (s : Cpu) (v : BitVec 32) : Place → Cpu
  | .reg r => s.setReg r v
  | .above base n => { s with mem := writeWord s.mem (s.reg base + n) v }
  | .below base n => { s with mem := writeWord s.mem (s.reg base - n) v }
  | .fs0 => { s with fs0 := v }

def Cpu.push (s : Cpu) (v : BitVec 32) : Cpu :=
  let esp := s.reg .esp - 4
  { s.setReg .esp esp with mem := writeWord s.mem esp v }

/-- The stack pointer goes up before the word is stored. -/
def Cpu.pop (s : Cpu) (r : Reg) : Cpu :=
  (s.setReg .esp (s.reg .esp + 4)).setReg r (readWord s.mem (s.reg .esp))

def Instr.exec (s : Cpu) : Instr → Cpu
  | push src => s.push (s.eval src)
  | pop dst => s.pop dst
  | mov dst src => s.store (s.eval src) dst
  | lea dst base n => s.setReg dst (s.reg base + n)
  | add dst src => s.setReg dst (s.reg dst + s.eval src)
  | sub dst src => s.setReg dst (s.reg dst - s.eval src)
  | xor dst src => s.setReg dst (s.reg dst ^^^ s.eval src)
  | ret => { s.setReg .esp (s.reg .esp + 4) with eip := readWord s.mem (s.reg .esp) }
  | jmp r => { s with eip := s.reg r }

def run (code : List Instr) (s : Cpu) : Cpu := code.foldl Instr.exec s

def words (base : BitVec 32) (ws : List (Nat × BitVec 32)) : List (Store 32) :=
  ws.map fun x => (slot base x.1, bytesLE 4 x.2.toNat)

def Separate (i j : Nat) : Prop := i + 4 ≤ j ∨ j + 4 ≤ i

structure Spaced (ws : List (Nat × BitVec 32)) : Prop where
  separate : ws.Pairwise fun x y => Separate x.1 y.1
  room : ∀ x ∈ ws, x.1 + 4 ≤ 2 ^ 32

variable {base : BitVec 32} {i j n : Nat} {u v : BitVec 32} {m : Mem 32}
  {ws : List (Nat × BitVec 32)}

def wordPart (x : Nat × BitVec 32) : Part := (x.1, bytesLE 4 x.2.toNat)

theorem words_stores : words base ws = stores base (ws.map wordPart) := by
  rw [words, stores, List.map_map]
  rfl

theorem Separate.clear {x y : Nat × BitVec 32} (h : Separate x.1 y.1) :
    Clear (extent (wordPart x)) (extent (wordPart y)) := by
  simpa [Clear, extent, wordPart, Separate] using h

theorem Spaced.parts (h : Spaced ws) : Parts.Spaced 32 ((ws.map wordPart).map extent) := by
  rw [List.map_map]
  refine ⟨?_, ?_⟩
  · rw [List.pairwise_map]
    exact h.separate.imp Separate.clear
  · intro e he
    obtain ⟨x, hx, rfl⟩ := List.mem_map.mp he
    simpa [extent, wordPart] using h.room x hx

@[simp] theorem run_nil (s : Cpu) : run [] s = s := rfl

@[simp] theorem run_cons (x : Instr) (xs : List Instr) (s : Cpu) :
    run (x :: xs) s = run xs (x.exec s) := rfl

theorem run_append (xs ys : List Instr) (s : Cpu) : run (xs ++ ys) s = run ys (run xs s) :=
  List.foldl_append

theorem writeWord_words : writeWord (writeAll m (words base ws)) (slot base i) v =
    writeAll m (words base (ws ++ [(i, v)])) := by
  rw [words, words, List.map_append, writeAll, writeAll, List.foldl_append]
  rfl

theorem readWord_holds {p : BitVec 32} (h : Holds m p (bytesLE 4 v.toNat)) : readWord m p = v :=
  read32_bytesLE h

theorem holds_readWord (m : Mem 32) (p : BitVec 32) :
    Holds m p (bytesLE 4 (readWord m p).toNat) := by
  have hread : (readWord m p).toNat = readLE m p 4 := toNat_read32 m p
  rw [hread, bytesLE_readLE]
  exact holds_readBytes m p 4

theorem readWord_words (hws : Spaced ws) (h : (i, v) ∈ ws) :
    readWord (writeAll m (words base ws)) (slot base i) = v := by
  rw [words_stores]
  exact readWord_holds (holds_part hws.parts (List.mem_map_of_mem h))

theorem readWord_other (hi : i + 4 ≤ 2 ^ 32) (hws : ∀ x ∈ ws, Separate x.1 i ∧ x.1 + 4 ≤ 2 ^ 32) :
    readWord (writeAll m (words base ws)) (slot base i) = readWord m (slot base i) := by
  rw [words_stores]
  refine readWord_holds (holds_beside (x := wordPart (i, readWord m (slot base i))) ?_ ?_
    (holds_readWord m (slot base i)))
  · simpa [wordPart] using hi
  · intro e he
    rw [List.map_map] at he
    obtain ⟨x, hx, rfl⟩ := List.mem_map.mp he
    obtain ⟨hseparate, hroom⟩ := hws x hx
    exact ⟨(Separate.clear (y := (i, readWord m (slot base i))) hseparate).symm,
      by simpa [extent, wordPart] using hroom⟩

theorem readWord_later {ws' : List (Nat × BitVec 32)} (hws : Spaced (ws ++ ws'))
    (h : (i, v) ∈ ws') :
    readWord (writeAll m (words base ws)) (slot base i) = readWord m (slot base i) := by
  apply readWord_other (hws.room _ (List.mem_append_right ws h))
  intro x hx
  exact ⟨(List.pairwise_append.mp hws.separate).2.2 x hx _ h,
    hws.room x (List.mem_append_left ws' hx)⟩

end Vcrtl.Lib.Ia32

import Vcrtl.X64.Unwinder

namespace Vcrtl.X64.Prologue

open Lib.Memory BugCheck EhStructs Unwinder

structure Cpu where
  ctx : FrameWalkContext
  mach : MachFrame
  mem : Mem 64

/-- An instruction of a prologue that has an unwind code. -/
inductive Op
  | pushNonvol (r : Fin 8)
  | allocSmall (n : BitVec 4)
  | allocLarge (n : BitVec 16)
  | allocHuge (n : BitVec 32)
  | setFrame (r : Fin 8) (disp : BitVec 4)
  | saveNonvol (r : Fin 8) (n : BitVec 16)
  | saveXmm (r : Fin 10) (n : BitVec 16)
  | saveXmmFar (r : Fin 10) (n : BitVec 32)

/-- How the function was entered: by a call, or by an interrupt that pushed a
machine frame from `base` downwards, with or without an error code. -/
inductive Entry
  | call
  | machineFrame (base : Ptr) (errorCode : Option (BitVec 64))

def wordAt (p : Ptr) (v : BitVec 64) : Store 64 := (p, bytesLE 8 v.toNat)

def Op.rsp (rsp : Ptr) : Op → Ptr
  | pushNonvol _ => rsp - 8
  | allocSmall n => rsp - (n.setWidth 64 * 8 + 8)
  | allocLarge n => rsp - n.setWidth 64 * 8
  | allocHuge n => rsp - n.setWidth 64
  | setFrame _ _ | saveNonvol _ _ | saveXmm _ _ | saveXmmFar _ _ => rsp

def Op.store (s : Cpu) : Op → Option (Store 64)
  | pushNonvol r => some (wordAt (s.mach.rsp - 8) (s.ctx.gpr r))
  | saveNonvol r n => some (wordAt (s.mach.rsp + n.setWidth 64 * 8) (s.ctx.gpr r))
  | saveXmm r n => some (s.mach.rsp + n.setWidth 64 * 16, bytesLE 16 (s.ctx.xmm r).toNat)
  | saveXmmFar r n => some (s.mach.rsp + n.setWidth 64, bytesLE 16 (s.ctx.xmm r).toNat)
  | allocSmall _ | allocLarge _ | allocHuge _ | setFrame _ _ => none

def Op.gpr (s : Cpu) : Op → Fin 8 → BitVec 64
  | setFrame r disp => Function.update s.ctx.gpr r (s.mach.rsp + disp.setWidth 64 * 16)
  | _ => s.ctx.gpr

def Op.exec (op : Op) (s : Cpu) : Cpu where
  ctx := { s.ctx with gpr := op.gpr s }
  mach := { s.mach with rsp := op.rsp s.mach.rsp }
  mem := writeAll s.mem (op.store s).toList

def Entry.rsp (rsp : Ptr) : Entry → Ptr
  | call => rsp - 8
  | machineFrame base none => base - 40
  | machineFrame base (some _) => base - 48

def Entry.stores (mach : MachFrame) : Entry → List (Store 64)
  | call => [wordAt (mach.rsp - 8) mach.rip]
  | machineFrame base errorCode =>
    [wordAt (base - 8) mach.ss, wordAt (base - 16) mach.rsp, wordAt (base - 24) mach.eflags,
      wordAt (base - 32) mach.cs, wordAt (base - 40) mach.rip] ++
      (errorCode.map (wordAt (base - 48))).toList

def Entry.exec (e : Entry) (s : Cpu) : Cpu where
  ctx := s.ctx
  mach := { s.mach with rsp := e.rsp s.mach.rsp }
  mem := writeAll s.mem (e.stores s.mach)

/-- Run a prologue. As in the unwind codes the last instruction comes first. -/
def run (e : Entry) (caller : Cpu) : List Op → Cpu
  | [] => e.exec caller
  | op :: ops => op.exec (run e caller ops)

def stores (e : Entry) (caller : Cpu) : List Op → List (Store 64)
  | [] => e.stores caller.mach
  | op :: ops => (op.store (run e caller ops)).toList ++ stores e caller ops

def Op.savedGp : Op → Option (Fin 8)
  | pushNonvol r | saveNonvol r _ => some r
  | _ => none

def Op.savedXmm : Op → Option (Fin 10)
  | saveXmm r _ | saveXmmFar r _ => some r
  | _ => none

def savedGps (ops : List Op) : List (Fin 8) := ops.filterMap Op.savedGp

def savedXmms (ops : List Op) : List (Fin 10) := ops.filterMap Op.savedXmm

/-- The frame pointer is set once at most, after its register was saved. -/
def FrameSaved : List Op → Prop
  | [] => True
  | .setFrame r _ :: ops => r ∈ savedGps ops ∧ (∀ r' d, .setFrame r' d ∉ ops) ∧ FrameSaved ops
  | _ :: ops => FrameSaved ops

def gpNumber (r : Fin 8) : BitVec 4 := [3, 5, 6, 7, 12, 13, 14, 15].getD r 0

def xmmNumber (r : Fin 10) : BitVec 4 := .ofNat 4 (r + 6)

def word (code info : BitVec 4) (prologOffset : BitVec 8) : BitVec 16 :=
  info ++ code ++ prologOffset

def words32 (n : BitVec 32) : List (BitVec 16) := [n.extractLsb' 0 16, n.extractLsb' 16 16]

def Op.encode (prologOffset : BitVec 8) : Op → List (BitVec 16)
  | pushNonvol r => [word 0 (gpNumber r) prologOffset]
  | allocSmall n => [word 2 n prologOffset]
  | allocLarge n => [word 1 0 prologOffset, n]
  | allocHuge n => word 1 1 prologOffset :: words32 n
  | setFrame _ _ => [word 3 0 prologOffset]
  | saveNonvol r n => [word 4 (gpNumber r) prologOffset, n]
  | saveXmm r n => [word 8 (xmmNumber r) prologOffset, n]
  | saveXmmFar r n => word 9 (xmmNumber r) prologOffset :: words32 n

def Entry.encode : Entry → List (BitVec 16)
  | call => []
  | machineFrame _ errorCode => [word 10 (if errorCode.isSome then 1 else 0) 0]

def encode (e : Entry) : List Op → (offsets : Nat → BitVec 8) → List (BitVec 16)
  | [], _ => e.encode
  | op :: ops, offsets => op.encode (offsets ops.length) ++ encode e ops offsets

def At (u : PeUnwindInfo) : Nat → List (BitVec 16) → Prop
  | _, [] => True
  | i, c :: cs => u.word i = c ∧ At u (i + 1) cs

structure Describes (u : PeUnwindInfo) (e : Entry) (ops : List Op) (offsets : Nat → BitVec 8) :
    Prop where
  count : u.unwindCodeCount.toNat = (encode e ops offsets).length
  data : At u 0 (encode e ops offsets)
  frame : ∀ r d, .setFrame r d ∈ ops → u.frameReg = gpNumber r ∧ u.frameRegDisp = d

/-- What the unwinder takes for a 32-bit operand: the first of its words. -/
def first (n : BitVec 32) : Ptr := (n.extractLsb' 0 16).setWidth 64

/-- What it leaves out. -/
def rest (n : BitVec 32) : Nat := n.toNat / 2 ^ 16 * 2 ^ 16

/-- How much too low the stack pointer of the unwinder is, from one instruction to the one
before it. -/
def Op.short (short : Nat) : Op → Nat
  | allocHuge n => short + rest n
  | setFrame _ _ => 0
  | pushNonvol _ | allocSmall _ | allocLarge _ | saveNonvol _ _ | saveXmm _ _ | saveXmmFar _ _ =>
    short

def shortAfter (short : Nat) (ops : List Op) : Nat := ops.foldl Op.short short

def Op.Fine (short : Nat) : Op → Prop
  | pushNonvol _ | saveNonvol _ _ | saveXmm _ _ => short = 0
  | saveXmmFar _ n => short + rest n = 0
  | allocSmall _ | allocLarge _ | allocHuge _ | setFrame _ _ => True

instance (short : Nat) : (op : Op) → Decidable (op.Fine short)
  | .pushNonvol _ | .saveNonvol _ _ | .saveXmm _ _ => inferInstanceAs (Decidable (short = 0))
  | .saveXmmFar _ n => inferInstanceAs (Decidable (short + rest n = 0))
  | .allocSmall _ | .allocLarge _ | .allocHuge _ | .setFrame _ _ => inferInstanceAs (Decidable True)

def AllFine : (short : Nat) → List Op → Prop
  | _, [] => True
  | short, op :: ops => op.Fine short ∧ AllFine (op.short short) ops

instance decidableAllFine : (short : Nat) → (ops : List Op) → Decidable (AllFine short ops)
  | _, [] => inferInstanceAs (Decidable True)
  | short, op :: ops => @instDecidableAnd _ _ _ (decidableAllFine (op.short short) ops)

/-- The 32-bit operands leave nothing out, or the frame pointer makes up for it before anything is
loaded. -/
def Undoable (ops : List Op) : Prop := AllFine 0 ops ∧ shortAfter 0 ops = 0

instance (ops : List Op) : Decidable (Undoable ops) := inferInstanceAs (Decidable (_ ∧ _))

def Fixed (ops : List Op) (r : Fin 8) : Prop := r ∉ savedGps ops ∨ ∃ d, .setFrame r d ∈ ops

/-- The body keeps the stack pointer and the saved slots, and has changed only
registers that were saved. -/
structure Kept (e : Entry) (caller : Cpu) (ops : List Op) (s : Cpu) : Prop where
  rsp : s.mach.rsp = (run e caller ops).mach.rsp
  gpr : ∀ r, Fixed ops r → s.ctx.gpr r = (run e caller ops).ctx.gpr r
  xmm : ∀ r, r ∉ savedXmms ops → s.ctx.xmm r = (run e caller ops).ctx.xmm r
  mem : Untouched s.mem (stores e caller ops)

variable {u : PeUnwindInfo} {m : Mem 64} {e : Entry} {caller : Cpu} {op : Op} {ops : List Op}
  {w w' : Walk} {i short : Nat} {o : BitVec 8}

theorem gp_number (r : Fin 8) : gp (gpNumber r) = .ok r := by
  match r with
  | 0 | 1 | 2 | 3 | 4 | 5 | 6 | 7 => rfl

theorem xmm_number (r : Fin 10) : Unwinder.xmm (xmmNumber r) = .ok r := by
  match r with
  | 0 | 1 | 2 | 3 | 4 | 5 | 6 | 7 | 8 | 9 => rfl

theorem entry_word {code info : BitVec 4} (h : u.word i = word code info o) :
    u.entry i = ⟨o, code, info⟩ := by
  simp only [PeUnwindInfo.entry, h, word, PeUnwindEntry.mk.injEq]
  refine ⟨?_, ?_, ?_⟩ <;>
  · apply BitVec.eq_of_getLsbD_eq
    intro k hk
    simp only [BitVec.getLsbD_extractLsb', BitVec.getLsbD_append]
    grind

def rbx : Fin 8 := ⟨0, by decide⟩

def rbp : Fin 8 := ⟨1, by decide⟩

def xmm6 : Fin 10 := ⟨0, by decide⟩

/-- `push rbp`, `push rbx`, `sub rsp, 56`, `lea rbp, [rsp + 32]` and `movaps [rsp + 32], xmm6`. -/
def framedPrologue : List Op :=
  [.saveXmm xmm6 2, .setFrame rbp 2, .allocSmall 6, .pushNonvol rbx, .pushNonvol rbp]

def framedInfo : PeUnwindInfo :=
  ⟨6, 5, 2, fun i => (encode .call framedPrologue fun _ => 0).getD i.toNat 0⟩

def framedCaller : Cpu :=
  ⟨⟨fun r => .ofNat 128 (r + 6), fun r => .ofNat 64 (r + 0x100)⟩, ⟨0x401000, 0, 0, 0x7ff8, 0⟩,
    fun _ => 0⟩

end Vcrtl.X64.Prologue

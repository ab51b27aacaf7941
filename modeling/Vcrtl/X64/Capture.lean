import Vcrtl.Lib.Amd64
import Vcrtl.Lib.Parts
import Vcrtl.X64.Directives

namespace Vcrtl.X64.Capture

open Lib.Memory Lib.Listing Lib.Amd64 Lib.Parts BugCheck EhStructs Unwinder UnwindCodes
open Prologue (Op Entry encode)
open Directives

/-- The functions of `capture.asm` that a throw falls through. -/
inductive Funclet
  | cxxThrowException
  | cxxEhApplyContext
  | cxxCallCatchHandler
  | cxxCallExceptionDestructor
  | cxxContinueAfterException
  deriving DecidableEq

/-- Where a line stands. Up to `.endprolog` the unwind codes of `_CxxThrowException` are not in
force. The other functions have no prologue. The lines of `__cxx_call_catch_handler` behind the
store into the machine frame are `redirected`: the store changes the callstack. -/
inductive Region
  | prolog
  | body (f : Funclet)
  | redirected
  deriving DecidableEq

def Region.funclet : Region → Funclet
  | .prolog => .cxxThrowException
  | .body f => f
  | .redirected => .cxxCallCatchHandler

inductive Callee
  | cxxDispatchException
  | nlgDispatch2
  | nlgReturn2
  | rcx
  | cxxDestroyException
  deriving DecidableEq

abbrev Code := Lines Region Instr Condition Callee

/-- Everything in `throw_fr` from the machine frame down to `rbx`. The frame has
its home area from `0x00`, `xmm6` from `0x20`, `rbx` from `0xc0`, the machine
frame from `0x100` and `catch_info` from `0x128` on. -/
def captureGpr : List Instr :=
  [.mov .r10 (.mem (.above .rsp 0)), .lea .r11 (.above .rsp 8), .sub .rsp 0x30,
    .mov .rax (.selector .ss), .push .rax, .push .r11, .pushfq,
    .mov .rax (.selector .cs), .push .rax, .push .r10,
    .push .r15, .push .r14, .push .r13, .push .r12, .push .rdi, .push .rsi, .push .rbp, .push .rbx,
    .sub .rsp 0xc0]

def captureXmm : List Instr :=
  [.lea .rax (.above .rsp 0x60), .movdqaStore (.above .rax (0x20 - 0x60)) 6,
    .movdqaStore (.above .rax (0x30 - 0x60)) 7, .movdqaStore (.above .rax (0x40 - 0x60)) 8,
    .movdqaStore (.above .rax (0x50 - 0x60)) 9, .movdqaStore (.above .rax (0x60 - 0x60)) 10,
    .movdqaStore (.above .rax (0x70 - 0x60)) 11, .movdqaStore (.above .rax (0x80 - 0x60)) 12,
    .movdqaStore (.above .rax (0x90 - 0x60)) 13, .movdqaStore (.above .rax (0xa0 - 0x60)) 14,
    .movdqaStore (.above .rax (0xb0 - 0x60)) 15]

def applyXmm : List Instr :=
  [.lea .rax (.above .rsp 0x60), .movdqaLoad 6 (.above .rax (0x20 - 0x60)),
    .movdqaLoad 7 (.above .rax (0x30 - 0x60)), .movdqaLoad 8 (.above .rax (0x40 - 0x60)),
    .movdqaLoad 9 (.above .rax (0x50 - 0x60)), .movdqaLoad 10 (.above .rax (0x60 - 0x60)),
    .movdqaLoad 11 (.above .rax (0x70 - 0x60)), .movdqaLoad 12 (.above .rax (0x80 - 0x60)),
    .movdqaLoad 13 (.above .rax (0x90 - 0x60)), .movdqaLoad 14 (.above .rax (0xa0 - 0x60)),
    .movdqaLoad 15 (.above .rax (0xb0 - 0x60))]

def applyGpr : List Instr :=
  [.lea .rax (.above .rax (0xd8 - 0x60)), .mov .rbx (.mem (.above .rax (0xc0 - 0xd8))),
    .mov .rbp (.mem (.above .rax (0xc8 - 0xd8))), .mov .rsi (.mem (.above .rax (0xd0 - 0xd8))),
    .mov .rdi (.mem (.above .rax (0xd8 - 0xd8))), .mov .r12 (.mem (.above .rax (0xe0 - 0xd8))),
    .mov .r13 (.mem (.above .rax (0xe8 - 0xd8))), .mov .r14 (.mem (.above .rax (0xf0 - 0xd8))),
    .mov .r15 (.mem (.above .rax (0xf8 - 0xd8)))]

def cxxThrowException : Code :=
  lines .prolog captureGpr ++ lines (.body .cxxThrowException) captureXmm ++
    [(.body .cxxThrowException, .instr (.lea .r8 (.above .rsp 0))),
      (.body .cxxThrowException, .call .cxxDispatchException),
      (.body .cxxThrowException, .instr (.mov .rcx (.reg .rax)))]

/-- The last instruction makes `throw_fr`, of `0x158` bytes, the `catch_fr` of
`0x78` bytes at its upper end. -/
def cxxEhApplyContext : Code :=
  lines (.body .cxxEhApplyContext) applyXmm ++ lines (.body .cxxEhApplyContext) applyGpr ++
    [(.body .cxxEhApplyContext, .instr (.lea .rsp (.above .rax (0x158 - 0x78 - 0xd8))))]

def cxxCallCatchHandler : Code :=
  [(.body .cxxCallCatchHandler, .instr (.mov .rdx (.mem (.above .rsp (0x48 + 0x10))))),
    (.body .cxxCallCatchHandler, .instr (.mov .r8 (.imm 1))),
    (.body .cxxCallCatchHandler, .call .nlgDispatch2),
    (.body .cxxCallCatchHandler, .call .rcx),
    (.body .cxxCallCatchHandler, .call .nlgReturn2),
    (.body .cxxCallCatchHandler, .instr (.cmp .rax 1)),
    (.body .cxxCallCatchHandler, .skip .above 1),
    (.body .cxxCallCatchHandler, .instr (.mov .rax (.mem (.word .rsp 0x48 .rax)))),
    (.body .cxxCallCatchHandler, .instr (.store (.above .rsp 0x20) .rax)),
    (.redirected, .instr (.mov .rcx (.reg .rax))),
    (.redirected, .instr (.mov .rdx (.mem (.above .rsp (0x48 + 0x10))))),
    (.redirected, .instr (.mov .r8 (.imm 2))),
    (.redirected, .call .nlgDispatch2)]

def cxxCallExceptionDestructor : Code :=
  [(.body .cxxCallExceptionDestructor, .instr (.lea .rcx (.above .rsp 0x48))),
    (.body .cxxCallExceptionDestructor, .call .cxxDestroyException),
    (.body .cxxCallExceptionDestructor, .instr (.add .rsp 0x20))]

def cxxContinueAfterException : Code :=
  [(.body .cxxContinueAfterException, .instr .iretq)]

def listing : Code :=
  cxxThrowException ++ cxxEhApplyContext ++ cxxCallCatchHandler ++ cxxCallExceptionDestructor ++
    cxxContinueAfterException

/-- The directives of the functions, the last one first. -/
def directives : Funclet → List Op
  | .cxxThrowException => .allocLarge 0x18 :: (List.replicate 13 (.allocSmall 0) ++ [.allocSmall 5])
  | .cxxEhApplyContext =>
    (List.finRange 10).reverse.map (fun r => .saveXmm r (2 + .ofNat 16 r)) ++
      .allocLarge 0x18 :: (List.finRange 8).map .pushNonvol
  | .cxxCallCatchHandler | .cxxCallExceptionDestructor => [.allocSmall 3]
  | .cxxContinueAfterException => []

def entry : Funclet → Entry
  | .cxxThrowException => .call
  | .cxxEhApplyContext | .cxxCallCatchHandler | .cxxCallExceptionDestructor
  | .cxxContinueAfterException => .machineFrame 0 none

def unwindWords (offsets : Nat → BitVec 8) (f : Funclet) : List (BitVec 16) :=
  encode (entry f) (directives f) offsets

/-- The unwind info of a function, whose offsets in the prologue are up to the assembler. -/
def unwindInfo (offsets : Nat → BitVec 8) (f : Funclet) : PeUnwindInfo :=
  infoOf 0 0 (unwindWords offsets f)

def gprReg (r : Fin 8) : Reg := [Reg.rbx, .rbp, .rsi, .rdi, .r12, .r13, .r14, .r15].getD r .rbx

def xmmReg (r : Fin 10) : Fin 16 := ⟨r + 6, by omega⟩

def context (s : Cpu) : FrameWalkContext := ⟨fun r => s.xmm (xmmReg r), fun r => s.reg (gprReg r)⟩

def contextAt (m : Mem 64) (p : Ptr) : FrameWalkContext where
  xmm r := read128 m (slot p (16 * r))
  gpr r := readWord m (slot p (0xa0 + 8 * r))

def machFrameAt (m : Mem 64) (p : Ptr) : MachFrame :=
  ⟨readWord m p, readWord m (slot p 8), readWord m (slot p 16), readWord m (slot p 24),
    readWord m (slot p 32)⟩

structure Caller where
  ctx : FrameWalkContext
  rip : Ptr
  rsp : Ptr

/-- What the unwinder makes of a state of the machine in the body of a function. -/
def callerOf (offsets : Nat → BitVec 8) (f : Funclet) (m : Mem 64) (s : Cpu) : Exec Caller := do
  let (ctx, mach) ← unwind (unwindInfo offsets f) m (context s)
    ⟨s.rip, (s.selector .cs).setWidth 64, s.rflags, s.reg .rsp, (s.selector .ss).setWidth 64⟩
  return ⟨ctx, mach.rip, mach.rsp⟩

variable {offsets : Nat → BitVec 8} {m : Mem 64} {s : Cpu} {f : Funclet}

theorem unwindWords_length (f : Funclet) : (unwindWords offsets f).length < 256 := by
  rw [unwindWords, length_encode]
  cases f <;> decide

theorem unwind_funclet (f : Funclet) (m : Mem 64) (ctx : FrameWalkContext) (mach : MachFrame) :
    unwind (unwindInfo offsets f) m ctx mach = .ok (finish m
      (runAll m ((directives f).map undo ++ undoEntry (entry f)) ⟨ctx, mach, false⟩)) := by
  apply unwind_run
  rw [unwindInfo, (written_infoOf 0 0 (unwindWords_length f)).executed_eq whole_encode]
  apply codes_encode
  intro r d h
  exact absurd h (by cases f <;> simp [directives])

theorem callerOf_throw : callerOf offsets .cxxThrowException m s =
    .ok ⟨context s, readWord m (slot (s.reg .rsp) 0x158), slot (s.reg .rsp) 0x160⟩ := by
  rw [callerOf, unwind_funclet]
  simp [directives, entry, undoEntry, undo, runAll, Undo.run, Walk.setRsp, finish, slot,
    BitVec.add_assoc, bind, Except.bind, pure, Except.pure]

theorem callerOf_catch (hf : f = .cxxCallCatchHandler ∨ f = .cxxCallExceptionDestructor) :
    callerOf offsets f m s = .ok ⟨context s, readWord m (slot (s.reg .rsp) 0x20),
      readWord m (slot (s.reg .rsp) 0x38)⟩ := by
  rw [callerOf, unwind_funclet]
  obtain rfl | rfl := hf <;>
    simp [directives, entry, undoEntry, undo, runAll, Undo.run, Walk.setRsp, finish, slot,
      BitVec.add_assoc, bind, Except.bind, pure, Except.pure]

theorem callerOf_continue : callerOf offsets .cxxContinueAfterException m s =
    .ok ⟨context s, readWord m (s.reg .rsp), readWord m (slot (s.reg .rsp) 0x18)⟩ := by
  rw [callerOf, unwind_funclet]
  simp [directives, entry, undoEntry, runAll, Undo.run, finish, slot, bind, Except.bind, pure,
    Except.pure]

theorem contextAt_slot {b : Ptr} {i : Nat} : contextAt m (slot b i) =
    ⟨fun r => read128 m (slot b (i + 16 * r)),
      fun r => readWord m (slot b (i + (0xa0 + 8 * r)))⟩ := by
  simp only [contextAt, slot_slot]

theorem machFrameAt_slot {b : Ptr} {i : Nat} : machFrameAt m (slot b i) =
    ⟨readWord m (slot b i), readWord m (slot b (i + 8)), readWord m (slot b (i + 16)),
      readWord m (slot b (i + 24)), readWord m (slot b (i + 32))⟩ := by
  simp only [machFrameAt, slot_slot]

theorem contextAt_same {m' : Mem 64} {b : Ptr} {i j n : Nat} (h : Same m m' (slot b i) n)
    (hi : i ≤ j) (hn : j + 0xe0 ≤ i + n) : contextAt m' (slot b j) = contextAt m (slot b j) := by
  simp only [contextAt_slot, FrameWalkContext.mk.injEq]
  refine ⟨funext fun r => ?_, funext fun r => ?_⟩
  · have hlt := r.isLt
    exact (h.within (by omega) (by omega)).read128
  · have hlt := r.isLt
    exact (h.within (by omega) (by omega)).readWord

theorem machFrameAt_same {m' : Mem 64} {b : Ptr} {i j n : Nat} (h : Same m m' (slot b i) n)
    (hi : i ≤ j) (hn : j + 0x28 ≤ i + n) :
    machFrameAt m' (slot b j) = machFrameAt m (slot b j) := by
  have hword (k : Nat) (hk : i ≤ k) (hkn : k + 8 ≤ i + n) :
      readWord m' (slot b k) = readWord m (slot b k) := (h.within hk hkn).readWord
  simp only [machFrameAt_slot]
  rw [hword j hi (by omega), hword (j + 8) (by omega) (by omega),
    hword (j + 16) (by omega) (by omega), hword (j + 24) (by omega) (by omega),
    hword (j + 32) (by omega) (by omega)]

theorem context_setReg {r : Reg} {v : BitVec 64} (h : ∀ q, gprReg q ≠ r) :
    context (s.setReg r v) = context s := by
  rw [context, context]
  congr 1
  funext q
  exact reg_setReg_of_ne (h q)

-- The prologue of `__cxx_eh_apply_context` undone: the context it saved, whole.
theorem runAll_context (n : Fin 10 → Ptr) (k : Ptr) (w : Walk) :
    runAll m (((List.finRange 10).reverse.map fun r => .loadXmm r (n r)) ++
        .advance k :: (List.finRange 8).map .pop) w =
      { w with
        ctx := ⟨fun r => read128 m (w.mach.rsp + n r),
          fun r => readWord m (w.mach.rsp + k + 8 * .ofNat 64 r)⟩
        mach := { w.mach with rsp := w.mach.rsp + k + 64 } } := by
  obtain ⟨xmm, hloads, -, hxmm⟩ := runAll_loadXmm (m := m) (s := w) (List.finRange 10).reverse n
  rw [runAll_append, hloads, runAll_cons]
  obtain ⟨gpr, hpops, -, hgpr⟩ := runAll_pop (m := m)
    (s := (Undo.advance k).run m { w with ctx := { w.ctx with xmm } }) (List.nodup_finRange 8)
  have hx : xmm = fun r => read128 m (w.mach.rsp + n r) := by
    funext r
    exact hxmm r (List.mem_reverse.mpr (List.mem_finRange r))
  have hg : gpr = fun r : Fin 8 => readWord m (w.mach.rsp + k + 8 * .ofNat 64 r) := by
    funext r
    have hr := hgpr r (by simp)
    simpa [Undo.run, Walk.setRsp] using hr
  rw [hpops, hx, hg, List.length_finRange]
  simp [Undo.run, Walk.setRsp]

theorem callerOf_apply : callerOf offsets .cxxEhApplyContext m s =
    .ok ⟨contextAt m (slot (s.reg .rsp) 0x20), readWord m (slot (s.reg .rsp) 0x100),
      readWord m (slot (s.reg .rsp) 0x118)⟩ := by
  have hundo : (directives .cxxEhApplyContext).map undo ++ undoEntry (entry .cxxEhApplyContext) =
      ((List.finRange 10).reverse.map
        (fun r => .loadXmm r ((2 + BitVec.ofNat 16 r).setWidth 64 * 16)) ++
          .advance 0xc0 :: (List.finRange 8).map .pop) ++ [.machineFrame 0] := by
    rw [directives, List.map_append, List.map_cons, List.map_map, List.map_map]
    rfl
  have hxmm : ∀ r : Fin 10, (2 + BitVec.ofNat 16 r).setWidth 64 * 16 =
      .ofNat 64 (0x20 + 16 * r) := by
    decide
  have hgpr : ∀ r : Fin 8, (0xc0 : BitVec 64) + 8 * .ofNat 64 r =
      .ofNat 64 (0x20 + (0xa0 + 8 * r)) := by
    decide
  rw [callerOf, unwind_funclet, hundo, contextAt_slot, runAll_append, runAll_context]
  simp only [BitVec.add_assoc, hxmm, hgpr, slot]
  simp [runAll, Undo.run, finish, BitVec.add_assoc, bind, Except.bind, pure, Except.pure]

end Vcrtl.X64.Capture

import Vcrtl.BugCheck
import Vcrtl.Lib.Memory
import Vcrtl.X64.EhStructs

namespace Vcrtl.X64.Unwinder

open Lib.Memory BugCheck EhStructs

inductive UnwindCode
  | pushNonvolatileReg
  | allocLarge
  | allocSmall
  | setFramePointer
  | saveNonvolatileReg
  | saveNonvolatileRegFar
  | epilog
  | unused07
  | saveXmm128
  | saveXmm128Far
  | pushMachineFrame
  deriving DecidableEq

def UnwindCode.ofBits (code : BitVec 4) : Option UnwindCode :=
  [pushNonvolatileReg, allocLarge, allocSmall, setFramePointer, saveNonvolatileReg,
    saveNonvolatileRegFar, epilog, unused07, saveXmm128, saveXmm128Far,
    pushMachineFrame][code.toNat]?

/-- `pe_unwind_info`. The entries and their operands are the same 16-bit words, and their indices
have 32 bits. -/
structure PeUnwindInfo where
  unwindCodeCount : BitVec 8
  frameReg : BitVec 4
  frameRegDisp : BitVec 4
  data : BitVec 32 → BitVec 16

structure PeUnwindEntry where
  prologOffset : BitVec 8
  code : BitVec 4
  info : BitVec 4

def PeUnwindInfo.word (u : PeUnwindInfo) (i : Nat) : BitVec 16 := u.data (.ofNat 32 i)

def PeUnwindInfo.entry (u : PeUnwindInfo) (i : Nat) : PeUnwindEntry :=
  ⟨(u.word i).extractLsb' 0 8, (u.word i).extractLsb' 8 4, (u.word i).extractLsb' 12 4⟩

def PeUnwindInfo.data32 (u : PeUnwindInfo) (i : Nat) : BitVec 32 := u.word (i + 1) ++ u.word i

def PeUnwindInfo.Ends (u : PeUnwindInfo) (i : Nat) : Prop := i % 2 ^ 32 = u.unwindCodeCount.toNat

instance (u : PeUnwindInfo) (i : Nat) : Decidable (u.Ends i) := inferInstanceAs (Decidable (_ = _))

/-- The nonvolatile registers: `xmm6` to `xmm15`, and `rbx`, `rbp`, `rsi`,
`rdi`, `r12` to `r15`. -/
structure FrameWalkContext where
  xmm : Fin 10 → BitVec 128
  gpr : Fin 8 → BitVec 64

structure MachFrame where
  rip : Ptr
  cs : BitVec 64
  eflags : BitVec 64
  rsp : Ptr
  ss : BitVec 64

def conv : List (Option (Fin 8)) :=
  [none, none, none, some 0, none, some 1, some 2, some 3,
    none, none, none, none, some 4, some 5, some 6, some 7]

def gp (idx : BitVec 4) : Exec (Fin 8) :=
  match conv[idx.toNat]? with
  | some (some r) => .ok r
  | _ => onBugCheck .corruptedEhUnwindData

def xmm (idx : BitVec 4) : Exec (Fin 10) :=
  if h : 6 ≤ idx.toNat then .ok ⟨idx.toNat - 6, by omega⟩ else onBugCheck .corruptedEhUnwindData

structure Walk where
  ctx : FrameWalkContext
  mach : MachFrame
  ripUpdated : Bool

def Walk.setGp (s : Walk) (r : Fin 8) (v : BitVec 64) : Walk :=
  { s with ctx := { s.ctx with gpr := Function.update s.ctx.gpr r v } }

def Walk.setXmm (s : Walk) (r : Fin 10) (v : BitVec 128) : Walk :=
  { s with ctx := { s.ctx with xmm := Function.update s.ctx.xmm r v } }

def Walk.setRsp (s : Walk) (rsp : Ptr) : Walk := { s with mach := { s.mach with rsp := rsp } }

/-- One turn of the loop over the unwind codes. The result has the index of the last word that
belongs to the code. Where the source casts one word to a reference to a 32-bit number, the
reference is to a copy of the one word. -/
def unwindStep (u : PeUnwindInfo) (m : Mem 64) (i : Nat) (s : Walk) : Exec (Nat × Walk) :=
  let entry := u.entry i
  let rsp := s.mach.rsp
  match UnwindCode.ofBits entry.code with
  | some .pushNonvolatileReg => do
    let r ← gp entry.info
    return (i, (s.setGp r (readWord m rsp)).setRsp (rsp + 8))
  | some .allocLarge =>
    if entry.info = 0 then
      .ok (i + 1, s.setRsp (rsp + (u.word (i + 1)).setWidth 64 * 8))
    else
      .ok (i + 2, s.setRsp (rsp + (u.word (i + 1)).setWidth 64))
  | some .allocSmall => .ok (i, s.setRsp (rsp + (entry.info.setWidth 64 * 8 + 8)))
  | some .setFramePointer => do
    let r ← gp u.frameReg
    return (i, s.setRsp (s.ctx.gpr r - u.frameRegDisp.setWidth 64 * 16))
  | some .saveNonvolatileReg => do
    let r ← gp entry.info
    return (i + 1, s.setGp r (readWord m (rsp + (u.word (i + 1)).setWidth 64 * 8)))
  | some .saveNonvolatileRegFar => do
    let r ← gp entry.info
    return (i + 2, s.setGp r (readWord m (rsp + (u.data32 i).setWidth 64)))
  | some .epilog => .ok (i + 1, s)
  | some .unused07 => .ok (i + 2, s)
  | some .saveXmm128 => do
    let r ← xmm entry.info
    return (i + 1, s.setXmm r (read128 m (rsp + (u.word (i + 1)).setWidth 64 * 16)))
  | some .saveXmm128Far => do
    let r ← xmm entry.info
    return (i + 2, s.setXmm r (read128 m (rsp + (u.word (i + 1)).setWidth 64)))
  | some .pushMachineFrame =>
    let rsp := rsp + entry.info.setWidth 64 * 8
    .ok (i, { s with
      mach := { s.mach with rip := readWord m rsp, rsp := readWord m (rsp + 24) }
      ripUpdated := true })
  | none => .ok (i, s)

/-- The loop ends when the index is the count. One that steps over the count reads on behind the
codes. A longer one than there are indices has met one of them twice. -/
def unwindLoop (u : PeUnwindInfo) (m : Mem 64) : Nat → Nat → Walk → Exec Walk
  | 0, i, s => if u.Ends i then .ok s else .error .hang
  | fuel + 1, i, s =>
    if u.Ends i then
      .ok s
    else do
      let (i, s) ← unwindStep u m i s
      unwindLoop u m fuel (i + 1) s

def unwind (u : PeUnwindInfo) (m : Mem 64) (ctx : FrameWalkContext) (mach : MachFrame) :
    Exec (FrameWalkContext × MachFrame) := do
  let s ← unwindLoop u m (2 ^ 32) 0 ⟨ctx, mach, false⟩
  if s.ripUpdated then
    return (s.ctx, s.mach)
  else
    return (s.ctx, { s.mach with rip := readWord m s.mach.rsp, rsp := s.mach.rsp + 8 })

theorem PeUnwindInfo.ends_count {u : PeUnwindInfo} {i : Nat} (h : u.unwindCodeCount.toNat = i) :
    u.Ends i := by
  have hlt := u.unwindCodeCount.isLt
  rw [Ends, Nat.mod_eq_of_lt (by omega), h]

theorem PeUnwindInfo.not_ends {u : PeUnwindInfo} {i : Nat} (h : i < u.unwindCodeCount.toNat) :
    ¬ u.Ends i := by
  have hlt := u.unwindCodeCount.isLt
  rw [Ends, Nat.mod_eq_of_lt (by omega)]
  omega

end Vcrtl.X64.Unwinder

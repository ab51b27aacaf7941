import Vcrtl.CatchVariable
import Vcrtl.X64.CatchFrame

namespace Vcrtl.X64.DispatcherContext

open Lib.Memory BugCheck EhStructs Throw CatchFrame CatchVariable

/-- What no handler changes: the program's code, the image, whose tables are
read-only, and the catch infos on the stack. -/
structure Env where
  code : Code 64
  imageBase : Ptr
  image : Mem 64
  infoAt : InfoAt

def bareEnv : Env := ⟨fun _ m => m, 0x400000, fun _ => 0, fun _ => none⟩

/-- What a dispatch changes: the throw frame's catch info, the handler it found
and the program. -/
structure Dispatch where
  catchInfo : CatchInfo
  handler : Ptr
  world : World 64

def makeRva (ptr base : Ptr) : Exec Rva := do
  verify ((ptr - base).toNat ≤ 0xffffffff)
  return (ptr - base).setWidth 32

/-- The members of `fh3_fn_ctx_t` in `unwind_context`. The state comes first,
and it is the only one under `__CxxFrameHandler4`. -/
def contextState (c : BitVec 64) : Int := (c.extractLsb' 0 32).toInt

def contextHomeBlockIndex (c : BitVec 64) : Int := (c.extractLsb' 32 32).toInt

def setContextState (c : BitVec 64) (state : Int) : BitVec 64 :=
  c.extractLsb' 32 32 ++ BitVec.ofInt 32 state

def setContextHomeBlockIndex (c : BitVec 64) (index : Int) : BitVec 64 :=
  BitVec.ofInt 32 index ++ c.extractLsb' 0 32

/-- The throw info a handler search goes on with: the one it has, or the one it
finds with a probe. -/
def probeUnless (infoAt : InfoAt) (frames : List Frame) (throwInfo : Option ThrowInfo)
    (ci : CatchInfo) : Exec (CatchInfo × Option ThrowInfo) :=
  if throwInfo.isNone then do
    let ci ← probeForExceptionObject frames ci
    let throwInfo ← ci.getThrowInfo infoAt
    return (ci, throwInfo)
  else
    .ok (ci, throwInfo)

structure Selection where
  dispatch : Dispatch
  primaryFramePtr : Ptr
  state : Int
  targetState : Int

theorem makeRva_offset (base : Ptr) (offset : Rva) :
    makeRva (displace base offset) base = .ok offset := by
  have hsub : displace base offset - base = offset.setWidth 64 := by
    rw [displace, BitVec.add_comm, BitVec.add_sub_cancel]
  have hle : (displace base offset - base).toNat ≤ 0xffffffff := by
    have := offset.isLt
    rw [hsub, BitVec.toNat_setWidth]
    omega
  rw [makeRva, verify, if_pos hle, hsub]
  change Except.ok ((offset.setWidth 64).setWidth 32) = .ok offset
  rw [BitVec.setWidth_setWidth_of_le offset (by decide), BitVec.setWidth_eq]

theorem contextState_set (c : BitVec 64) {state : Int} (hlow : -2 ^ 31 ≤ state)
    (hhigh : state < 2 ^ 31) : contextState (setContextState c state) = state := by
  rw [contextState, setContextState, BitVec.extractLsb'_append_eq_right]
  exact BitVec.toInt_ofInt_eq_self (by decide) hlow hhigh

theorem probeUnless_link {infoAt : InfoAt} {frames : List Frame} {throwInfo : Option ThrowInfo}
    {ci : CatchInfo} {x : CatchInfo × Option ThrowInfo}
    (h : probeUnless infoAt frames throwInfo ci = .ok x) :
    ∃ link, x.1 = { ci with exceptionObjectOrLink := link } := by
  rw [probeUnless] at h
  split at h
  · simp only [bind_ok, pure_ok] at h
    obtain ⟨ci', hprobe, throwInfo', -, rfl⟩ := h
    exact probe_link hprobe
  · cases h
    exact ⟨_, rfl⟩

end Vcrtl.X64.DispatcherContext

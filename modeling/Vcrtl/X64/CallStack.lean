import Vcrtl.X64.FailStop
import Vcrtl.X64.Restore

namespace Vcrtl.X64.CallStack

open Lib.Memory BugCheck EhStructs Unwinder FunctionTable
open Prologue (Entry Op Describes FrameSaved Undoable Kept)
open Restore (unwind_restores)
open FailStop (unwindInfoAt FrameHandler executeHandler flagsAt)

/-- A function that was entered and has not returned: its caller when it was entered, and
what it has done before its body. -/
structure Activation where
  caller : Prologue.Cpu
  entry : Entry
  ops : List Op
  offsets : Nat → BitVec 8

def Activation.saves (a : Activation) : List (Store 64) := Prologue.stores a.entry a.caller a.ops

def Activation.back (a : Activation) (x : FrameWalkContext × MachFrame) :
    FrameWalkContext × MachFrame :=
  (a.caller.ctx, { x.2 with rip := a.caller.mach.rip, rsp := a.caller.mach.rsp })

/-- The function table describes the function that the registers are in, by codes that the unwinder
can undo, and what the function has saved is still there. -/
structure Activation.Stands (pdata : FrameWalkPdata) (image m : Mem 64) (a : Activation)
    (ctx : FrameWalkContext) (mach : MachFrame) : Prop where
  inside : pdata.Inside mach.rip
  describes : ∃ (i : Nat) (fn : PeFunction), pdata.functions[i]? = some fn ∧
    fn.Covers ((mach.rip - pdata.imageBase).setWidth 32) ∧
    Describes (unwindInfoAt image (displace pdata.imageBase fn.unwindInfo)) a.entry a.ops a.offsets
  frameSaved : FrameSaved a.ops
  undoable : Undoable a.ops
  kept : Kept a.entry a.caller a.ops ⟨ctx, mach, m⟩

/-- Activations from the innermost outwards. -/
def Standing (pdata : FrameWalkPdata) (image m : Mem 64) :
    List Activation → FrameWalkContext → MachFrame → Prop
  | [], _, _ => True
  | a :: rest, ctx, mach => a.Stands pdata image m ctx mach ∧
    Standing pdata image m rest a.caller.ctx a.caller.mach

def savesOf (as : List Activation) : List (Store 64) := as.flatMap Activation.saves

section

variable {pdata : FrameWalkPdata} {image m m' : Mem 64} {a : Activation} {as : List Activation}
  {ctx : FrameWalkContext} {mach mach' : MachFrame} {u : PeUnwindInfo}

theorem Activation.Stands.congr (h : a.Stands pdata image m ctx mach) (hrip : mach'.rip = mach.rip)
    (hrsp : mach'.rsp = mach.rsp) (hm : Untouched m' a.saves) :
    a.Stands pdata image m' ctx mach' := by
  refine ⟨?_, ?_, h.frameSaved, h.undoable, ?_⟩
  · rw [hrip]
    exact h.inside
  · rw [hrip]
    exact h.describes
  · exact ⟨hrsp.trans h.kept.rsp, h.kept.gpr, h.kept.xmm, hm⟩

theorem Activation.Stands.found (h : a.Stands pdata image m ctx mach)
    (hsorted : Sorted pdata.functions) {i : Nat} {fn : PeFunction}
    (hfind : pdata.findFunctionEntry mach.rip = .ok (some i))
    (hfn : pdata.functions[i]? = some fn) :
    Describes (unwindInfoAt image (displace pdata.imageBase fn.unwindInfo)) a.entry a.ops
      a.offsets := by
  obtain ⟨j, gn, hgn, hcovers, hdescribes⟩ := h.describes
  rw [findFunctionEntry_bisect h.inside, Except.ok.injEq] at hfind
  obtain ⟨-, hi⟩ := Lib.Bisect.bisect_found hfind
  obtain rfl := hsorted.covers_inj hfn hgn ((side_eq hfn).mp hi.2) hcovers
  obtain rfl := Option.some.inj (hfn.symm.trans hgn)
  exact hdescribes

theorem Standing.congr (h : Standing pdata image m as ctx mach) (hrip : mach'.rip = mach.rip)
    (hrsp : mach'.rsp = mach.rsp) (hm : Untouched m' (savesOf as)) :
    Standing pdata image m' as ctx mach' := by
  induction as generalizing ctx mach mach' with
  | nil => trivial
  | cons a rest ih =>
    obtain ⟨hfirst, hrest⟩ := List.forall_mem_append.mp hm
    exact ⟨h.1.congr hrip hrsp hfirst, ih h.2 rfl rfl hrest⟩

theorem Standing.take (h : Standing pdata image m as ctx mach) (n : Nat) :
    Standing pdata image m (as.take n) ctx mach := by
  induction n generalizing as ctx mach with
  | zero => trivial
  | succ n ih =>
    cases as with
    | nil => trivial
    | cons a rest => exact ⟨h.1, ih h.2⟩

theorem Standing.untouched (h : Standing pdata image m as ctx mach) : Untouched m (savesOf as) := by
  induction as generalizing ctx mach with
  | nil => simp [savesOf, Untouched]
  | cons a rest ih => exact List.forall_mem_append.mpr ⟨h.1.kept.mem, ih h.2⟩

theorem Standing.drop {passed rest : List Activation}
    (h : Standing pdata image m (passed ++ rest) ctx mach) :
    Standing pdata image m rest (passed.foldl (fun x a => a.back x) (ctx, mach)).1
      (passed.foldl (fun x a => a.back x) (ctx, mach)).2 := by
  induction passed generalizing ctx mach with
  | nil => exact h
  | cons a passed ih => exact ih (h.2.congr rfl rfl (List.forall_mem_append.mp h.untouched).2)

def SameSystem (mach mach' : MachFrame) : Prop :=
  mach'.cs = mach.cs ∧ mach'.eflags = mach.eflags ∧ mach'.ss = mach.ss

theorem unwindStep_system {i j : Nat} {s s' : Walk} (h : unwindStep u m i s = .ok (j, s')) :
    SameSystem s.mach s'.mach := by
  simp only [unwindStep] at h
  cases hcode : UnwindCode.ofBits (u.entry i).code with
  | none =>
    rw [hcode] at h
    cases h
    exact ⟨rfl, rfl, rfl⟩
  | some code =>
    rw [hcode] at h
    cases code with
    | pushNonvolatileReg | setFramePointer | saveNonvolatileReg | saveNonvolatileRegFar
    | saveXmm128 | saveXmm128Far =>
      obtain ⟨r, -, h⟩ := bind_ok.mp h
      cases h
      exact ⟨rfl, rfl, rfl⟩
    | allocLarge =>
      dsimp only at h
      split at h <;>
      · cases h
        exact ⟨rfl, rfl, rfl⟩
    | allocSmall | epilog | unused07 | pushMachineFrame =>
      cases h
      exact ⟨rfl, rfl, rfl⟩

theorem unwindLoop_system {fuel i : Nat} {s s' : Walk} (h : unwindLoop u m fuel i s = .ok s') :
    SameSystem s.mach s'.mach := by
  induction fuel generalizing i s with
  | zero =>
    rw [unwindLoop] at h
    split at h
    · cases h
      exact ⟨rfl, rfl, rfl⟩
    · cases h
  | succ fuel ih =>
    rw [unwindLoop] at h
    split at h
    · cases h
      exact ⟨rfl, rfl, rfl⟩
    · obtain ⟨⟨j, s₁⟩, hstep, hloop⟩ := bind_ok.mp h
      obtain ⟨hcs, hflags, hss⟩ := unwindStep_system hstep
      obtain ⟨hcs', hflags', hss'⟩ := ih hloop
      exact ⟨hcs'.trans hcs, hflags'.trans hflags, hss'.trans hss⟩

theorem unwind_system {x : FrameWalkContext × MachFrame} (h : unwind u m ctx mach = .ok x) :
    SameSystem mach x.2 := by
  rw [UnwindCodes.unwind_finish, map_ok] at h
  obtain ⟨s, hloop, rfl⟩ := h
  obtain ⟨hcs, hflags, hss⟩ := unwindLoop_system hloop
  rw [UnwindCodes.finish]
  split <;> exact ⟨hcs, hflags, hss⟩

theorem executeHandler_ok {σ : Type} {handlers : Ptr → FrameHandler σ} {d d' : σ} {info : Ptr}
    (h : executeHandler pdata image handlers ctx mach d = .ok (info, d')) :
    ∃ i fn, pdata.findFunctionEntry mach.rip = .ok (some i) ∧ pdata.functions[i]? = some fn ∧
      info = displace pdata.imageBase fn.unwindInfo ∧
      (d' = d ∨ ∃ handler framePtr extraData disposition,
        handlers handler framePtr fn extraData d = .ok (disposition, d')) := by
  obtain ⟨found, hfind, h⟩ := bind_ok.mp h
  cases found with
  | none => cases h
  | some i =>
    obtain ⟨fn, hfn, h⟩ := bind_ok.mp h
    obtain ⟨-, hget⟩ := Algorithm.elementAt_eq_ok.mp hfn
    rw [Int.toNat_natCast] at hget
    refine ⟨i, fn, hfind, hget, ?_⟩
    dsimp only at h
    split at h
    · simp only [bind_ok] at h
      obtain ⟨-, -, framePtr, -, ⟨disposition, d⟩, hhandler, -, -, h⟩ := h
      cases h
      exact ⟨rfl, .inr ⟨_, _, _, _, hhandler⟩⟩
    · cases h
      exact ⟨rfl, .inl rfl⟩

theorem unwind_caller (h : a.Stands pdata image m ctx mach)
    (hu : Describes u a.entry a.ops a.offsets) :
    unwind u m ctx mach = .ok (a.back (ctx, mach)) := by
  obtain ⟨back, hback, hrip, hrsp⟩ := unwind_restores hu h.undoable h.frameSaved h.kept
  obtain ⟨hcs, hflags, hss⟩ := unwind_system hback
  dsimp only at hback hcs hflags hss
  simp only [hback, Activation.back, ← hrip, ← hrsp, ← hcs, ← hflags, ← hss]

end

end Vcrtl.X64.CallStack

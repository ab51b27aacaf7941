import Vcrtl.Lib.Parts
import Vcrtl.X64.Restore

namespace Vcrtl.X64.Shortfall

open Lib.Memory EhStructs Unwinder Prologue UnwindCodes Directives Restore
open Lib.Parts (Same)

/-- What a function gets from its caller and stores in its frame. -/
inductive Place
  | gp (r : Fin 8)
  | xmm (r : Fin 10)
  | rip
  deriving DecidableEq

def Place.value (ctx : FrameWalkContext) (ip : Ptr) : Place → Nat
  | gp r => (ctx.gpr r).toNat
  | xmm r => (ctx.xmm r).toNat
  | rip => ip.toNat

def Place.load (m : Mem 64) (p : Ptr) : Place → Nat
  | gp _ | rip => (readWord m p).toNat
  | xmm _ => (read128 m p).toNat

def Place.set (caller : Cpu) (v : Nat) : Place → Cpu
  | gp r => { caller with
      ctx := { caller.ctx with gpr := Function.update caller.ctx.gpr r (.ofNat 64 v) } }
  | xmm r => { caller with
      ctx := { caller.ctx with xmm := Function.update caller.ctx.xmm r (.ofNat 128 v) } }
  | rip => { caller with mach := { caller.mach with rip := .ofNat 64 v } }

structure LeftOut (k d : Nat) : Prop where
  dvd : 2 ^ 16 ∣ d
  le : d ≤ k * 2 ^ 32

/-- Two machines that differ in one place only, and in memory only in its slot. -/
structure Alike (place : Place) (p : Ptr) (s t : Cpu) : Prop where
  rsp : s.mach.rsp = t.mach.rsp
  gpr : ∀ r, place ≠ .gp r → s.ctx.gpr r = t.ctx.gpr r
  xmm : ∀ r, place ≠ .xmm r → s.ctx.xmm r = t.ctx.xmm r
  mem : ∀ a, (∀ j < 16, a ≠ p + .ofNat 64 j) → s.mem a = t.mem a

section

variable {u : PeUnwindInfo} {m m' : Mem 64} {e : Entry} {caller s t : Cpu} {op : Op}
  {pre post ops : List Op} {w : Walk} {short : Nat} {offsets : Nat → BitVec 8} {place : Place}
  {p a : Ptr}

def extent (x : Store 64) : Ptr × Nat := (x.1, x.2.length)

theorem Alike.same {d : Nat} (h : Alike place p s t) (hpos : 16 ≤ d) (hlt : d < 2 ^ 63) :
    Same s.mem t.mem (p - .ofNat 64 d) 16 := by
  intro i hi
  apply (h.mem _ _).symm
  intro j hj heq
  have hnat := congrArg BitVec.toNat heq
  simp only [BitVec.toNat_add, BitVec.toNat_sub, BitVec.toNat_ofNat] at hnat
  omega

theorem LeftOut.far {k d : Nat} (h : LeftOut k d) (hk : k ≤ 256) (hd : d ≠ 0) :
    16 ≤ d ∧ d < 2 ^ 63 := by
  have hle := h.le
  have hdvd := Nat.le_of_dvd (Nat.pos_of_ne_zero hd) h.dvd
  omega

def back (e : Entry) (ops : List Op) (caller : Cpu) (place : Place) (v : Nat) :
    FrameWalkContext × MachFrame :=
  let s := run e (place.set caller v) ops
  finish s.mem (runAll s.mem (undoEntry e) (runAll s.mem (ops.map undo) ⟨s.ctx, s.mach, false⟩))

end

end Vcrtl.X64.Shortfall

import Vcrtl.X64.DispatchLoop
import Vcrtl.X64.Resume

namespace Vcrtl.X64.ThrowLands

open Lib.Memory Lib.Listing Lib.Amd64 Lib.Parts BugCheck EhStructs Unwinder FunctionTable
open Capture Transfer ThrowFrame Resume CallStack DispatchLoop

variable {σ : Type}

/-- A call of `__cxx_dispatch_exception` that returns. The loop worked on the throw frame. -/
structure Dispatches (p : Program σ) (fuel : Nat) (init : Cpu → σ) (s t : Cpu) : Prop where
  conforms : Conforms s t
  returnAddress : Same s.mem t.mem (slot (s.reg .rsp) 0x158) 8
  found : ∃ tf, dispatchLoop p fuel ⟨contextAt s.mem (slot (s.reg .r8) 0x20),
      machFrameAt s.mem (slot (s.reg .r8) 0x100), init s⟩ = .ok tf ∧
    contextAt t.mem (slot (s.reg .r8) 0x20) = tf.ctx ∧
    machFrameAt t.mem (slot (s.reg .r8) 0x100) = tf.mach ∧ t.reg .rax = p.handler tf.state ∧
    Same (p.mem tf.state) t.mem (slot (s.reg .rsp) 0x158) (2 ^ 63 - 0x158)

def thrownMach (s : Cpu) : MachFrame :=
  ⟨(thrower s).rip, (s.selector .cs).setWidth 64, capturedFlags s, (thrower s).rsp,
    (s.selector .ss).setWidth 64⟩

def callerOfAll (s : Cpu) (passed : List Activation) : FrameWalkContext × MachFrame :=
  passed.foldl (fun x a => a.back x) (context s, thrownMach s)

/-- What is saved lies above the throw frame. -/
def Beyond (s : Cpu) (xs : List (Store 64)) : Prop :=
  ∀ x ∈ xs, ∀ i < x.2.length, 0x158 ≤ (x.1 + .ofNat 64 i - bottom s).toNat ∧
    (x.1 + .ofNat 64 i - bottom s).toNat < 2 ^ 63

section

variable {p : Program σ} {as : List Activation} {env : Env} {s t u : Cpu} {m m' : Mem 64}
  {i n : Nat} {xs : List (Store 64)} {calls : List (Called Callee Cpu)} {code : Code}

theorem untouched_beyond (h : Untouched m xs) (hbeyond : Beyond s xs)
    (hmem : Same m m' (slot (bottom s) i) n) (hi : i ≤ 0x158) (hn : 2 ^ 63 ≤ i + n) :
    Untouched m' xs := by
  intro x hx
  refine holds_congr (fun k hk => ?_) (h x hx)
  obtain ⟨hlow, hhigh⟩ := hbeyond x hx k hk
  generalize x.1 + .ofNat 64 k = q at *
  have hsum : slot (bottom s) i + .ofNat 64 ((q - bottom s).toNat - i) = q := by
    rw [slot_add, slot]
    have hadd : i + ((q - bottom s).toNat - i) = (q - bottom s).toNat := by
      omega
    rw [hadd, BitVec.ofNat_toNat, BitVec.setWidth_eq, BitVec.add_comm, BitVec.sub_add_cancel]
  have hsame := hmem ((q - bottom s).toNat - i) (by omega)
  rwa [hsum] at hsame

theorem captured_gets {d : Called Callee Cpu} (henv : env.Abides)
    (haligned : (s.reg .rsp).toNat % 16 = 8) (hcallee : d.callee = .cxxDispatchException)
    (hgets : Gets (machine env.returns) listing s (d :: calls) code t) :
    Captured s d.before ∧ env.dispatch d.before d.after := by
  have hgets' : Gets (machine env.returns) listing s ([] ++ d :: calls) code t := hgets
  obtain ⟨f, rest, hto, hreturns, -⟩ := hgets'.split
  have hcall := ((safe_listing (fun _ => 0) henv haligned).inv _ _ _ hto
    (List.cons_ne_nil _ _)).call _ _ _ rfl
  rw [hcallee] at hcall hreturns
  exact ⟨hcall.2, hreturns⟩

theorem system_callerOfAll (s : Cpu) (passed : List Activation) :
    SameSystem (thrownMach s) (callerOfAll s passed).2 := by
  rw [callerOfAll]
  generalize context s = ctx
  generalize hmach : thrownMach s = mach
  clear hmach
  suffices h : ∀ x : FrameWalkContext × MachFrame,
      SameSystem x.2 (passed.foldl (fun x a => a.back x) x).2 from h (ctx, mach)
  induction passed with
  | nil => exact fun x => ⟨rfl, rfl, rfl⟩
  | cons a rest ih =>
    intro x
    exact ih (a.back x)

/-- `__cxx_call_catch_handler` as a function on the stack: a machine frame leads to the catcher. -/
def catchActivation (s : Cpu) (passed : List Activation) (offsets : Nat → BitVec 8) :
    Activation where
  caller := ⟨(callerOfAll s passed).1, (callerOfAll s passed).2, s.mem⟩
  entry := .machineFrame (slot (bottom s) 0x128) none
  ops := directives .cxxCallCatchHandler
  offsets := offsets

/-- The function table has what the assembler makes of the directives, for an address
in `__cxx_call_catch_handler`. -/
structure Catches (pdata : FrameWalkPdata) (image : Mem 64) (offsets : Nat → BitVec 8) (rip : Ptr) :
    Prop where
  inside : pdata.Inside rip
  describes : ∃ (i : Nat) (fn : PeFunction), pdata.functions[i]? = some fn ∧
    fn.Covers ((rip - pdata.imageBase).setWidth 32) ∧
    Prologue.Describes (FailStop.unwindInfoAt image (displace pdata.imageBase fn.unwindInfo))
      (entry .cxxCallCatchHandler) (directives .cxxCallCatchHandler) offsets

theorem holds_readWord64 (m : Mem 64) (q : Ptr) : Holds m q (bytesLE 8 (readWord m q).toNat) := by
  have hread : (readWord m q).toNat = readLE m q 8 := by
    rw [readWord, BitVec.toNat_ofNat]
    exact Nat.mod_eq_of_lt (readLE_lt m q 8)
  rw [hread, bytesLE_readLE]
  exact holds_readBytes m q 8

theorem untouched_machFrame {b : Ptr} {ctx : FrameWalkContext} {mach : MachFrame}
    (h : machFrameAt m (slot b 0x100) = mach) :
    Untouched m (Prologue.stores (.machineFrame (slot b 0x128) none) ⟨ctx, mach, m'⟩
      (directives .cxxCallCatchHandler)) := by
  have hword (i : Nat) (v : BitVec 64) (hi : 0x100 ≤ i ∧ i ≤ 0x120)
      (hv : readWord m (slot b i) = v) :
      Holds m (slot b 0x128 - .ofNat 64 (0x128 - i)) (bytesLE 8 v.toNat) := by
    rw [slot_sub (by omega), Nat.sub_sub_self (by omega), ← hv]
    exact holds_readWord64 m _
  subst h
  rw [machFrameAt_slot]
  intro x hx
  change x ∈ [_, _, _, _, _] at hx
  simp only [List.mem_cons, List.not_mem_nil, or_false] at hx
  obtain rfl | rfl | rfl | rfl | rfl := hx
  · exact hword 0x120 _ (by decide) rfl
  · exact hword 0x118 _ (by decide) rfl
  · exact hword 0x110 _ (by decide) rfl
  · exact hword 0x108 _ (by decide) rfl
  · exact hword 0x100 _ (by decide) rfl

theorem frame_redirected {b : Ptr} (rip rsp : Ptr) {ys : List Part}
    (hys : (ys.map extent).Pairwise Clear)
    (hinfo : ∀ e ∈ ys.map extent, 0x128 ≤ e.1 ∧ e.1 + e.2 ≤ 0x158) :
    ∃ m', contextAt m' (slot b 0x20) = contextAt m (slot b 0x20) ∧
      machFrameAt m' (slot b 0x100) =
        { machFrameAt m (slot b 0x100) with rip := rip, rsp := rsp } ∧
      (∀ y ∈ ys, Holds m' (slot b y.1) y.2) ∧ Same m m' (slot b 0x158) (2 ^ 64 - 0x158) := by
  generalize hxs : ((0x100, bytesLE 8 rip.toNat) : Part) :: (0x118, bytesLE 8 rsp.toNat) :: ys = xs
  have hextents : xs.map extent = (0x100, 8) :: (0x118, 8) :: ys.map extent := by
    rw [← hxs, List.map_cons, List.map_cons, extent, extent, length_bytesLE, length_bytesLE]
  have hspaced : Spaced 64 (xs.map extent) := by
    rw [hextents]
    refine ⟨?_, ?_⟩
    · simp only [List.pairwise_cons, List.forall_mem_cons]
      refine ⟨⟨by decide, fun e he => ?_⟩, fun e he => ?_, hys⟩ <;>
      · obtain ⟨hlow, -⟩ := hinfo e he
        exact .inl (by omega)
    · simp only [List.forall_mem_cons]
      refine ⟨by decide, by decide, fun e he => ?_⟩
      obtain ⟨-, hhigh⟩ := hinfo e he
      omega
  have hsame {j k : Nat} (h : Clear (j, k) (0x100, 8)) (h' : Clear (j, k) (0x118, 8))
      (hbeside : Clear (j, k) (0x128, 0x30)) (hj : j + k ≤ 2 ^ 64) :
      Same m (writeAll m (stores b xs)) (slot b j) k := by
    refine same_stores ?_ hj
    rw [hextents]
    simp only [List.forall_mem_cons]
    refine ⟨⟨h, by decide⟩, ⟨h', by decide⟩, fun e he => ?_⟩
    obtain ⟨hlow, hhigh⟩ := hinfo e he
    refine ⟨?_, by omega⟩
    simp only [Clear] at hbeside ⊢
    omega
  have hword {i : Nat} {v : BitVec 64} (hv : (i, bytesLE 8 v.toNat) ∈ xs) :
      readWord (writeAll m (stores b xs)) (slot b i) = v :=
    readWord_bytesLE (by decide) (holds_part hspaced hv)
  have hkept {j : Nat} (h : Clear (j, 8) (0x100, 8)) (h' : Clear (j, 8) (0x118, 8))
      (hbeside : Clear (j, 8) (0x128, 0x30)) (hj : j + 8 ≤ 2 ^ 64) :
      readWord (writeAll m (stores b xs)) (slot b j) = readWord m (slot b j) :=
    (hsame h h' hbeside hj).readWord
  refine ⟨writeAll m (stores b xs), ?_, ?_, fun y hy => ?_,
    hsame (by decide) (by decide) (by decide) (by decide)⟩
  · exact contextAt_same (hsame (k := 0xe0) (by decide) (by decide) (by decide) (by decide))
      (Nat.le_refl _) (Nat.le_refl _)
  · rw [machFrameAt_slot, machFrameAt_slot, hword (i := 0x100) (v := rip) (by simp [← hxs]),
      hword (i := 0x118) (v := rsp) (by simp [← hxs]), hkept (j := 0x100 + 8),
      hkept (j := 0x100 + 16), hkept (j := 0x100 + 32)] <;> decide
  · exact holds_part hspaced (by simp [← hxs, hy])

end

end Vcrtl.X64.ThrowLands

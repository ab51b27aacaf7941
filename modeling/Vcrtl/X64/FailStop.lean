import Vcrtl.Algorithm
import Vcrtl.X64.FrameBase
import Vcrtl.X64.FunctionTable
import Vcrtl.X64.UnwindCodes

namespace Vcrtl.X64.FailStop

open Lib.Memory BugCheck EhStructs CatchFrame Unwinder UnwindCodes Prologue FunctionTable

section

variable (image : Mem 64) (info : Ptr)

/-- The bytes of a `pe_unwind_info`. Its version and flags share the first one. -/
def unwindInfoAt : PeUnwindInfo where
  unwindCodeCount := image (info + 2)
  frameReg := (image (info + 3)).extractLsb' 0 4
  frameRegDisp := (image (info + 3)).extractLsb' 4 4
  data i := read16 image (info + 4 + 2 * i.setWidth 64)

def flagsAt : BitVec 5 := (image info).extractLsb' 3 5

/-- The info says only what the function has done since its parent's codes. -/
def Chained : Prop := flagsAt image info &&& 4 ≠ 0

instance : Decidable (Chained image info) := inferInstanceAs (Decidable (_ ≠ _))

end

/-- What a frame handler gets: the frame, the function's entry, the extra data
and what the dispatch has in its context besides. -/
abbrev FrameHandler (σ : Type) := Ptr → PeFunction → Ptr → σ → Exec (ExceptionDisposition × σ)

/-- `_execute_handler`, which looks at the info of the function that the
instruction pointer is in. -/
def executeHandler {σ : Type} (pdata : FrameWalkPdata) (image : Mem 64)
    (handlers : Ptr → FrameHandler σ) (cpuCtx : FrameWalkContext) (mach : MachFrame) (d : σ) :
    Exec (Ptr × σ) := do
  match ← pdata.findFunctionEntry mach.rip with
  | none => .error .fault
  | some i =>
    let fnent ← Algorithm.elementAt pdata.functions i
    let info := displace pdata.imageBase fnent.unwindInfo
    let unwindInfo := unwindInfoAt image info
    if flagsAt image info &&& 3 ≠ 0 then
      let unwindSlots := (unwindInfo.unwindCodeCount.setWidth 64 + 1) &&& ~~~1
      let data := info + 4
      let frameHandler := displace pdata.imageBase (read32 image (data + 2 * unwindSlots))
      verify (frameHandler ≠ null)
      let framePtr ← FrameBase.handlerFramePtr unwindInfo cpuCtx mach
      let (disposition, d) ←
        handlers frameHandler framePtr fnent (data + 2 * (unwindSlots + 2)) d
      verify (disposition = .cxxHandler)
      return (info, d)
    else
      return (info, d)

section

variable (u : PeUnwindInfo) (m : Mem 64)

inductive Turns : Nat → Walk → Nat → Walk → Prop
  | here (i s) : Turns i s i s
  | turn {i s j s₁ i' s'} (hi : ¬ u.Ends i) (hstep : unwindStep u m i s = .ok (j, s₁))
      (hrest : Turns (j + 1) s₁ i' s') : Turns i s i' s'

def Fits (i : Nat) : Prop :=
  UnwindCode.ofBits (u.entry i).code ≠ none ∧ i + operands (u.word i) < u.unwindCodeCount.toNat

/-- The unwinder goes over whole codes up to the end of the array, and they are all that the
function has done. -/
structure Consumes (chained : Prop) (ctx : FrameWalkContext) (mach : MachFrame) : Prop where
  turns : ∀ i s, Turns u m 0 ⟨ctx, mach, false⟩ i s → ¬ u.Ends i → Fits u i
  ends : ∃ s, Turns u m 0 ⟨ctx, mach, false⟩ u.unwindCodeCount.toNat s ∧
    unwind u m ctx mach = .ok (finish m s)
  complete : ¬ chained

def FailStops (chained : Prop) (ctx : FrameWalkContext) (mach : MachFrame) : Prop :=
  BugChecks (unwind u m ctx mach) ∨ Consumes u m chained ctx mach

def refused (frameReg : BitVec 4) (w : BitVec 16) : Bool :=
  match UnwindCode.ofBits (entryOf w).code with
  | some .pushNonvolatileReg | some .saveNonvolatileReg | some .saveNonvolatileRegFar =>
    !(gp (entryOf w).info).isOk
  | some .setFramePointer => !(gp frameReg).isOk
  | some .saveXmm128 | some .saveXmm128Far => !(Unwinder.xmm (entryOf w).info).isOk
  | _ => false

/-- The loop gets to a code with a refused register, maybe one that it takes words behind the array
for. -/
def Refuses : (fuel i : Nat) → Prop
  | 0, _ => False
  | fuel + 1, i => ¬ u.Ends i ∧
    (refused u.frameReg (u.word i) = true ∨ Refuses fuel (i + operands (u.word i) + 1))

/-- Whole codes behind `k` operands, and only codes that there are. -/
def Known : (k : Nat) → List (BitVec 16) → Prop
  | 0, [] => True
  | _ + 1, [] => False
  | k + 1, _ :: ws => Known k ws
  | 0, w :: ws => UnwindCode.ofBits (entryOf w).code ≠ none ∧ Known (operands w) ws

instance decidableKnown : (k : Nat) → (ws : List (BitVec 16)) → Decidable (Known k ws)
  | 0, [] => inferInstanceAs (Decidable True)
  | _ + 1, [] => inferInstanceAs (Decidable False)
  | k + 1, _ :: ws => decidableKnown k ws
  | 0, w :: ws => @instDecidableAnd _ _ _ (decidableKnown (operands w) ws)

def slots : List (BitVec 16) := (List.range' 0 u.unwindCodeCount.toNat).map u.word

end

variable {u : PeUnwindInfo} {m : Mem 64} {s s' : Walk} {i i' j k fuel : Nat} {w : BitVec 16}
  {ws : List (BitVec 16)} {chained : Prop} {ctx : FrameWalkContext} {mach : MachFrame}

theorem gp_cases (idx : BitVec 4) :
    (∃ r, gp idx = .ok r) ∨ gp idx = onBugCheck .corruptedEhUnwindData := by
  rw [gp]
  split
  · exact .inl ⟨_, rfl⟩
  · exact .inr rfl

theorem xmm_cases (idx : BitVec 4) :
    (∃ r, Unwinder.xmm idx = .ok r) ∨ Unwinder.xmm idx = onBugCheck .corruptedEhUnwindData := by
  by_cases h : 6 ≤ idx.toNat
  · exact .inl ⟨_, dif_pos h⟩
  · exact .inr (dif_neg h)

theorem restore_cases {α β : Type} {x : Exec α} {f : α → Exec β} {reason : BugCheckReason}
    (hx : (∃ r, x = .ok r) ∨ x = onBugCheck reason) (hf : ∀ r, ∃ y, f r = .ok y) :
    (!x.isOk) = true ∧ BugChecks (x >>= f) ∨ (!x.isOk) = false ∧ ∃ y, x >>= f = .ok y := by
  obtain ⟨r, rfl⟩ | rfl := hx
  · exact .inr ⟨rfl, hf r⟩
  · exact .inl ⟨rfl, reason, rfl⟩

theorem unwindStep_cases (u : PeUnwindInfo) (m : Mem 64) (i : Nat) (s : Walk) :
    refused u.frameReg (u.word i) = true ∧ BugChecks (unwindStep u m i s) ∨
      refused u.frameReg (u.word i) = false ∧
        ∃ s', unwindStep u m i s = .ok (i + operands (u.word i), s') := by
  suffices h : refused u.frameReg (u.word i) = true ∧ BugChecks (unwindStep u m i s) ∨
      refused u.frameReg (u.word i) = false ∧ ∃ x, unwindStep u m i s = .ok x by
    apply h.imp_right
    rintro ⟨hrefused, ⟨j, s'⟩, hstep⟩
    rw [unwindStep_index hstep] at hstep
    exact ⟨hrefused, s', hstep⟩
  have hentry : u.entry i = entryOf (u.word i) := rfl
  simp only [refused, unwindStep, hentry]
  cases UnwindCode.ofBits (entryOf (u.word i)).code with
  | none => exact .inr ⟨rfl, _, rfl⟩
  | some code =>
    cases code with
    | pushNonvolatileReg | saveNonvolatileReg | saveNonvolatileRegFar | setFramePointer =>
      apply restore_cases (gp_cases _)
      exact fun r => ⟨_, rfl⟩
    | saveXmm128 | saveXmm128Far =>
      apply restore_cases (xmm_cases _)
      exact fun r => ⟨_, rfl⟩
    | allocLarge =>
      refine .inr ⟨rfl, ?_⟩
      by_cases hinfo : (entryOf (u.word i)).info = 0
      · exact ⟨_, if_pos hinfo⟩
      · exact ⟨_, if_neg hinfo⟩
    | allocSmall | pushMachineFrame | epilog | unused07 => exact .inr ⟨rfl, _, rfl⟩

theorem unwindLoop_step (fuel : Nat) (hi : ¬ u.Ends i) (hstep : unwindStep u m i s = .ok (j, s')) :
    unwindLoop u m (fuel + 1) i s = unwindLoop u m fuel (j + 1) s' := by
  rw [unwindLoop, if_neg hi, hstep]
  rfl

theorem bugChecks_loop (u : PeUnwindInfo) (m : Mem 64) (fuel i : Nat) (s : Walk) :
    BugChecks (unwindLoop u m fuel i s) ↔ Refuses u fuel i := by
  induction fuel generalizing i s with
  | zero =>
    rw [unwindLoop, Refuses, iff_false]
    rintro ⟨reason, h⟩
    split at h <;> cases h
  | succ fuel ih =>
    rw [Refuses]
    by_cases hi : u.Ends i
    · rw [unwindLoop, if_pos hi]
      exact iff_of_false not_bugChecks_ok fun h => h.1 hi
    · rw [and_iff_right hi]
      obtain ⟨hrefused, reason, hbug⟩ | ⟨hrefused, s₁, hstep⟩ := unwindStep_cases u m i s
      · refine iff_of_true ⟨reason, ?_⟩ (.inl hrefused)
        rw [unwindLoop, if_neg hi, hbug]
        rfl
      · rw [unwindLoop_step _ hi hstep, ih, hrefused]
        simp only [Bool.false_eq_true, false_or]

theorem bugChecks_unwind : BugChecks (unwind u m ctx mach) ↔ Refuses u (2 ^ 32) 0 := by
  rw [← bugChecks_loop u m (2 ^ 32) 0 ⟨ctx, mach, false⟩]
  simp only [BugChecks, unwind_finish, map_error]

theorem Known.length_le (h : Known k ws) : k ≤ ws.length := by
  induction ws generalizing k with
  | nil =>
    cases k with
    | zero => exact Nat.le_refl _
    | succ k => cases h
  | cons w ws ih =>
    cases k with
    | zero => exact Nat.zero_le _
    | succ k => exact Nat.succ_le_succ (ih h)

theorem known_of_turns (hat : At u i ws) (hcount : u.unwindCodeCount.toNat = i + ws.length)
    (hfits : ∀ i' s', Turns u m (i + k) s i' s' → ¬ u.Ends i' → Fits u i')
    (hends : Turns u m (i + k) s u.unwindCodeCount.toNat s') (hk : k ≤ ws.length) :
    Known k ws := by
  induction ws generalizing i k s with
  | nil =>
    obtain rfl := Nat.eq_zero_of_le_zero hk
    trivial
  | cons w ws ih =>
    rw [List.length_cons] at hcount hk
    cases k with
    | succ k =>
      have hnext : i + (k + 1) = i + 1 + k := by omega
      rw [hnext] at hfits hends
      exact ih hat.2 (by omega) hfits hends (by omega)
    | zero =>
      have hi : ¬ u.Ends i := PeUnwindInfo.not_ends (by omega)
      obtain ⟨hcode, hoperands⟩ := hfits i s (.here _ _) hi
      have hentry : u.entry i = entryOf w := congrArg entryOf hat.1
      rw [hentry] at hcode
      rw [hat.1] at hoperands
      have hlen : operands w ≤ ws.length := by omega
      have hrestCount : u.unwindCodeCount.toNat = i + 1 + ws.length := by omega
      cases hends with
      | here => exact absurd (PeUnwindInfo.ends_count rfl) hi
      | turn _ hstep hrest =>
        have hj := unwindStep_index hstep
        rw [Nat.add_zero, hat.1] at hj
        subst hj
        have hnext : i + operands w + 1 = i + 1 + operands w := Nat.add_right_comm _ _ _
        refine ⟨hcode, ih hat.2 hrestCount (fun i' s' h => ?_) (hnext ▸ hrest) hlen⟩
        exact hfits i' s' (.turn hi hstep (hnext ▸ h))

theorem turns_of_known (hat : At u i ws) (hcount : u.unwindCodeCount.toNat = i + ws.length)
    (hfuel : ws.length ≤ fuel) (hknown : Known k ws)
    (hbug : ¬ BugChecks (unwindLoop u m fuel (i + k) s)) :
    (∀ i' s', Turns u m (i + k) s i' s' → ¬ u.Ends i' → Fits u i') ∧
      ∃ s', Turns u m (i + k) s u.unwindCodeCount.toNat s' ∧
        unwindLoop u m fuel (i + k) s = .ok s' := by
  induction ws generalizing i k fuel s with
  | nil =>
    obtain rfl := Nat.eq_zero_of_le_zero hknown.length_le
    have hend : u.Ends (i + 0) := PeUnwindInfo.ends_count hcount
    refine ⟨fun i' s' hturns hne => ?_, s, ?_, ?_⟩
    · cases hturns with
      | here => exact absurd hend hne
      | turn hi => exact absurd hend hi
    · rw [hcount]
      exact .here _ _
    · cases fuel <;> exact if_pos hend
  | cons w ws ih =>
    rw [List.length_cons] at hcount hfuel
    cases k with
    | succ k =>
      have hnext : i + (k + 1) = i + 1 + k := by omega
      rw [hnext] at hbug ⊢
      exact ih hat.2 (by omega) (by omega) hknown hbug
    | zero =>
      obtain ⟨fuel, rfl⟩ := Nat.exists_eq_succ_of_ne_zero (Nat.ne_zero_of_lt hfuel)
      obtain ⟨hcode, hrest⟩ : _ ∧ Known (operands w) ws := hknown
      have hlen := hrest.length_le
      have hi : ¬ u.Ends (i + 0) := PeUnwindInfo.not_ends (by omega)
      have hfits : Fits u (i + 0) := by
        refine ⟨?_, ?_⟩
        · rw [show u.entry (i + 0) = entryOf w from congrArg entryOf hat.1]
          exact hcode
        · rw [Nat.add_zero, hat.1]
          omega
      obtain ⟨-, reason, hstop⟩ | ⟨-, s₁, hstep⟩ := unwindStep_cases u m (i + 0) s
      · refine absurd ⟨reason, ?_⟩ hbug
        rw [unwindLoop, if_neg hi, hstop]
        rfl
      · have hnext : i + 0 + operands (u.word (i + 0)) + 1 = i + 1 + operands w := by
          rw [show u.word (i + 0) = w from hat.1, Nat.add_zero, Nat.add_right_comm]
        have hloop := unwindLoop_step fuel hi hstep
        rw [hnext] at hloop
        rw [hloop] at hbug ⊢
        obtain ⟨hturns, s', hends, hok⟩ := ih hat.2 (by omega) (by omega) hrest hbug
        refine ⟨fun i' s' h hne => ?_, s', .turn hi hstep (hnext ▸ hends), hok⟩
        cases h with
        | here => exact hfits
        | turn _ hstep' h =>
          rw [hstep] at hstep'
          cases hstep'
          exact hturns i' s' (hnext ▸ h) hne

theorem slots_length (u : PeUnwindInfo) : (slots u).length = u.unwindCodeCount.toNat := by
  simp [slots]

theorem failStops_iff : FailStops u m chained ctx mach ↔
    Refuses u (2 ^ 32) 0 ∨ Known 0 (slots u) ∧ ¬ chained := by
  have hat : At u 0 (slots u) := at_range u 0 _
  have hcount : u.unwindCodeCount.toNat = 0 + (slots u).length := by
    rw [slots_length, Nat.zero_add]
  have hfuel : (slots u).length ≤ 2 ^ 32 := by
    have hlt := u.unwindCodeCount.isLt
    rw [slots_length]
    omega
  rw [FailStops, bugChecks_unwind]
  constructor
  · apply Or.imp_right
    rintro ⟨hturns, ⟨s, hends, -⟩, hcomplete⟩
    exact ⟨known_of_turns (k := 0) hat hcount hturns hends (Nat.zero_le _), hcomplete⟩
  · rintro (h | ⟨hknown, hcomplete⟩)
    · exact .inl h
    · by_cases hrefuses : Refuses u (2 ^ 32) 0
      · exact .inl hrefuses
      · have hbug := mt (bugChecks_loop u m (2 ^ 32) 0 ⟨ctx, mach, false⟩).mp hrefuses
        obtain ⟨hturns, s, hends, hok⟩ := turns_of_known (k := 0) hat hcount hfuel hknown hbug
        refine .inr ⟨hturns, ⟨s, hends, ?_⟩, hcomplete⟩
        rw [unwind_finish]
        exact map_ok.mpr ⟨s, hok, rfl⟩

section

variable {σ : Type} {pdata : FrameWalkPdata} {image : Mem 64} {handlers : Ptr → FrameHandler σ}
  {info : Ptr} {d : σ}

theorem executeHandler_uncovered (hin : pdata.Inside mach.rip)
    (hnone : ∀ i, ¬ pdata.CoversAt mach.rip i) :
    executeHandler pdata image handlers ctx mach d = .error .fault := by
  rw [executeHandler, findFunctionEntry_none hin hnone]
  rfl

/-- The walk is stopped by an unwind info that it cannot execute and by an address without one
exactly if the unwinder gets to a refused register or can execute the info, and there is an
entry. -/
theorem fail_stop_iff (hin : pdata.Inside mach.rip) :
    (FailStops (unwindInfoAt image info) m (Chained image info) ctx mach ∧
      ((∀ i, ¬ pdata.CoversAt mach.rip i) →
        BugChecks (executeHandler pdata image handlers ctx mach d))) ↔
    (Refuses (unwindInfoAt image info) (2 ^ 32) 0 ∨
        Known 0 (slots (unwindInfoAt image info)) ∧ ¬ Chained image info) ∧
      ∃ i, pdata.CoversAt mach.rip i := by
  apply and_congr failStops_iff
  refine ⟨?_, ?_⟩
  · intro h
    by_contra hnone
    have hnone := not_exists.mp hnone
    obtain ⟨reason, hbug⟩ := h hnone
    rw [executeHandler_uncovered hin hnone] at hbug
    cases hbug
  · rintro ⟨i, hi⟩ hnone
    exact absurd hi (hnone i)

end

def infoImage (bytes : List Byte) : Mem 64 := write (fun _ => 0) 0x402000 bytes

def pushInfo : Mem 64 := infoImage [0x01, 0x02, 0x01, 0x00, 0x02, 0x30]

def unknownInfo : Mem 64 := infoImage [0x01, 0x02, 0x01, 0x00, 0x02, 0x0b]

def chainedInfo : Mem 64 := infoImage [0x21, 0x02, 0x01, 0x00, 0x02, 0x30]

def someContext : FrameWalkContext := ⟨fun _ => 0, fun _ => 0⟩

def machAt (rip : Ptr) : MachFrame := ⟨rip, 0, 0, 0x9000, 0⟩

def acceptingHandler : FrameHandler Unit := fun _ _ _ d => .ok (.cxxHandler, d)

theorem fail_stop_push :
    FailStops (unwindInfoAt pushInfo 0x402000) (fun _ => 0) (Chained pushInfo 0x402000)
        someContext (machAt 0x401095) ∧
      ((∀ i, ¬ smallTable.CoversAt 0x401095 i) → BugChecks (executeHandler smallTable pushInfo
        (fun _ => acceptingHandler) someContext (machAt 0x401095) ())) := by
  have hin : smallTable.Inside (machAt 0x401095).rip := ⟨by decide, by decide⟩
  exact (fail_stop_iff hin).mpr ⟨.inr (by decide), 1, _, rfl, by decide, by decide⟩

theorem not_refuses_single {u : PeUnwindInfo} (h : u.unwindCodeCount = 1)
    (hword : operands (u.word 0) = 0) (hrefused : refused u.frameReg (u.word 0) = false)
    (fuel : Nat) : ¬ Refuses u fuel 0 := by
  have hend : u.Ends 1 := PeUnwindInfo.ends_count (by rw [h]; rfl)
  cases fuel with
  | zero => exact not_false
  | succ fuel =>
    rintro ⟨-, hcode | hrest⟩
    · rw [hrefused] at hcode
      cases hcode
    · rw [hword] at hrest
      cases fuel with
      | zero => exact hrest
      | succ fuel => exact hrest.1 hend

/-- A code that there is not, an info that is not the whole and an address between two
functions. -/
theorem fail_stop_fails :
    ¬ FailStops (unwindInfoAt unknownInfo 0x402000) (fun _ => 0) (Chained unknownInfo 0x402000)
        someContext (machAt 0x401095) ∧
      ¬ FailStops (unwindInfoAt chainedInfo 0x402000) (fun _ => 0) (Chained chainedInfo 0x402000)
        someContext (machAt 0x401095) ∧
      executeHandler smallTable pushInfo (fun _ => acceptingHandler) someContext
        (machAt 0x401085) () = .error .fault := by
  refine ⟨?_, ?_, rfl⟩
  · rw [failStops_iff]
    rintro (h | h)
    · exact not_refuses_single rfl (by decide) (by decide) _ h
    · exact absurd h (by decide)
  · rw [failStops_iff]
    rintro (h | h)
    · exact not_refuses_single rfl (by decide) (by decide) _ h
    · exact absurd h (by decide)

end Vcrtl.X64.FailStop

import Vcrtl.X64.Prologue

namespace Vcrtl.X64.UnwindCodes

open Lib.Memory BugCheck EhStructs Unwinder Prologue

inductive Undo
  | pop (r : Fin 8)
  | advance (n : Ptr)
  | toFrame (r : Fin 8) (disp : Ptr)
  | loadGp (r : Fin 8) (n : Ptr)
  | loadXmm (r : Fin 10) (n : Ptr)
  | machineFrame (n : Ptr)
  | skip

def Undo.run (m : Mem 64) (s : Walk) : Undo → Walk
  | pop r => (s.setGp r (readWord m s.mach.rsp)).setRsp (s.mach.rsp + 8)
  | advance n => s.setRsp (s.mach.rsp + n)
  | toFrame r disp => s.setRsp (s.ctx.gpr r - disp)
  | loadGp r n => s.setGp r (readWord m (s.mach.rsp + n))
  | loadXmm r n => s.setXmm r (read128 m (s.mach.rsp + n))
  | machineFrame n =>
    { s with
      mach := { s.mach with
        rip := readWord m (s.mach.rsp + n), rsp := readWord m (s.mach.rsp + n + 24) }
      ripUpdated := true }
  | skip => s

def runAll (m : Mem 64) (us : List Undo) (s : Walk) : Walk := us.foldl (Undo.run m) s

def finish (m : Mem 64) (s : Walk) : FrameWalkContext × MachFrame :=
  if s.ripUpdated then (s.ctx, s.mach)
  else (s.ctx, { s.mach with rip := readWord m s.mach.rsp, rsp := s.mach.rsp + 8 })

def entryOf (w : BitVec 16) : PeUnwindEntry :=
  ⟨w.extractLsb' 0 8, w.extractLsb' 8 4, w.extractLsb' 12 4⟩

def operands (w : BitVec 16) : Nat :=
  match UnwindCode.ofBits (entryOf w).code with
  | some .allocLarge => if (entryOf w).info = 0 then 1 else 2
  | some .saveNonvolatileReg | some .epilog | some .saveXmm128 => 1
  | some .saveNonvolatileRegFar | some .unused07 | some .saveXmm128Far => 2
  | some .pushNonvolatileReg | some .allocSmall | some .setFramePointer
  | some .pushMachineFrame | none => 0

/-- A code by its word and the one behind it. No code uses more of its operands. -/
def decode (frameReg frameRegDisp : BitVec 4) (w w₁ : BitVec 16) : Exec Undo :=
  let info := (entryOf w).info
  match UnwindCode.ofBits (entryOf w).code with
  | some .pushNonvolatileReg => .pop <$> gp info
  | some .allocLarge =>
    .ok (.advance (if info = 0 then w₁.setWidth 64 * 8 else w₁.setWidth 64))
  | some .allocSmall => .ok (.advance (info.setWidth 64 * 8 + 8))
  | some .setFramePointer => (Undo.toFrame · (frameRegDisp.setWidth 64 * 16)) <$> gp frameReg
  | some .saveNonvolatileReg => (Undo.loadGp · (w₁.setWidth 64 * 8)) <$> gp info
  | some .saveNonvolatileRegFar => (Undo.loadGp · ((w₁ ++ w).setWidth 64)) <$> gp info
  | some .saveXmm128 => (Undo.loadXmm · (w₁.setWidth 64 * 16)) <$> Unwinder.xmm info
  | some .saveXmm128Far => (Undo.loadXmm · (w₁.setWidth 64)) <$> Unwinder.xmm info
  | some .pushMachineFrame => .ok (.machineFrame (info.setWidth 64 * 8))
  | some .epilog | some .unused07 | none => .ok .skip

def codeAt (u : PeUnwindInfo) (i : Nat) : Exec Undo :=
  decode u.frameReg u.frameRegDisp (u.word i) (u.word (i + 1))

def executed (u : PeUnwindInfo) : (fuel i : Nat) → Exec (List Undo)
  | 0, i => if u.Ends i then .ok [] else .error .hang
  | fuel + 1, i =>
    if u.Ends i then
      .ok []
    else do
      let undo ← codeAt u i
      let undos ← executed u fuel (i + operands (u.word i) + 1)
      return undo :: undos

def codes (frameReg frameRegDisp : BitVec 4) : (k : Nat) → List (BitVec 16) → Exec (List Undo)
  | 0, [] => .ok []
  | _ + 1, [] => .error .fault
  | k + 1, _ :: ws => codes frameReg frameRegDisp k ws
  | 0, w :: ws => do
    let undo ← decode frameReg frameRegDisp w (ws.getD 0 0)
    let undos ← codes frameReg frameRegDisp (operands w) ws
    return undo :: undos

def Whole : (k : Nat) → List (BitVec 16) → Prop
  | 0, [] => True
  | _ + 1, [] => False
  | k + 1, _ :: ws => Whole k ws
  | 0, w :: ws => Whole (operands w) ws

structure Written (u : PeUnwindInfo) (ws : List (BitVec 16)) : Prop where
  count : u.unwindCodeCount.toNat = ws.length
  data : At u 0 ws

def infoOf (frameReg frameRegDisp : BitVec 4) (ws : List (BitVec 16)) : PeUnwindInfo where
  unwindCodeCount := .ofNat 8 ws.length
  frameReg := frameReg
  frameRegDisp := frameRegDisp
  data i := ws.getD i.toNat 0

variable {u : PeUnwindInfo} {m : Mem 64} {s s' : Walk} {i j k fuel : Nat} {w : BitVec 16}
  {ws xs : List (BitVec 16)} {frameReg frameRegDisp : BitVec 4} {ctx : FrameWalkContext}
  {mach : MachFrame} {x : FrameWalkContext × MachFrame}

theorem entryOf_word (code info : BitVec 4) (prologOffset : BitVec 8) :
    entryOf (word code info prologOffset) = ⟨prologOffset, code, info⟩ :=
  entry_word (u := ⟨0, 0, 0, fun _ => word code info prologOffset⟩) (i := 0) rfl

theorem at_getElem (h : ∀ (k : Nat) (hk : k < ws.length), u.word (i + k) = ws[k]) : At u i ws := by
  induction ws generalizing i with
  | nil => trivial
  | cons w ws ih =>
    refine ⟨h 0 (Nat.succ_pos _), ih fun k hk => ?_⟩
    rw [Nat.add_assoc, Nat.add_comm 1]
    exact h (k + 1) (Nat.succ_lt_succ hk)

theorem written_infoOf (frameReg frameRegDisp : BitVec 4) (h : ws.length < 256) :
    Written (infoOf frameReg frameRegDisp ws) ws := by
  refine ⟨Nat.mod_eq_of_lt h, at_getElem fun k hk => ?_⟩
  have hword : (infoOf frameReg frameRegDisp ws).word (0 + k) =
      ws.getD (BitVec.ofNat 32 (0 + k)).toNat 0 := rfl
  rw [hword, BitVec.toNat_ofNat, Nat.mod_eq_of_lt (by omega), Nat.zero_add,
    List.getD_eq_getElem?_getD, List.getElem?_eq_getElem hk, Option.getD_some]

theorem at_range (u : PeUnwindInfo) (i n : Nat) : At u i ((List.range' i n).map u.word) :=
  at_getElem fun k hk => by simp

theorem getD_at (h : At u i ws) (hk : k < ws.length) : ws.getD k 0 = u.word (i + k) := by
  induction ws generalizing i k with
  | nil => cases hk
  | cons w ws ih =>
    cases k with
    | zero => exact h.1.symm
    | succ k =>
      have hrest := ih h.2 (Nat.lt_of_succ_lt_succ hk)
      rw [Nat.add_assoc, Nat.add_comm 1] at hrest
      exact hrest

/-- A turn does what its code says, and goes behind the operands. -/
theorem unwindStep_code (u : PeUnwindInfo) (m : Mem 64) (i : Nat) (s : Walk) :
    unwindStep u m i s =
      (fun undo => (i + operands (u.word i), undo.run m s)) <$> codeAt u i := by
  have hentry : u.entry i = entryOf (u.word i) := rfl
  simp only [unwindStep, codeAt, decode, operands, hentry, PeUnwindInfo.data32]
  cases UnwindCode.ofBits (entryOf (u.word i)).code with
  | none => rfl
  | some code =>
    cases code with
    | setFramePointer => cases gp u.frameReg <;> rfl
    | pushNonvolatileReg | saveNonvolatileReg | saveNonvolatileRegFar =>
      cases gp (entryOf (u.word i)).info <;> rfl
    | saveXmm128 | saveXmm128Far => cases Unwinder.xmm (entryOf (u.word i)).info <;> rfl
    | allocLarge =>
      by_cases hinfo : (entryOf (u.word i)).info = 0
      · simp only [if_pos hinfo]
        rfl
      · simp only [if_neg hinfo]
        rfl
    | allocSmall | pushMachineFrame | epilog | unused07 => rfl

theorem unwindStep_index (h : unwindStep u m i s = .ok (j, s')) : j = i + operands (u.word i) := by
  rw [unwindStep_code, map_ok] at h
  obtain ⟨undo, -, heq⟩ := h
  exact (congrArg Prod.fst heq).symm

/-- The loop gets to the end exactly if it executes codes all the way, and then it has run them. -/
theorem unwindLoop_executed (u : PeUnwindInfo) (m : Mem 64) (fuel i : Nat) (s : Walk) :
    unwindLoop u m fuel i s = (runAll m · s) <$> executed u fuel i := by
  induction fuel generalizing i s with
  | zero =>
    rw [unwindLoop, executed]
    split <;> rfl
  | succ fuel ih =>
    rw [unwindLoop, executed]
    split
    · rfl
    · rw [unwindStep_code]
      cases codeAt u i with
      | error e => rfl
      | ok undo =>
        refine (ih _ (undo.run m s)).trans ?_
        cases executed u fuel (i + operands (u.word i) + 1) <;> rfl

theorem unwind_finish (u : PeUnwindInfo) (m : Mem 64) (ctx : FrameWalkContext)
    (mach : MachFrame) : unwind u m ctx mach =
      finish m <$> unwindLoop u m (2 ^ 32) 0 ⟨ctx, mach, false⟩ := by
  rw [unwind]
  cases unwindLoop u m (2 ^ 32) 0 ⟨ctx, mach, false⟩ with
  | error e => rfl
  | ok s =>
    simp only [bind, Except.bind, Functor.map, Except.map, finish]
    split <;> rfl

theorem unwind_executed : unwind u m ctx mach = .ok x ↔
    ∃ us, executed u (2 ^ 32) 0 = .ok us ∧ x = finish m (runAll m us ⟨ctx, mach, false⟩) := by
  rw [unwind_finish, unwindLoop_executed]
  simp only [map_ok]
  constructor
  · rintro ⟨_, ⟨us, hus, rfl⟩, rfl⟩
    exact ⟨us, hus, rfl⟩
  · rintro ⟨us, hus, rfl⟩
    exact ⟨_, ⟨us, hus, rfl⟩, rfl⟩

theorem decode_congr {w₁ w₂ : BitVec 16} (h : 0 < operands w → w₁ = w₂) :
    decode frameReg frameRegDisp w w₁ = decode frameReg frameRegDisp w w₂ := by
  simp only [decode]
  rw [operands] at h
  cases hcode : UnwindCode.ofBits (entryOf w).code with
  | none => rfl
  | some code =>
    simp only [hcode] at h ⊢
    cases code with
    | allocLarge =>
      by_cases hinfo : (entryOf w).info = 0
      · rw [if_pos hinfo] at h
        rw [h Nat.zero_lt_one]
      · rw [if_neg hinfo] at h
        rw [h Nat.zero_lt_two]
    | saveNonvolatileReg | saveXmm128 => rw [h Nat.zero_lt_one]
    | saveNonvolatileRegFar | saveXmm128Far => rw [h Nat.zero_lt_two]
    | pushNonvolatileReg | allocSmall | setFramePointer | pushMachineFrame | epilog | unused07 =>
      rfl

theorem Whole.length_le (h : Whole k ws) : k ≤ ws.length := by
  induction ws generalizing k with
  | nil =>
    cases k with
    | zero => exact Nat.le_refl _
    | succ k => cases h
  | cons w ws ih =>
    cases k with
    | zero => exact Nat.zero_le _
    | succ k => exact Nat.succ_le_succ (ih h)

/-- The loop executes the codes of an array that ends behind one. -/
theorem executed_codes (hat : At u i ws) (hcount : u.unwindCodeCount.toNat = i + ws.length)
    (hfuel : ws.length ≤ fuel) (hwhole : Whole k ws) :
    executed u fuel (i + k) = codes u.frameReg u.frameRegDisp k ws := by
  induction ws generalizing i k fuel with
  | nil =>
    cases k with
    | zero => cases fuel <;> exact if_pos (PeUnwindInfo.ends_count hcount)
    | succ k => cases hwhole
  | cons w ws ih =>
    rw [List.length_cons] at hcount hfuel
    cases k with
    | succ k =>
      have hnext := ih (k := k) hat.2 (by omega) (Nat.le_of_succ_le hfuel) hwhole
      rw [Nat.add_assoc, Nat.add_comm 1] at hnext
      exact hnext
    | zero =>
      obtain ⟨fuel, rfl⟩ := Nat.exists_eq_succ_of_ne_zero (Nat.ne_zero_of_lt hfuel)
      have hoperands : Whole (operands w) ws := hwhole
      have hcode : codeAt u i = decode u.frameReg u.frameRegDisp w (ws.getD 0 0) := by
        rw [codeAt, hat.1]
        apply decode_congr
        intro hpos
        exact (getD_at hat.2 (Nat.lt_of_lt_of_le hpos hoperands.length_le)).symm
      have hnext := ih (k := operands w) hat.2 (by omega) (Nat.le_of_lt_succ hfuel) hoperands
      rw [Nat.add_right_comm] at hnext
      rw [Nat.add_zero, executed, if_neg (PeUnwindInfo.not_ends (by omega)), hcode, hat.1, hnext,
        codes]

theorem Written.executed_eq (hu : Written u ws) (hwhole : Whole 0 ws) :
    executed u (2 ^ 32) 0 = codes u.frameReg u.frameRegDisp 0 ws := by
  have hfuel : ws.length ≤ 2 ^ 32 := by
    have hlt := u.unwindCodeCount.isLt
    rw [← hu.count]
    omega
  exact executed_codes (k := 0) hu.data (by rw [hu.count, Nat.zero_add]) hfuel hwhole

theorem unwind_run {us : List Undo} (hus : executed u (2 ^ 32) 0 = .ok us)
    (m : Mem 64) (ctx : FrameWalkContext) (mach : MachFrame) :
    unwind u m ctx mach = .ok (finish m (runAll m us ⟨ctx, mach, false⟩)) :=
  unwind_executed.mpr ⟨us, hus, rfl⟩

theorem codes_append {cs : List Undo} (h : Whole k ws) :
    codes frameReg frameRegDisp k (ws ++ xs) = .ok cs ↔ ∃ us vs,
      codes frameReg frameRegDisp k ws = .ok us ∧ codes frameReg frameRegDisp 0 xs = .ok vs ∧
        cs = us ++ vs := by
  induction ws generalizing k cs with
  | nil =>
    cases k with
    | zero => simp [codes, eq_comm]
    | succ k => cases h
  | cons w ws ih =>
    cases k with
    | succ k => exact ih h
    | zero =>
      have hnext : Whole (operands w) ws := h
      have hcode : decode frameReg frameRegDisp w ((ws ++ xs).getD 0 0) =
          decode frameReg frameRegDisp w (ws.getD 0 0) := by
        apply decode_congr
        intro hpos
        cases ws with
        | nil => exact absurd hnext.length_le (Nat.not_le_of_lt hpos)
        | cons => rfl
      rw [List.cons_append, codes, codes, hcode]
      simp only [bind_ok, pure_ok]
      constructor
      · rintro ⟨undo, hundo, cs', hcs, rfl⟩
        obtain ⟨us, vs, hus, hvs, rfl⟩ := (ih hnext).mp hcs
        exact ⟨undo :: us, vs, ⟨undo, hundo, us, hus, rfl⟩, hvs, rfl⟩
      · rintro ⟨_, vs, ⟨undo, hundo, us, hus, rfl⟩, hvs, rfl⟩
        exact ⟨undo, hundo, us ++ vs, (ih hnext).mpr ⟨us, vs, hus, hvs, rfl⟩, rfl⟩

theorem Whole.append (h : Whole k ws) (hxs : Whole 0 xs) : Whole k (ws ++ xs) := by
  induction ws generalizing k with
  | nil =>
    cases k with
    | zero => exact hxs
    | succ k => cases h
  | cons w ws ih =>
    cases k with
    | succ k => exact ih h
    | zero => exact ih (k := operands w) h

end Vcrtl.X64.UnwindCodes

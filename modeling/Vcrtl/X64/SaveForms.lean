import Mathlib.Data.Nat.Factorization.Basic
import Vcrtl.X64.Generations

namespace Vcrtl.X64.SaveForms

open Lib.Memory BugCheck EhStructs Unwinder Prologue UnwindCodes UnwindFlow Generations

/-- A code with a near and a far form. -/
inductive Form
  | saveNonvol
  | saveXmm
  | allocLarge
  deriving DecidableEq

def Form.unit : Form → Nat
  | saveNonvol | allocLarge => 8
  | saveXmm => 16

def Form.near (form : Form) (info : BitVec 4) (prologOffset : BitVec 8) (n : BitVec 16) :
    List (BitVec 16) :=
  match form with
  | saveNonvol => [word 4 info prologOffset, n]
  | saveXmm => [word 8 info prologOffset, n]
  | allocLarge => [word 1 0 prologOffset, n]

def Form.bytes (form : Form) (n : BitVec 16) : BitVec 32 := n.setWidth 32 * .ofNat 32 form.unit

def Form.far (form : Form) (info : BitVec 4) (prologOffset : BitVec 8) (n : BitVec 16) :
    List (BitVec 16) :=
  match form with
  | saveNonvol => word 5 info prologOffset :: words32 (form.bytes n)
  | saveXmm => word 9 info prologOffset :: words32 (form.bytes n)
  | allocLarge => word 1 1 prologOffset :: words32 (form.bytes n)

structure Has (u : PeUnwindInfo) (frameReg frameRegDisp : BitVec 4) (ws : List (BitVec 16)) :
    Prop extends Written u ws where
  frameReg : u.frameReg = frameReg
  frameRegDisp : u.frameRegDisp = frameRegDisp

/-- In this place of an array both forms of an offset are unwound alike. -/
def Agree (frameReg frameRegDisp : BitVec 4) (pre post : List (BitVec 16)) (form : Form)
    (info : BitVec 4) (prologOffset : BitVec 8) (n : BitVec 16) : Prop :=
  ∀ u u', Has u frameReg frameRegDisp (pre ++ (form.near info prologOffset n ++ post)) →
    Has u' frameReg frameRegDisp (pre ++ (form.far info prologOffset n ++ post)) →
    ∀ m ctx mach x, unwind u m ctx mach = .ok x ↔ unwind u' m ctx mach = .ok x

inductive Target
  | gp (r : Fin 8)
  | xmm (r : Fin 10)
  | rsp

def Target.undo (offset : Ptr) : Target → Undo
  | gp r => .loadGp r offset
  | xmm r => .loadXmm r offset
  | rsp => .advance offset

def Target.affected : Target → Affected
  | gp r => .onlyGp r
  | xmm r => .onlyXmm r
  | rsp => .onlyRsp

def Form.target (form : Form) (info : BitVec 4) : Exec Target :=
  match form with
  | saveNonvol => .gp <$> gp info
  | saveXmm => .xmm <$> Unwinder.xmm info
  | allocLarge => .ok .rsp

def Form.nearOffset (form : Form) (n : BitVec 16) : Ptr := n.setWidth 64 * .ofNat 64 form.unit

/-- The far load of a general register starts its operand one word early. The others leave out its
second word. -/
def Form.farOffset (form : Form) (info : BitVec 4) (prologOffset : BitVec 8) (n : BitVec 16) :
    Ptr :=
  match form with
  | saveNonvol => ((form.bytes n).extractLsb' 0 16 ++ word 5 info prologOffset).setWidth 64
  | saveXmm | allocLarge => first (form.bytes n)

variable {frameReg frameRegDisp info : BitVec 4} {prologOffset : BitVec 8} {n : BitVec 16}
  {pre post ws : List (BitVec 16)} {us vs : List Undo} {form : Form} {m : Mem 64}
  {u u' : PeUnwindInfo} {target : Target} {s : Walk}

theorem codes_near : codes frameReg frameRegDisp 0 (form.near info prologOffset n ++ post) = (do
    let undo ← (Target.undo (form.nearOffset n)) <$> form.target info
    let undos ← codes frameReg frameRegDisp 0 post
    return undo :: undos) := by
  cases form with
  | saveNonvol =>
    simp only [Form.near, List.cons_append, codes, operands, decode, entryOf_word, Form.target]
    cases gp info <;> rfl
  | saveXmm =>
    simp only [Form.near, List.cons_append, codes, operands, decode, entryOf_word, Form.target]
    cases Unwinder.xmm info <;> rfl
  | allocLarge =>
    simp only [Form.near, List.cons_append, codes, operands, decode, entryOf_word]
    rfl

theorem codes_far : codes frameReg frameRegDisp 0 (form.far info prologOffset n ++ post) = (do
    let undo ← (Target.undo (form.farOffset info prologOffset n)) <$> form.target info
    let undos ← codes frameReg frameRegDisp 0 post
    return undo :: undos) := by
  cases form with
  | saveNonvol =>
    simp only [Form.far, words32, List.cons_append, codes, operands, decode, entryOf_word,
      Form.target]
    cases gp info <;> rfl
  | saveXmm =>
    simp only [Form.far, words32, List.cons_append, codes, operands, decode, entryOf_word,
      Form.target]
    cases Unwinder.xmm info <;> rfl
  | allocLarge =>
    simp only [Form.far, words32, List.cons_append, codes, operands, decode, entryOf_word]
    rfl

theorem whole_form (hpost : Whole 0 post) : Whole 0 (form.near info prologOffset n ++ post) ∧
    Whole 0 (form.far info prologOffset n ++ post) := by
  cases form <;>
  · simp only [Form.near, Form.far, words32, List.cons_append, Whole, operands, entryOf_word]
    exact ⟨hpost, hpost⟩

theorem unwind_around {code : Exec Target} {offset : Ptr} {mid : List (BitVec 16)}
    {ctx : FrameWalkContext} {mach : MachFrame} {x : FrameWalkContext × MachFrame}
    (hu : Has u frameReg frameRegDisp (pre ++ (mid ++ post))) (hpre : Whole 0 pre)
    (hwhole : Whole 0 (mid ++ post))
    (hmid : codes frameReg frameRegDisp 0 (mid ++ post) = (do
      let undo ← (Target.undo offset) <$> code
      let undos ← codes frameReg frameRegDisp 0 post
      return undo :: undos)) :
    unwind u m ctx mach = .ok x ↔ ∃ us target vs,
      codes frameReg frameRegDisp 0 pre = .ok us ∧ code = .ok target ∧
        codes frameReg frameRegDisp 0 post = .ok vs ∧
        x = finish m (runAll m vs
          ((target.undo offset).run m (runAll m us ⟨ctx, mach, false⟩))) := by
  rw [unwind_executed, hu.toWritten.executed_eq (hpre.append hwhole), hu.frameReg, hu.frameRegDisp]
  constructor
  · rintro ⟨_, hall, rfl⟩
    obtain ⟨us, rest, hus, hrest, rfl⟩ := (codes_append hpre).mp hall
    rw [hmid] at hrest
    simp only [bind_ok, pure_ok, map_ok] at hrest
    obtain ⟨_, ⟨target, htarget, rfl⟩, vs, hvs, rfl⟩ := hrest
    refine ⟨us, target, vs, hus, htarget, hvs, ?_⟩
    rw [runAll, List.foldl_append]
    rfl
  · rintro ⟨us, target, vs, hus, htarget, hvs, rfl⟩
    refine ⟨us ++ target.undo offset :: vs, (codes_append hpre).mpr ⟨us, _, hus, ?_, rfl⟩, ?_⟩
    · rw [hmid, htarget, hvs]
      rfl
    · rw [runAll, runAll, runAll, List.foldl_append]
      rfl

theorem differ_setGp {word : Ptr → Ptr → Prop} {wide : BitVec 128 → BitVec 128 → Prop} {r : Fin 8}
    {a b : Ptr} (h : word a b) : Differ word wide (.onlyGp r) (s.setGp r a) (s.setGp r b) := by
  refine ⟨fun r' => ?_, fun _ => rfl, rfl, rfl, ⟨rfl, rfl, rfl⟩, rfl, nofun⟩
  by_cases hr : r' = r
  · subst hr
    simpa [Within, Affected.onlyGp, Walk.setGp] using h
  · simp [Within, Affected.onlyGp, hr, Walk.setGp]

theorem differ_setXmm {word : Ptr → Ptr → Prop} {wide : BitVec 128 → BitVec 128 → Prop}
    {r : Fin 10} {a b : BitVec 128} (h : wide a b) :
    Differ word wide (.onlyXmm r) (s.setXmm r a) (s.setXmm r b) := by
  refine ⟨fun _ => rfl, fun r' => ?_, rfl, rfl, ⟨rfl, rfl, rfl⟩, rfl, nofun⟩
  by_cases hr : r' = r
  · subst hr
    simpa [Within, Affected.onlyXmm, Walk.setXmm] using h
  · simp [Within, Affected.onlyXmm, hr, Walk.setXmm]

theorem differ_setRsp {word : Ptr → Ptr → Prop} {wide : BitVec 128 → BitVec 128 → Prop}
    {a b : Ptr} (h : word a b) : Differ word wide .onlyRsp (s.setRsp a) (s.setRsp b) :=
  ⟨fun _ => rfl, fun _ => rfl, h, rfl, ⟨rfl, rfl, rfl⟩, rfl, nofun⟩

/-- Two offsets for one target leave only that target different. -/
theorem differ_target {word : Ptr → Ptr → Prop} {wide : BitVec 128 → BitVec 128 → Prop} {a b : Ptr}
    (target : Target)
    (hrsp : word (s.mach.rsp + a) (s.mach.rsp + b))
    (hgp : word (readWord m (s.mach.rsp + a)) (readWord m (s.mach.rsp + b)))
    (hxmm : wide (read128 m (s.mach.rsp + a)) (read128 m (s.mach.rsp + b))) :
    Differ word wide target.affected ((target.undo a).run m s) ((target.undo b).run m s) := by
  cases target with
  | gp r => exact differ_setGp hgp
  | xmm r => exact differ_setXmm hxmm
  | rsp => exact differ_setRsp hrsp

theorem finish_target (a b : Ptr) (hclean : (target.affected.after vs).Clean) :
    finish m (runAll m vs ((target.undo a).run m s)) =
      finish m (runAll m vs ((target.undo b).run m s)) := by
  have hcarried := carried_any m vs.length
  have hdiffer : Differ (fun _ _ => True) (fun _ _ => True) target.affected
      ((target.undo a).run m s) ((target.undo b).run m s) :=
    differ_target target trivial trivial trivial
  have hend := Differ.run (s := (target.undo a).run m s) hcarried (Nat.le_refl _)
    (fun undo _ => adds_any undo) hdiffer
  exact hend.finish_eq hclean

theorem form_unit_le (form : Form) : form.unit ≤ 16 := by
  cases form <;> decide

theorem toNat_bytes : (form.bytes n).toNat = n.toNat * form.unit := by
  have hmul := Nat.mul_le_mul (Nat.le_of_lt n.isLt) (form_unit_le form)
  have hunit := form_unit_le form
  have hn := n.isLt
  rw [Form.bytes, BitVec.toNat_mul, BitVec.toNat_setWidth, BitVec.toNat_ofNat,
    Nat.mod_eq_of_lt (a := n.toNat) (by omega), Nat.mod_eq_of_lt (a := form.unit) (by omega),
    Nat.mod_eq_of_lt (by omega)]

theorem toNat_nearOffset : (form.nearOffset n).toNat = n.toNat * form.unit := by
  have hmul := Nat.mul_le_mul (Nat.le_of_lt n.isLt) (form_unit_le form)
  have hunit := form_unit_le form
  have hn := n.isLt
  rw [Form.nearOffset, BitVec.toNat_mul, BitVec.toNat_setWidth, BitVec.toNat_ofNat,
    Nat.mod_eq_of_lt (a := n.toNat) (by omega), Nat.mod_eq_of_lt (a := form.unit) (by omega),
    Nat.mod_eq_of_lt (by omega)]

theorem toNat_first (v : BitVec 32) : (first v).toNat = v.toNat % 2 ^ 16 := by
  rw [first, BitVec.toNat_setWidth, BitVec.extractLsb'_toNat, Nat.shiftRight_zero]
  exact Nat.mod_eq_of_lt (by omega)

theorem toNat_farLoad (v : BitVec 32) : ((v.extractLsb' 0 16 ++ word 5 info prologOffset).setWidth
    64 : Ptr).toNat = v.toNat % 2 ^ 16 * 2 ^ 16 + (word 5 info prologOffset).toNat := by
  have hword := (word 5 info prologOffset).isLt
  rw [BitVec.toNat_setWidth, BitVec.toNat_append, BitVec.extractLsb'_toNat, Nat.shiftRight_zero,
    ← Nat.shiftLeft_add_eq_or_of_lt hword, Nat.shiftLeft_eq]
  exact Nat.mod_eq_of_lt (by omega)

theorem code_le_word (info : BitVec 4) (prologOffset : BitVec 8) :
    5 * 2 ^ 8 ≤ (word 5 info prologOffset).toNat := by
  have hoffset := prologOffset.isLt
  have hcode : (info ++ (5 : BitVec 4)).toNat = info.toNat * 2 ^ 4 + 5 := by
    rw [BitVec.toNat_append, ← Nat.shiftLeft_add_eq_or_of_lt (by decide), Nat.shiftLeft_eq]
    rfl
  rw [word, BitVec.toNat_append, ← Nat.shiftLeft_add_eq_or_of_lt hoffset, Nat.shiftLeft_eq, hcode]
  omega

theorem offsets_eq_iff : form.nearOffset n = form.farOffset info prologOffset n ↔
    form ≠ .saveNonvol ∧ n.toNat * form.unit < 2 ^ 16 := by
  have hn := n.isLt
  rw [← BitVec.toNat_inj, toNat_nearOffset]
  cases form with
  | saveNonvol =>
    have hword := code_le_word info prologOffset
    have hlt := (word 5 info prologOffset).isLt
    rw [Form.farOffset, toNat_farLoad, toNat_bytes]
    simp only [Form.unit, ne_eq, not_true_eq_false, false_and, iff_false]
    obtain hlow | hlow : n.toNat * 8 % 2 ^ 16 = 0 ∨ 8 ≤ n.toNat * 8 % 2 ^ 16 := by omega
    · omega
    · omega
  | saveXmm =>
    rw [Form.farOffset, toNat_first, toNat_bytes]
    simp only [Form.unit, ne_eq, reduceCtorEq, not_false_eq_true, true_and]
    omega
  | allocLarge =>
    rw [Form.farOffset, toNat_first, toNat_bytes]
    simp only [Form.unit, ne_eq, reduceCtorEq, not_false_eq_true, true_and]
    omega

theorem offsets_le (form : Form) (info : BitVec 4) (prologOffset : BitVec 8) (n : BitVec 16) :
    (form.nearOffset n).toNat ≤ 2 ^ 33 ∧
    (form.farOffset info prologOffset n).toNat ≤ 2 ^ 33 := by
  have hmul := Nat.mul_le_mul (Nat.le_of_lt n.isLt) (form_unit_le form)
  constructor
  · rw [toNat_nearOffset]
    omega
  · cases form with
    | saveNonvol =>
      have hword := (word 5 info prologOffset).isLt
      rw [Form.farOffset, toNat_farLoad]
      omega
    | saveXmm | allocLarge =>
      rw [Form.farOffset, toNat_first]
      omega

theorem has_of_length (frameReg frameRegDisp : BitVec 4) (h : ws.length < 256) :
    ∃ u, Has u frameReg frameRegDisp ws :=
  ⟨infoOf frameReg frameRegDisp ws, written_infoOf frameReg frameRegDisp h, rfl, rfl⟩

theorem exists_bit {d : Nat} (h : d ≠ 0) : ∃ bit, d % 2 ^ (bit + 1) = 2 ^ bit := by
  obtain ⟨bit, k, ⟨c, rfl⟩, rfl⟩ := Nat.exists_eq_two_pow_mul_odd h
  refine ⟨bit, ?_⟩
  rw [Nat.pow_succ, Nat.mul_mod_mul_left, Nat.mul_add_mod, Nat.mod_eq_of_lt (by decide),
    Nat.mul_one]

def farContext : FrameWalkContext := ⟨fun _ => 0, fun _ => 0x80000000000000⟩

def farFrame : MachFrame := ⟨0, 0, 0, 0x80000000000000, 0⟩

theorem inside_after {k : Nat} (bit : Nat) (hlen : k + us.length ≤ 256) (hus : us.length ≤ 252)
    (hadds : ∀ undo ∈ us, Adds Small undo) : ∃ n ≤ us.length,
      Inside n k (runAll (memory n bit) us ⟨farContext, farFrame, false⟩).mach.rsp := by
  let start : Generation := ⟨fun _ => 0, 0⟩
  have hle : (us.foldl Generation.step start).rsp ≤ 0 + us.length :=
    generation_le (fun _ => Nat.le_refl _) (Nat.le_refl _)
  rw [Nat.zero_add] at hle
  have hinside : Inside 0 (k + us.length) 0x80000000000000 := by
    have hfull : Inside 0 256 0x80000000000000 := ⟨by decide, by decide⟩
    exact hfull.weaken_le (by omega)
  have hstart : Follows (us.foldl Generation.step start).rsp (k + us.length) start
      ⟨farContext, farFrame, false⟩ :=
    ⟨fun _ => .inl ⟨Nat.zero_le _, hinside⟩, .inl ⟨Nat.zero_le _, hinside⟩⟩
  have hend := (hstart.run bit (by omega) (by omega) hadds).rsp
  obtain ⟨-, h⟩ | ⟨hlt, -⟩ := hend
  · exact ⟨_, hle, h⟩
  · exact absurd hlt (Nat.lt_irrefl _)

theorem parted_of_inside {n k : Nat} {p a b : Ptr} (h : Inside n (k + 1) p) (hn : n ≤ 252)
    (ha : a.toNat ≤ 2 ^ 33) (hb : b.toNat ≤ 2 ^ 33) :
    Parted n (a.toNat - b.toNat + (b.toNat - a.toNat)) k (p + a) (p + b) := by
  refine .inl ⟨h.add (by omega) (.inl ha), h.add (by omega) (.inl hb), ?_⟩
  have hstart := start_le (t := n) (by omega)
  have hroom := room_pos k
  rw [Inside, room_succ] at h
  rw [BitVec.toNat_add, BitVec.toNat_add]
  omega

theorem near_length (h : pre.length + post.length + 3 < 256) :
    (pre ++ (form.near info prologOffset n ++ post)).length < 256 := by
  cases form <;>
  · simp only [Form.near, List.length_append, List.length_cons, List.length_nil]
    omega

theorem far_length (h : pre.length + post.length + 3 < 256) :
    (pre ++ (form.far info prologOffset n ++ post)).length < 256 := by
  cases form <;>
  · simp only [Form.far, words32, List.length_append, List.length_cons, List.length_nil]
    omega

/-- Where the forms agree on an offset that they take differently, no difference that comes from it
is left. -/
theorem clean_of_agree (target : Target)
    (h : Agree frameReg frameRegDisp pre post form info prologOffset n)
    (hoffset : form.nearOffset n ≠ form.farOffset info prologOffset n) (hpre : Whole 0 pre)
    (hpost : Whole 0 post) (hlen : pre.length + post.length + 3 < 256)
    (hus : codes frameReg frameRegDisp 0 pre = .ok us) (htarget : form.target info = .ok target)
    (hvs : codes frameReg frameRegDisp 0 post = .ok vs) : (target.affected.after vs).Clean := by
  obtain ⟨hnearWhole, hfarWhole⟩ := whole_form (n := n) hpost
  obtain ⟨u, hu⟩ : ∃ u, Has u frameReg frameRegDisp
      (pre ++ (form.near info prologOffset n ++ post)) := has_of_length _ _ (near_length hlen)
  obtain ⟨u', hu'⟩ : ∃ u, Has u frameReg frameRegDisp
      (pre ++ (form.far info prologOffset n ++ post)) := has_of_length _ _ (far_length hlen)
  obtain ⟨husLen, husAdds⟩ := codes_adds hus
  obtain ⟨hvsLen, hvsAdds⟩ := codes_adds hvs
  have hdist := mt BitVec.toNat_inj.mp hoffset
  have hle := offsets_le form info prologOffset n
  generalize hnear : form.nearOffset n = near at hdist hle
  generalize hfar : form.farOffset info prologOffset n = far at hdist hle
  obtain ⟨bit, hbit⟩ := exists_bit (d := near.toNat - far.toNat + (far.toNat - near.toNat))
    (by omega)
  obtain ⟨last, hlast, hinside⟩ := inside_after (k := vs.length + 1) bit (by omega)
    (by omega) husAdds
  have hparted := parted_of_inside hinside (by omega) hle.1 hle.2
  have hcarried := carried_memory (n := last) (by omega) hbit
  have hgp := hcarried.weaken_le (j := vs.length) (by omega) (hcarried.load hparted)
  have hdiffer := differ_target target hparted hgp (hcarried.load128 hparted)
  have hrun := hdiffer.run hcarried (by omega) hvsAdds
  have hfinish : unwind u (memory last bit) farContext farFrame = .ok _ :=
    (unwind_around hu hpre hnearWhole codes_near).mpr ⟨us, target, vs, hus, htarget, hvs, rfl⟩
  have hfinish' : unwind u' (memory last bit) farContext farFrame = .ok _ :=
    (unwind_around hu' hpre hfarWhole codes_far).mpr ⟨us, target, vs, hus, htarget, hvs, rfl⟩
  have hsame := Except.ok.inj (((h u u' hu hu' _ _ _ _).mp hfinish).symm.trans hfinish')
  rw [hnear, hfar] at hsame
  exact hrun.clean (fun p hp => parted_irrefl hp (by omega)) (fun _ hx => hx rfl) hsame

/-- The forms agree on an offset if the unwinder takes it from both, and otherwise only where
nothing that came from it is left. -/
theorem forms_agree_iff (hpre : Whole 0 pre) (hpost : Whole 0 post)
    (hlen : pre.length + post.length + 3 < 256) :
    Agree frameReg frameRegDisp pre post form info prologOffset n ↔
      (form ≠ .saveNonvol ∧ n.toNat * form.unit < 2 ^ 16) ∨
      ∀ us target vs, codes frameReg frameRegDisp 0 pre = .ok us → form.target info = .ok target →
        codes frameReg frameRegDisp 0 post = .ok vs → (target.affected.after vs).Clean := by
  constructor
  · intro h
    by_cases hoffset : form.nearOffset n = form.farOffset info prologOffset n
    · exact .inl (offsets_eq_iff.mp hoffset)
    · exact .inr fun us target vs hus htarget hvs =>
        clean_of_agree target h hoffset hpre hpost hlen hus htarget hvs
  · intro h u u' hu hu' m ctx mach x
    obtain ⟨hnearWhole, hfarWhole⟩ := whole_form (n := n) hpost
    rw [unwind_around hu hpre hnearWhole codes_near, unwind_around hu' hpre hfarWhole codes_far]
    apply exists_congr
    intro us
    apply exists_congr
    intro target
    apply exists_congr
    intro vs
    apply and_congr_right
    intro hus
    apply and_congr_right
    intro htarget
    apply and_congr_right
    intro hvs
    obtain hoffset | hclean := h
    · rw [offsets_eq_iff.mpr hoffset]
    · rw [finish_target _ _ (hclean us target vs hus htarget hvs)]

/-- A prologue that sets `rbp` before it saves `xmm6` at 32, and after both `rbx` at 64. -/
theorem forms_agree_xmm : Agree 5 0 [word 4 3 20, 8] [word 3 0 9] .saveXmm 6 14 2 := by
  have hpre : Whole 0 [word 4 3 20, 8] := by
    simp only [Whole, operands, entryOf_word]
    trivial
  have hpost : Whole 0 [word 3 0 9] := by
    simp only [Whole, operands, entryOf_word]
    trivial
  exact (forms_agree_iff hpre hpost (by decide)).mpr (.inl ⟨by simp, by decide⟩)

/-- Alone in an array, a saved `rbx` is restored from different places, since the operand of the far
form is read from the code's own word on. So is an `xmm6` at `0x10020`, and `0x10000` bytes are
not freed by the far form. -/
theorem forms_differ : ¬ Agree 0 0 [] [] .saveNonvol 3 5 1 ∧
    ¬ Agree 0 0 [] [] .saveXmm 6 5 0x1002 ∧ ¬ Agree 0 0 [] [] .allocLarge 0 5 0x2000 := by
  refine ⟨fun h => ?_, fun h => ?_, fun h => ?_⟩
  · have hclean := clean_of_agree (.gp ⟨0, by decide⟩) h
      (mt offsets_eq_iff.mp (by decide)) trivial trivial (by decide) rfl rfl rfl
    exact absurd hclean (by decide)
  · have hclean := clean_of_agree (.xmm ⟨0, by decide⟩) h
      (mt offsets_eq_iff.mp (by decide)) trivial trivial (by decide) rfl rfl rfl
    exact absurd hclean (by decide)
  · have hclean := clean_of_agree .rsp h
      (mt offsets_eq_iff.mp (by decide)) trivial trivial (by decide) rfl rfl rfl
    exact absurd hclean (by decide)

end Vcrtl.X64.SaveForms

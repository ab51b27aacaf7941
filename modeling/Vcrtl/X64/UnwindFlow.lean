import Vcrtl.X64.UnwindCodes

namespace Vcrtl.X64.UnwindFlow

open Lib.Memory EhStructs Unwinder UnwindCodes

structure Affected where
  gpr : Fin 8 → Bool
  xmm : Fin 10 → Bool
  rsp : Bool
  rip : Bool

namespace Affected

/-- A code carries a difference to where it writes what it computed or loaded from it. -/
def step (t : Affected) : Undo → Affected
  | .pop r | .loadGp r _ => { t with gpr := Function.update t.gpr r t.rsp }
  | .toFrame r _ => { t with rsp := t.gpr r }
  | .loadXmm r _ => { t with xmm := Function.update t.xmm r t.rsp }
  | .machineFrame _ => { t with rip := t.rsp }
  | .advance _ | .skip => t

def after (us : List Undo) (t : Affected) : Affected := us.foldl step t

structure Clean (t : Affected) : Prop where
  gpr : ∀ r, t.gpr r = false
  xmm : ∀ r, t.xmm r = false
  rsp : t.rsp = false
  rip : t.rip = false

instance (t : Affected) : Decidable t.Clean :=
  decidable_of_iff ((∀ r, t.gpr r = false) ∧ (∀ r, t.xmm r = false) ∧ t.rsp = false ∧ t.rip = false)
    ⟨fun ⟨hgpr, hxmm, hrsp, hrip⟩ => ⟨hgpr, hxmm, hrsp, hrip⟩,
      fun h => ⟨h.gpr, h.xmm, h.rsp, h.rip⟩⟩

def onlyRsp : Affected := ⟨fun _ => false, fun _ => false, true, false⟩

def onlyGp (r : Fin 8) : Affected := ⟨fun r' => r' == r, fun _ => false, false, false⟩

def onlyXmm (r : Fin 10) : Affected := ⟨fun _ => false, fun r' => r' == r, false, false⟩

end Affected

def Within {α : Type} (differ : α → α → Prop) (affected : Bool) (a b : α) : Prop :=
  if affected then differ a b else a = b

def Adds (kind : Ptr → Prop) : Undo → Prop
  | .pop _ => kind 8
  | .advance n | .loadGp _ n | .loadXmm _ n => kind n
  | .toFrame _ n => kind (-n)
  | .machineFrame n => kind n ∧ kind (n + 24)
  | .skip => True

/-- Ways for words and for wide registers to differ that displacements of a kind and loads keep. A
word stands a number of displacements, and `full` of them after it was loaded. -/
structure Carried (m : Mem 64) (kind : Ptr → Prop) (full : Nat) (word : Nat → Ptr → Ptr → Prop)
    (wide : BitVec 128 → BitVec 128 → Prop) : Prop where
  weaken : ∀ {k p q}, word (k + 1) p q → word k p q
  add : ∀ {k p q} n, kind n → word (k + 1) p q → word k (p + n) (q + n)
  load : ∀ {k p q}, word k p q → word full (readWord m p) (readWord m q)
  load128 : ∀ {k p q}, word k p q → wide (read128 m p) (read128 m q)

/-- Two walks that differ at the affected places only. -/
structure Differ (word : Ptr → Ptr → Prop) (wide : BitVec 128 → BitVec 128 → Prop) (t : Affected)
    (s s' : Walk) : Prop where
  gpr : ∀ r, Within word (t.gpr r) (s.ctx.gpr r) (s'.ctx.gpr r)
  xmm : ∀ r, Within wide (t.xmm r) (s.ctx.xmm r) (s'.ctx.xmm r)
  rsp : Within word t.rsp s.mach.rsp s'.mach.rsp
  rip : Within word t.rip s.mach.rip s'.mach.rip
  rest : s.mach.cs = s'.mach.cs ∧ s.mach.eflags = s'.mach.eflags ∧ s.mach.ss = s'.mach.ss
  updated : s.ripUpdated = s'.ripUpdated
  rip_updated : t.rip = true → s.ripUpdated = true

variable {m : Mem 64} {kind : Ptr → Prop} {full k : Nat} {word : Nat → Ptr → Ptr → Prop}
  {differ : Ptr → Ptr → Prop} {wide : BitVec 128 → BitVec 128 → Prop} {t : Affected} {s s' : Walk}
  {us : List Undo}

theorem Within.map {α β : Type} {differ : α → α → Prop} {differ' : β → β → Prop} {b : Bool}
    {x y : α} (f : α → β) (hf : ∀ {x y}, differ x y → differ' (f x) (f y))
    (h : Within differ b x y) : Within differ' b (f x) (f y) := by
  cases b with
  | false => exact congrArg f h
  | true => exact hf h

theorem Within.update {n : Nat} {α : Type} {differ : α → α → Prop} {b : Fin n → Bool} {c : Bool}
    {f g : Fin n → α} {x y : α} {r : Fin n} (h : ∀ i, Within differ (b i) (f i) (g i))
    (hr : Within differ c x y) (i : Fin n) :
    Within differ (Function.update b r c i) (Function.update f r x i)
    (Function.update g r y i) := by
  by_cases hi : i = r
  · subst hi
    simp only [Function.update_self]
    exact hr
  · simp only [Function.update_of_ne hi]
    exact h i

theorem Carried.weaken_le (hc : Carried m kind full word wide) {j k : Nat} {p q : Ptr}
    (hjk : j ≤ k) (h : word k p q) : word j p q := by
  induction hjk with
  | refl => exact h
  | step _ ih => exact ih (hc.weaken h)

/-- What a code does to two walks that differ. -/
theorem Differ.step (hc : Carried m kind full word wide) (hk : k ≤ full)
    (h : Differ (word (k + 1)) wide t s s') {undo : Undo} (hadds : Adds kind undo) :
    Differ (word k) wide (t.step undo) (undo.run m s) (undo.run m s') := by
  have hrest {b : Bool} {x y : Ptr} (h : Within (word (k + 1)) b x y) : Within (word k) b x y :=
    h.map id hc.weaken
  have hadd {n : Ptr} (hn : kind n) :
      Within (word k) t.rsp (s.mach.rsp + n) (s'.mach.rsp + n) :=
    h.rsp.map (· + n) (hc.add n hn)
  have hword {x y : Ptr} (h : word k x y) : word k (readWord m x) (readWord m y) :=
    hc.weaken_le hk (hc.load h)
  have hload {n : Ptr} (hn : kind n) :
      Within (word k) t.rsp (readWord m (s.mach.rsp + n)) (readWord m (s'.mach.rsp + n)) :=
    (hadd hn).map (readWord m) hword
  have hgpr (r : Fin 8) := hrest (h.gpr r)
  have hrsp := hrest h.rsp
  have hrip := hrest h.rip
  cases undo with
  | pop r =>
    have hpop := hrsp.map (readWord m) hword
    exact ⟨Within.update hgpr hpop, h.xmm, hadd hadds, hrip, h.rest, h.updated, h.rip_updated⟩
  | advance n => exact ⟨hgpr, h.xmm, hadd hadds, hrip, h.rest, h.updated, h.rip_updated⟩
  | toFrame r n =>
    have hframe := (h.gpr r).map (· + -n) (hc.add (-n) hadds)
    simp only [← BitVec.sub_eq_add_neg] at hframe
    exact ⟨hgpr, h.xmm, hframe, hrip, h.rest, h.updated, h.rip_updated⟩
  | loadGp r n =>
    exact ⟨Within.update hgpr (hload hadds), h.xmm, hrsp, hrip, h.rest, h.updated, h.rip_updated⟩
  | loadXmm r n =>
    have hwide := (hadd hadds).map (read128 m) hc.load128
    exact ⟨hgpr, Within.update h.xmm hwide, hrsp, hrip, h.rest, h.updated, h.rip_updated⟩
  | machineFrame n =>
    have hend := hload hadds.2
    simp only [← BitVec.add_assoc] at hend
    rw [Undo.run, Undo.run, Affected.step]
    exact ⟨hgpr, h.xmm, hend, hload hadds.1, h.rest, rfl, fun _ => rfl⟩
  | skip => exact ⟨hgpr, h.xmm, hrsp, hrip, h.rest, h.updated, h.rip_updated⟩

theorem Differ.run (hc : Carried m kind full word wide) (hfull : us.length ≤ full)
    (hadds : ∀ undo ∈ us, Adds kind undo) (h : Differ (word us.length) wide t s s') :
    Differ (word 0) wide (t.after us) (runAll m us s) (runAll m us s') := by
  induction us generalizing t s s' with
  | nil => exact h
  | cons undo us ih =>
    obtain ⟨hundo, hus⟩ := List.forall_mem_cons.mp hadds
    have hlen : us.length ≤ full := Nat.le_of_succ_le hfull
    exact ih hlen hus (h.step hc hlen hundo)

theorem Differ.finish_eq (h : Differ differ wide t s s') (ht : t.Clean) :
    finish m s = finish m s' := by
  have hctx : s.ctx = s'.ctx := by
    have hgpr := h.gpr
    have hxmm := h.xmm
    simp only [Within, ht.gpr, ht.xmm, Bool.false_eq_true, if_false] at hgpr hxmm
    cases hs : s.ctx
    cases hs' : s'.ctx
    simp only [hs, hs'] at hgpr hxmm
    rw [funext hgpr, funext hxmm]
  have hmach : s.mach = s'.mach := by
    obtain ⟨hcs, heflags, hss⟩ := h.rest
    have hrsp := h.rsp
    have hrip := h.rip
    simp only [Within, ht.rsp, ht.rip, Bool.false_eq_true, if_false] at hrsp hrip
    cases hs : s.mach
    cases hs' : s'.mach
    simp only [hs, hs'] at hcs heflags hss hrsp hrip
    rw [hcs, heflags, hss, hrsp, hrip]
  simp only [finish, hctx, hmach, h.updated]

theorem Within.eq_false {α : Type} {differ : α → α → Prop} {b : Bool} {x : α}
    (hirrefl : ∀ x, ¬ differ x x) (h : Within differ b x x) : b = false := by
  cases b with
  | false => rfl
  | true => exact absurd h (hirrefl x)

theorem Differ.clean (h : Differ differ wide t s s') (hword : ∀ p, ¬ differ p p)
    (hwide : ∀ x, ¬ wide x x) (hfinish : finish m s = finish m s') : t.Clean := by
  have hctx : s.ctx = s'.ctx := by
    have hfst := congrArg Prod.fst hfinish
    simp only [finish, h.updated] at hfst
    split at hfst <;> exact hfst
  have hrsp : s.mach.rsp = s'.mach.rsp := by
    have hsnd := congrArg (fun x : FrameWalkContext × MachFrame => x.2.rsp) hfinish
    simp only [finish, h.updated] at hsnd
    split at hsnd
    · exact hsnd
    · exact (BitVec.add_left_inj 8).mp hsnd
  refine ⟨fun r => ?_, fun r => ?_, ?_, ?_⟩
  · have hr := h.gpr r
    rw [hctx] at hr
    exact hr.eq_false hword
  · have hr := h.xmm r
    rw [hctx] at hr
    exact hr.eq_false hwide
  · have hr := h.rsp
    rw [hrsp] at hr
    exact hr.eq_false hword
  · cases hrip : t.rip with
    | false => rfl
    | true =>
      have hupdated := h.rip_updated hrip
      have hsnd := congrArg (fun x : FrameWalkContext × MachFrame => x.2.rip) hfinish
      simp only [finish, ← h.updated, hupdated, if_true] at hsnd
      have hr := h.rip
      rw [hsnd, hrip] at hr
      exact absurd hr (hword _)

theorem carried_any (m : Mem 64) (full : Nat) :
    Carried m (fun _ => True) full (fun _ _ _ => True) fun _ _ => True :=
  ⟨fun _ => trivial, fun _ _ _ => trivial, fun _ => trivial, fun _ => trivial⟩

theorem adds_any (undo : Undo) : Adds (fun _ => True) undo := by
  cases undo with
  | machineFrame n => exact ⟨trivial, trivial⟩
  | pop | advance | toFrame | loadGp | loadXmm | skip => trivial

def lowBytes : Mem 64 := fun a => a.setWidth 8

def LowApart {n : Nat} (c : Byte) (a b : BitVec n) : Prop := b.setWidth 8 = a.setWidth 8 + c

theorem lowApart_irrefl {n : Nat} {c : Byte} (hc : c ≠ 0) (a : BitVec n) : ¬ LowApart c a a := by
  intro h
  apply hc
  apply (BitVec.add_right_inj (a.setWidth 8)).mp
  exact h.symm.trans (BitVec.add_zero _).symm

theorem setWidth_readLE {n : Nat} (hn : 8 ≤ n) (m : Mem 64) (p : Ptr) (k : Nat) :
    (BitVec.ofNat n (readLE m p (k + 1))).setWidth 8 = m p := by
  apply BitVec.eq_of_toNat_eq
  have hlt := (m p).isLt
  have hdvd : 2 ^ 8 ∣ 2 ^ n := Nat.pow_dvd_pow 2 hn
  rw [BitVec.toNat_setWidth, BitVec.toNat_ofNat, Nat.mod_mod_of_dvd _ hdvd, readLE]
  omega

theorem carried_lowBytes (c : Byte) (full : Nat) :
    Carried lowBytes (fun _ => True) full (fun _ => LowApart c) (LowApart c) := by
  refine ⟨id, fun {k p q} n _ h => ?_, fun {k p q} h => ?_, fun {k p q} h => ?_⟩
  · rw [LowApart] at h ⊢
    rw [BitVec.setWidth_add _ _ (by decide), BitVec.setWidth_add _ _ (by decide), h]
    simp only [BitVec.add_assoc, BitVec.add_comm c]
  · rw [LowApart, readWord, readWord, setWidth_readLE (by decide), setWidth_readLE (by decide)]
    exact h
  · rw [LowApart, read128, read128, setWidth_readLE (by decide), setWidth_readLE (by decide)]
    exact h

end Vcrtl.X64.UnwindFlow

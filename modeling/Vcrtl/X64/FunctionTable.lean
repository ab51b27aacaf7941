import Vcrtl.Lib.Bisect
import Vcrtl.X64.DispatcherContext

namespace Vcrtl.X64.FunctionTable

open BugCheck EhStructs DispatcherContext Lib.Bisect

/-- `pe_function`. The range goes from `begin` up to but not including `endRva`. -/
structure PeFunction where
  begin : Rva
  endRva : Rva
  unwindInfo : Rva
  deriving DecidableEq

def PeFunction.Covers (fn : PeFunction) (pc : Rva) : Prop := fn.begin ≤ pc ∧ pc < fn.endRva

/-- `frame_walk_pdata_t`. The number of functions is kept in 32 bits. -/
structure FrameWalkPdata where
  imageBase : Ptr
  functions : List PeFunction
  imageSize : BitVec 32
  count_lt : functions.length < 2 ^ 32

/-- The distance of two pointers is signed. -/
def FrameWalkPdata.containsAddress (pdata : FrameWalkPdata) (addr : Ptr) : Prop :=
  pdata.imageBase ≤ addr ∧ (addr - pdata.imageBase).toInt < pdata.imageSize.toNat

instance (pdata : FrameWalkPdata) (addr : Ptr) : Decidable (pdata.containsAddress addr) :=
  inferInstanceAs (Decidable (_ ∧ _))

/-- The loop of `find_function_entry`. An entry is given by its position. -/
def findFrom (functions : List PeFunction) (pcRva : Rva) :
    Nat → BitVec 32 → BitVec 32 → Exec (Option Nat)
  | 0, l, r => if l < r then .error .hang else .ok none
  | fuel + 1, l, r =>
    if l < r then
      let i := l + (r - l) / 2
      match functions[i.toNat]? with
      | none => .error .fault
      | some fn =>
        if pcRva < fn.begin then
          findFrom functions pcRva fuel l i
        else if fn.endRva ≤ pcRva then
          findFrom functions pcRva fuel (i + 1) r
        else
          .ok (some i.toNat)
    else
      .ok none

def FrameWalkPdata.findFunctionEntry (pdata : FrameWalkPdata) (addr : Ptr) :
    Exec (Option Nat) := do
  verify (pdata.containsAddress addr)
  let pcRva ← makeRva addr pdata.imageBase
  let count := pdata.functions.length
  findFrom pdata.functions pcRva count 0 (.ofNat 32 count)

/-- The entries are not empty, and each one ends before the next one begins. -/
structure Sorted (functions : List PeFunction) : Prop where
  nonempty : ∀ fn ∈ functions, fn.begin < fn.endRva
  disjoint : functions.Pairwise fun a b => a.endRva ≤ b.begin

def side (functions : List PeFunction) (pc : Rva) (i : Nat) : Ordering :=
  match functions[i]? with
  | none => .lt
  | some fn => if pc < fn.begin then .lt else if fn.endRva ≤ pc then .gt else .eq

variable {functions : List PeFunction} {pc : Rva} {fn gn : PeFunction} {i j : Nat}

theorem side_entry (h : functions[i]? = some fn) : side functions pc i =
    if pc < fn.begin then .lt else if fn.endRva ≤ pc then .gt else .eq := by
  rw [side, h]

theorem side_lt (h : functions[i]? = some fn) : side functions pc i = .lt ↔ pc < fn.begin := by
  rw [side_entry h]
  by_cases hlt : pc < fn.begin
  · simp [hlt]
  · by_cases hle : fn.endRva ≤ pc <;> simp [hlt, hle]

theorem side_gt (h : functions[i]? = some fn) :
    side functions pc i = .gt ↔ fn.begin ≤ pc ∧ fn.endRva ≤ pc := by
  have hbegin : fn.begin ≤ pc ↔ ¬ pc < fn.begin := BitVec.not_lt.symm
  rw [side_entry h, hbegin]
  by_cases hlt : pc < fn.begin
  · simp [hlt]
  · by_cases hle : fn.endRva ≤ pc <;> simp [hlt, hle]

theorem side_eq (h : functions[i]? = some fn) : side functions pc i = .eq ↔ fn.Covers pc := by
  have hbegin : fn.begin ≤ pc ↔ ¬ pc < fn.begin := BitVec.not_lt.symm
  have hend : pc < fn.endRva ↔ ¬ fn.endRva ≤ pc := BitVec.not_le.symm
  rw [side_entry h, PeFunction.Covers, hbegin, hend]
  by_cases hlt : pc < fn.begin
  · simp [hlt]
  · by_cases hle : fn.endRva ≤ pc <;> simp [hlt, hle]

theorem Sorted.end_le (h : Sorted functions) (hij : i < j) (hi : functions[i]? = some fn)
    (hj : functions[j]? = some gn) : fn.endRva.toNat ≤ gn.begin.toNat := by
  obtain ⟨hilt, rfl⟩ := List.getElem?_eq_some_iff.mp hi
  obtain ⟨hjlt, rfl⟩ := List.getElem?_eq_some_iff.mp hj
  exact BitVec.le_def.mp (List.pairwise_iff_getElem.mp h.disjoint i j hilt hjlt hij)

theorem Sorted.begin_lt (h : Sorted functions) (hi : functions[i]? = some fn) :
    fn.begin.toNat < fn.endRva.toNat :=
  BitVec.lt_def.mp (h.nonempty fn (List.mem_of_getElem? hi))

theorem Sorted.ordered (h : Sorted functions) (pc : Rva) :
    Ordered (side functions pc) functions.length := by
  refine ⟨?_, ?_⟩
  · intro i j hij hj hlt
    obtain rfl | hij := Nat.eq_or_lt_of_le hij
    · exact hlt
    have hi := List.getElem?_eq_getElem (Nat.lt_trans hij hj)
    have hj := List.getElem?_eq_getElem hj
    have hend := h.end_le hij hi hj
    have hbegin := h.begin_lt hi
    rw [side_lt hi, BitVec.lt_def] at hlt
    rw [side_lt hj, BitVec.lt_def]
    omega
  · intro i j hij hj hgt
    obtain rfl | hij := Nat.eq_or_lt_of_le hij
    · exact hgt
    have hi := List.getElem?_eq_getElem (Nat.lt_trans hij hj)
    have hj := List.getElem?_eq_getElem hj
    have hend := h.end_le hij hi hj
    have hbegin := h.begin_lt hi
    rw [side_gt hj, BitVec.le_def, BitVec.le_def] at hgt
    rw [side_gt hi, BitVec.le_def, BitVec.le_def]
    omega

theorem Sorted.covers_inj (h : Sorted functions) (hi : functions[i]? = some fn)
    (hj : functions[j]? = some gn) (hfn : fn.Covers pc) (hgn : gn.Covers pc) : i = j := by
  obtain ⟨hfirst, hfirst'⟩ := hfn
  obtain ⟨hsecond, hsecond'⟩ := hgn
  rw [BitVec.le_def] at hfirst hsecond
  rw [BitVec.lt_def] at hfirst' hsecond'
  by_contra hne
  obtain hij | hji := Nat.lt_or_gt_of_ne hne
  · have hend := h.end_le hij hi hj
    omega
  · have hend := h.end_le hji hj hi
    omega

theorem toNat_middle {l r : BitVec 32} (h : l < r) :
    (l + (r - l) / 2).toNat = l.toNat + (r.toNat - l.toNat) / 2 := by
  have hlt : l.toNat < r.toNat := BitVec.lt_def.mp h
  have hr := r.isLt
  have hsub : (r - l).toNat = r.toNat - l.toNat := BitVec.toNat_sub_of_le (BitVec.le_of_lt h)
  rw [BitVec.toNat_add, BitVec.toNat_udiv, hsub]
  change (l.toNat + (r.toNat - l.toNat) / 2) % 2 ^ 32 = _
  exact Nat.mod_eq_of_lt (by omega)

theorem findFrom_bisect (pc : Rva) {fuel : Nat} {l r : BitVec 32}
    (hr : r.toNat ≤ functions.length) (hfuel : r.toNat - l.toNat ≤ fuel) :
    findFrom functions pc fuel l r = .ok (bisect (side functions pc) l.toNat r.toNat) := by
  induction fuel generalizing l r with
  | zero =>
    have hge : ¬ l.toNat < r.toNat := by omega
    rw [findFrom, if_neg (fun h => hge (BitVec.lt_def.mp h)), bisect, if_neg hge]
  | succ fuel ih =>
    by_cases hlt : l < r
    · have hmiddle := toNat_middle hlt
      have hrlt := r.isLt
      rw [BitVec.lt_def] at hlt
      have hin : l.toNat + (r.toNat - l.toNat) / 2 < functions.length := by omega
      have hget := List.getElem?_eq_getElem hin
      rw [findFrom, bisect, if_pos (BitVec.lt_def.mpr hlt), if_pos hlt]
      simp only [hmiddle, hget, side_entry hget]
      split
      · rw [ih (by omega) (by omega), hmiddle]
      · split
        · have hnext : (l + (r - l) / 2 + 1).toNat = l.toNat + (r.toNat - l.toNat) / 2 + 1 := by
            rw [BitVec.toNat_add, hmiddle]
            change (_ + 1) % 2 ^ 32 = _
            exact Nat.mod_eq_of_lt (by omega)
          rw [ih hr (by omega), hnext]
        · rfl
    · rw [findFrom, bisect, if_neg hlt, if_neg (fun h => hlt (BitVec.lt_def.mpr h))]

def FrameWalkPdata.Inside (pdata : FrameWalkPdata) (addr : Ptr) : Prop :=
  pdata.imageBase ≤ addr ∧ (addr - pdata.imageBase).toNat < pdata.imageSize.toNat

def FrameWalkPdata.CoversAt (pdata : FrameWalkPdata) (addr : Ptr) (i : Nat) : Prop :=
  ∃ fn, pdata.functions[i]? = some fn ∧ fn.Covers ((addr - pdata.imageBase).setWidth 32)

variable {pdata : FrameWalkPdata} {addr : Ptr}

theorem FrameWalkPdata.Inside.containsAddress (h : pdata.Inside addr) :
    pdata.containsAddress addr := by
  obtain ⟨hbase, hsize⟩ := h
  have hlt := pdata.imageSize.isLt
  have hint : (addr - pdata.imageBase).toInt = (addr - pdata.imageBase).toNat :=
    BitVec.toInt_eq_toNat_of_lt (by omega)
  refine ⟨hbase, ?_⟩
  rw [hint]
  exact Int.ofNat_lt.mpr hsize

theorem findFunctionEntry_bisect (h : pdata.Inside addr) : pdata.findFunctionEntry addr =
    .ok (bisect (side pdata.functions ((addr - pdata.imageBase).setWidth 32)) 0
      pdata.functions.length) := by
  have hlt := pdata.imageSize.isLt
  have hsize := h.2
  have hnarrow : (addr - pdata.imageBase).toNat ≤ 0xffffffff := by omega
  have hcount : (BitVec.ofNat 32 pdata.functions.length).toNat = pdata.functions.length := by
    rw [BitVec.toNat_ofNat, Nat.mod_eq_of_lt pdata.count_lt]
  have hloop := findFrom_bisect ((addr - pdata.imageBase).setWidth 32) (l := 0)
    (Nat.le_of_eq hcount) (Nat.sub_le _ _)
  rw [hcount] at hloop
  simp only [FrameWalkPdata.findFunctionEntry, makeRva, verify, if_pos h.containsAddress,
    if_pos hnarrow]
  exact hloop

theorem findFunctionEntry_outside (h : ¬ pdata.Inside addr) :
    pdata.findFunctionEntry addr = onBugCheck .assertionFailure := by
  by_cases hcontains : pdata.containsAddress addr
  · have hwide : ¬ (addr - pdata.imageBase).toNat ≤ 0xffffffff := by
      intro hle
      apply h
      have hint : (addr - pdata.imageBase).toInt = (addr - pdata.imageBase).toNat :=
        BitVec.toInt_eq_toNat_of_lt (by omega)
      have hsize := hcontains.2
      rw [hint] at hsize
      exact ⟨hcontains.1, Int.ofNat_lt.mp hsize⟩
    simp only [FrameWalkPdata.findFunctionEntry, makeRva, verify, if_pos hcontains, if_neg hwide]
    rfl
  · simp only [FrameWalkPdata.findFunctionEntry, verify, if_neg hcontains]
    rfl

theorem side_coversAt : i < pdata.functions.length ∧
    side pdata.functions ((addr - pdata.imageBase).setWidth 32) i = .eq ↔
      pdata.CoversAt addr i := by
  refine ⟨?_, ?_⟩
  · rintro ⟨hi, heq⟩
    have hget := List.getElem?_eq_getElem hi
    exact ⟨_, hget, (side_eq hget).mp heq⟩
  · rintro ⟨fn, hget, hfn⟩
    exact ⟨(List.getElem?_eq_some_iff.mp hget).1, (side_eq hget).mpr hfn⟩

theorem findFunctionEntry_none (h : pdata.Inside addr) (hnone : ∀ i, ¬ pdata.CoversAt addr i) :
    pdata.findFunctionEntry addr = .ok none := by
  rw [findFunctionEntry_bisect h]
  cases hfound : bisect (side pdata.functions ((addr - pdata.imageBase).setWidth 32)) 0
      pdata.functions.length with
  | none => rfl
  | some i =>
    obtain ⟨-, hi⟩ := bisect_found hfound
    exact absurd (side_coversAt.mp hi) (hnone i)

/-- The lookup ends, and it finds the one entry that has the address, or nothing if none has. -/
theorem find_function_entry (hsorted : Sorted pdata.functions) (h : pdata.Inside addr) :
    ∃ found, pdata.findFunctionEntry addr = .ok found ∧
      (∀ i, found = some i ↔ pdata.CoversAt addr i) ∧
      (found = none ↔ ∀ i, ¬ pdata.CoversAt addr i) := by
  have hone : ∀ i j, i < pdata.functions.length → j < pdata.functions.length →
      side pdata.functions ((addr - pdata.imageBase).setWidth 32) i = .eq →
      side pdata.functions ((addr - pdata.imageBase).setWidth 32) j = .eq → i = j := by
    intro i j hi hj hieq hjeq
    obtain ⟨fn, hfn, hfncovers⟩ := side_coversAt.mp ⟨hi, hieq⟩
    obtain ⟨gn, hgn, hgncovers⟩ := side_coversAt.mp ⟨hj, hjeq⟩
    exact hsorted.covers_inj hfn hgn hfncovers hgncovers
  have hfound (i : Nat) : bisect (side pdata.functions ((addr - pdata.imageBase).setWidth 32)) 0
      pdata.functions.length = some i ↔ pdata.CoversAt addr i := by
    rw [bisect_eq_some_iff (hsorted.ordered _) hone, side_coversAt]
  refine ⟨_, findFunctionEntry_bisect h, hfound, ?_⟩
  rw [Option.eq_none_iff_forall_ne_some]
  simp only [ne_eq, hfound]

def smallTable : FrameWalkPdata :=
  ⟨0x400000, [⟨0x1000, 0x1080, 0x2000⟩, ⟨0x1090, 0x1100, 0x2010⟩], 0x3000, by decide⟩

theorem find_function_entry_small : ∃ found, smallTable.findFunctionEntry 0x401095 = .ok found ∧
    (∀ i, found = some i ↔ smallTable.CoversAt 0x401095 i) ∧
    (found = none ↔ ∀ i, ¬ smallTable.CoversAt 0x401095 i) := by
  have hsorted : Sorted smallTable.functions :=
    ⟨by simp [smallTable], by simp [smallTable]⟩
  exact find_function_entry hsorted ⟨by decide, by decide⟩

end Vcrtl.X64.FunctionTable

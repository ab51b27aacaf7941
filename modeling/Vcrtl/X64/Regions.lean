import Vcrtl.X64.Fh3
import Vcrtl.X64.HandlerMap

namespace Vcrtl.X64.Regions

open Lib.Memory BugCheck EhStructs Compressed DispatcherContext

structure Region where
  start : Rva
  state : Int
  state_ge : -2 ^ 31 ≤ state
  state_lt : state < 2 ^ 31

structure RegionMap where
  regions : List Region
  sorted : regions.Pairwise fun a b => a.start ≤ b.start

/-- The state of the last region that starts at an address or before it, if there is one. -/
def lastState (state : Int) (regions : List Region) (pc : Rva) : Int :=
  ((regions.reverse.find? fun r => r.start ≤ pc).map Region.state).getD state

def stateAt (regions : List Region) (pc : Rva) : Int := lastState (-1) regions pc

section

variable (m : Mem 64)

/-- Regions lie one behind the other from an address on, each by its distance from
the start of the previous one and by the number above its state. -/
def RegionsAt : Rva → List Region → Ptr → Prop
  | _, [], _ => True
  | previous, r :: rs, p => ∃ distance state, Encodes (r.start - previous) distance ∧
      Encodes (.ofInt 32 (r.state + 1)) state ∧ Holds m p (distance ++ state) ∧
      RegionsAt r.start rs (p + .ofNat 64 (distance ++ state).length)

def RegionMapAt (map : RegionMap) (p : Ptr) : Prop :=
  ∃ count, map.regions.length < 2 ^ 32 ∧ Encodes (.ofNat 32 map.regions.length) count ∧
    Holds m p count ∧ RegionsAt m 0 map.regions (p + .ofNat 64 count.length)

def RegionsOf (imageBase : Ptr) (map : Option RegionMap) (regions : Rva) : Prop :=
  match map with
  | none => regions = 0
  | some map => regions ≠ 0 ∧ RegionMapAt m map (displace imageBase regions)

end

variable {m : Mem 64}

theorem toInt_state {r : Region} : ((BitVec.ofInt 32 (r.state + 1) - 1 : BitVec 32)).toInt =
    r.state := by
  have hge := r.state_ge
  have hlt := r.state_lt
  have hsub : (BitVec.ofInt 32 (r.state + 1) - 1 : BitVec 32) = BitVec.ofInt 32 r.state := by
    rw [BitVec.ofInt_add]
    exact BitVec.add_sub_cancel _ _
  rw [hsub]
  exact BitVec.toInt_ofInt_eq_self (by decide) hge hlt

theorem lastState_cons {state : Int} {r : Region} {rs : List Region} {pc : Rva}
    (h : r.start ≤ pc) : lastState state (r :: rs) pc = lastState r.state rs pc := by
  have hlast : [r].find? (fun r => r.start ≤ pc) = some r :=
    List.find?_cons_of_pos (by simpa using h)
  rw [lastState, lastState, List.reverse_cons, List.find?_append, hlast]
  cases rs.reverse.find? fun r => r.start ≤ pc with
  | some r' => rfl
  | none => rfl

theorem lastState_before {state : Int} {rs : List Region} {pc : Rva}
    (h : ∀ r ∈ rs, pc < r.start) : lastState state rs pc = state := by
  have hnone : (rs.reverse.find? fun r => r.start ≤ pc) = none := by
    rw [List.find?_eq_none]
    intro r hr
    have hlt := h r (List.mem_reverse.mp hr)
    simpa using hlt
  rw [lastState, hnone]
  rfl

theorem before_all {r : Region} {rs : List Region} {pc : Rva}
    (hsorted : (r :: rs).Pairwise fun a b => a.start ≤ b.start) (h : pc < r.start) :
    ∀ x ∈ r :: rs, pc < x.start := by
  intro x hx
  obtain rfl | hx := List.mem_cons.mp hx
  · exact h
  · have hle := (List.pairwise_cons.mp hsorted).1 x hx
    exact BitVec.lt_def.mpr (Nat.lt_of_lt_of_le (BitVec.lt_def.mp h) (BitVec.le_def.mp hle))

theorem stateFrom_regionsAt {previous : Rva} {rs : List Region} {p : Ptr} {pc : Rva} {state : Int}
    (hsorted : rs.Pairwise fun a b => a.start ≤ b.start) (h : RegionsAt m previous rs p) :
    Fh4.stateFrom m pc rs.length p previous state = lastState state rs pc := by
  induction rs generalizing previous p state with
  | nil => rfl
  | cons r rs ih =>
    obtain ⟨distance, next, hdistance, hnext, hm, hrest⟩ := h
    rw [holds_append] at hm
    have hstart : previous + (r.start - previous) = r.start := by
      rw [BitVec.add_comm, BitVec.sub_add_cancel]
    simp only [List.length_cons, Fh4.stateFrom, readUnsigned_encodes hdistance hm.1, hstart,
      readUnsigned_encodes hnext hm.2, add_ofNat_add, toInt_state]
    split
    · rename_i hlt
      rw [lastState_before (before_all hsorted hlt)]
    · rename_i hge
      have hle : r.start ≤ pc := BitVec.not_lt.mp hge
      rw [List.length_append] at hrest
      rw [ih (List.pairwise_cons.mp hsorted).2 hrest, lastState_cons hle]

theorem fh4_lookupRegion {imageBase : Ptr} {ehInfo : Fh4.EhInfo} {map : Option RegionMap}
    (hregions : RegionsOf m imageBase map ehInfo.regions) (fnBegin offset : Rva) :
    Fh4.lookupRegion m imageBase ehInfo fnBegin
        (displace (displace imageBase fnBegin) offset) =
      .ok (stateAt ((map.map RegionMap.regions).getD []) offset) := by
  cases map with
  | none =>
    have hzero : ehInfo.regions = 0 := hregions
    rw [Fh4.lookupRegion, if_pos hzero]
    rfl
  | some map =>
    obtain ⟨hne, count, hlt, hcount, hm, hrest⟩ := hregions
    have hlength : (BitVec.ofNat 32 map.regions.length).toNat = map.regions.length := by
      rw [BitVec.toNat_ofNat, Nat.mod_eq_of_lt hlt]
    simp only [Fh4.lookupRegion, if_neg hne, makeRva_offset, bind, Except.bind,
      readUnsigned_encodes hcount hm, hlength, stateFrom_regionsAt map.sorted hrest]
    rfl

def plain (fnBegin : Rva) (r : Region) : EhRegion := ⟨fnBegin + r.start, r.state⟩

theorem toNat_add_fits {a b : Rva} (h : a.toNat + b.toNat < 2 ^ 32) :
    (a + b).toNat = a.toNat + b.toNat := by
  rw [BitVec.toNat_add, Nat.mod_eq_of_lt h]

theorem displace_displace {base : Ptr} {a b : Rva} (h : a.toNat + b.toNat < 2 ^ 32) :
    displace (displace base a) b = displace base (a + b) := by
  have hwide : (a + b).setWidth 64 = a.setWidth 64 + b.setWidth 64 := by
    apply BitVec.eq_of_toNat_eq
    simp only [BitVec.toNat_setWidth, BitVec.toNat_add]
    omega
  rw [displace, displace, displace, hwide, BitVec.add_assoc]

theorem fh3_stateFrom {fnBegin offset : Rva} {rs : List Region} {state : Int}
    (hsorted : rs.Pairwise fun a b => a.start ≤ b.start)
    (hfits : ∀ r ∈ rs, fnBegin.toNat + r.start.toNat < 2 ^ 32)
    (hpc : fnBegin.toNat + offset.toNat < 2 ^ 32) :
    Fh3.stateFrom state (fnBegin + offset) (rs.map (plain fnBegin)) =
      lastState state rs offset := by
  induction rs generalizing state with
  | nil => rfl
  | cons r rs ih =>
    obtain ⟨hr, hrs⟩ := List.forall_mem_cons.mp hfits
    have hlt : fnBegin + offset < fnBegin + r.start ↔ offset < r.start := by
      rw [BitVec.lt_def, BitVec.lt_def, toNat_add_fits hr, toNat_add_fits hpc]
      omega
    simp only [List.map_cons, Fh3.stateFrom, plain, hlt]
    split
    · rename_i hbefore
      rw [lastState_before (before_all hsorted hbefore)]
    · rename_i hge
      have hle : r.start ≤ offset := BitVec.not_lt.mp hge
      rw [lastState_cons hle]
      exact ih (List.pairwise_cons.mp hsorted).2 hrs

def fh3Lookup (imageBase : Ptr) (fnBegin : Rva) (rs : List Region) (controlPc : Ptr) :
    Exec Int := do
  let pc ← makeRva controlPc imageBase
  Fh3.lookupRegion (rs.map (plain fnBegin)) pc

theorem fh3Lookup_cons {imageBase : Ptr} {fnBegin offset : Rva} {r : Region} {rs : List Region}
    (hsorted : (r :: rs).Pairwise fun a b => a.start ≤ b.start)
    (hfits : ∀ r ∈ rs, fnBegin.toNat + r.start.toNat < 2 ^ 32)
    (hpc : fnBegin.toNat + offset.toNat < 2 ^ 32) :
    fh3Lookup imageBase fnBegin (r :: rs) (displace (displace imageBase fnBegin) offset) =
      .ok (lastState r.state rs offset) := by
  rw [fh3Lookup, displace_displace hpc, makeRva_offset]
  rw [← fh3_stateFrom (List.pairwise_cons.mp hsorted).2 hfits hpc]
  rfl

/-- Both lookups give the state of the last region that starts at an address or before it exactly
if there is a region, and the first one starts in time or has no state. -/
theorem lookups_agree_iff {imageBase : Ptr} {fnBegin offset : Rva} {ehInfo : Fh4.EhInfo}
    {map : Option RegionMap} {rs : List Region} (hmap : rs = (map.map RegionMap.regions).getD [])
    (hregions : RegionsOf m imageBase map ehInfo.regions)
    (hfits : ∀ r ∈ rs, fnBegin.toNat + r.start.toNat < 2 ^ 32)
    (hpc : fnBegin.toNat + offset.toNat < 2 ^ 32) :
    (fh3Lookup imageBase fnBegin rs (displace (displace imageBase fnBegin) offset) =
        .ok (stateAt rs offset) ∧
      Fh4.lookupRegion m imageBase ehInfo fnBegin (displace (displace imageBase fnBegin) offset) =
        .ok (stateAt rs offset)) ↔
    ∃ r rest, rs = r :: rest ∧ (r.start ≤ offset ∨ r.state = -1) := by
  have hfh4 := fh4_lookupRegion hregions fnBegin offset
  rw [← hmap] at hfh4
  have hsorted : rs.Pairwise fun a b => a.start ≤ b.start := by
    subst hmap
    cases map with
    | none => exact .nil
    | some map => exact map.sorted
  cases rs with
  | nil =>
    have hfault : fh3Lookup imageBase fnBegin [] (displace (displace imageBase fnBegin) offset) =
        .error .fault := by
      rw [fh3Lookup, displace_displace hpc, makeRva_offset]
      rfl
    rw [hfault]
    simp
  | cons r rs =>
    rw [fh3Lookup_cons hsorted (fun x hx => hfits x (List.mem_cons_of_mem _ hx)) hpc]
    simp only [hfh4, and_true, Except.ok.injEq, List.cons.injEq]
    by_cases hle : r.start ≤ offset
    · rw [stateAt, lastState_cons hle]
      simp [hle]
    · have hbefore := before_all hsorted (BitVec.not_le.mp hle)
      have hnone : lastState r.state rs offset = r.state :=
        lastState_before (List.forall_mem_cons.mp hbefore).2
      rw [stateAt, lastState_before hbefore, hnone]
      simp [hle]

/-- A function that is in no state before its first region, which is 8 bytes into it, and behind
the second one. -/
def lateRegions : List Region :=
  [⟨8, 0, by decide, by decide⟩, ⟨0x20, 2, by decide, by decide⟩, ⟨0x30, -1, by decide, by decide⟩]

def lateMap : RegionMap := ⟨lateRegions, by decide⟩

def lateImage : Mem 64 :=
  write (fun _ => 0) 0x400100 [0x06, 0x10, 0x02, 0x30, 0x06, 0x20, 0x00]

def lateInfo : Fh4.EhInfo := ⟨0, 0, 0, 0, 0x100, 0⟩

theorem regionsOf_late : RegionsOf lateImage 0x400000 (some lateMap) lateInfo.regions := by
  have hbyte (v : BitVec 32) (hv : v.toNat < 2 ^ 7) :
      Encodes v (bytesLE 1 (v.toNat * 2 ^ 1 + (2 ^ (1 - 1) - 1))) :=
    .inl ⟨1, Nat.le_refl 1, by decide, hv, rfl⟩
  refine ⟨by decide, [0x06], by decide, hbyte 3 (by decide), by decide, ?_⟩
  refine ⟨[0x10], [0x02], hbyte 8 (by decide), hbyte 1 (by decide), by decide, ?_⟩
  refine ⟨[0x30], [0x06], hbyte 0x18 (by decide), hbyte 3 (by decide), by decide, ?_⟩
  exact ⟨[0x20], [0x00], hbyte 0x10 (by decide), hbyte 0 (by decide), by decide, trivial⟩

theorem lookups_agree_late :
    fh3Lookup 0x400000 0x20 lateRegions (displace (displace 0x400000 0x20) 0x28) = .ok 2 ∧
      Fh4.lookupRegion lateImage 0x400000 lateInfo 0x20
        (displace (displace 0x400000 0x20) 0x28) = .ok 2 := by
  have hfits : ∀ r ∈ lateRegions, (0x20 : Rva).toNat + r.start.toNat < 2 ^ 32 := by decide
  exact (lookups_agree_iff rfl regionsOf_late hfits (by decide)).mpr
    ⟨_, _, rfl, .inl (by decide)⟩

/-- Before the first region the plain lookup gives its state, and without a region it reads what is
not there. -/
theorem lookups_differ :
    RegionsOf lateImage 0x400000 (some lateMap) lateInfo.regions ∧
    fh3Lookup 0x400000 0x20 lateRegions (displace (displace 0x400000 0x20) 0x4) = .ok 0 ∧
    Fh4.lookupRegion lateImage 0x400000 lateInfo 0x20 (displace (displace 0x400000 0x20) 0x4) =
      .ok (-1) ∧
    stateAt lateRegions 0x4 = -1 ∧
    fh3Lookup 0x400000 0x20 [] (displace (displace 0x400000 0x20) 0x4) = .error .fault :=
  ⟨regionsOf_late, rfl, rfl, rfl, rfl⟩

end Vcrtl.X64.Regions

import Vcrtl.X64.Regions

namespace Vcrtl.X64.FunctionInfo

open Lib.Memory EhFlags EhStructs Compressed HandlerMap Regions

structure Funclet where
  begin : Rva
  regions : Option RegionMap

/-- A function has one map of regions, or one for each of its funclets. -/
inductive RegionTable
  | whole (regions : Option RegionMap)
  | perFunclet (funclets : List Funclet)

def RegionTable.mapOf (fnBegin : Rva) : RegionTable → Option RegionMap
  | .whole regions => regions
  | .perFunclet funclets => (funclets.find? fun f => f.begin == fnBegin).bind Funclet.regions

structure Description where
  flags : Byte
  bbtFlags : Option (BitVec 32)
  unwindMap : Option Rva
  tryMap : Option Rva
  regions : RegionTable
  primaryFrame : Option (BitVec 32)

section

variable (m : Mem 64) (imageBase : Ptr)

def FuncletsAt : List Funclet → Ptr → Prop
  | [], _ => True
  | f :: fs, p => ∃ regions : Rva,
      Holds m p (bytesLE 4 f.begin.toNat ++ bytesLE 4 regions.toNat) ∧
      RegionsOf m imageBase f.regions regions ∧ FuncletsAt fs (p + .ofNat 64 8)

def FuncletMapAt (funclets : List Funclet) (p : Ptr) : Prop :=
  ∃ count, funclets.length < 2 ^ 32 ∧ Encodes (.ofNat 32 funclets.length) count ∧
    Holds m p count ∧ FuncletsAt m imageBase funclets (p + .ofNat 64 count.length)

/-- The offset leads to the regions of the whole function, or to the map of its funclets. -/
def TableAt (flags : Byte) (table : RegionTable) (offset : Rva) : Prop :=
  if hasAnyOf flags Eh4Flag.hasMultipleFunclets then
    ∃ funclets, table = .perFunclet funclets ∧
      FuncletMapAt m imageBase funclets (displace imageBase offset)
  else
    ∃ regions, table = .whole regions ∧ RegionsOf m imageBase regions offset

def EncodesField {α : Type} (encodes : α → List Byte → Prop) (flag : Bool) (v : Option α)
    (bs : List Byte) : Prop :=
  if flag then ∃ x, v = some x ∧ encodes x bs else v = none ∧ bs = []

def EncodesInfo (info : Description) (bs : List Byte) : Prop :=
  ∃ (bbtFlags unwindMap tryMap primaryFrame : List Byte) (offset : Rva),
    bs = info.flags ::
      (bbtFlags ++ (unwindMap ++ (tryMap ++ (bytesLE 4 offset.toNat ++ primaryFrame)))) ∧
    EncodesField Encodes (hasAnyOf info.flags Eh4Flag.bbt) info.bbtFlags bbtFlags ∧
    EncodesField EncodesRva (hasAnyOf info.flags Eh4Flag.hasUnwindMap) info.unwindMap unwindMap ∧
    EncodesField EncodesRva (hasAnyOf info.flags Eh4Flag.hasTryBlockMap) info.tryMap tryMap ∧
    TableAt m imageBase info.flags info.regions offset ∧
    EncodesField Encodes (hasAnyOf info.flags Eh4Flag.isCatchFunclet) info.primaryFrame primaryFrame

end

variable {m : Mem 64} {imageBase : Ptr} {fnBegin : Rva}

theorem findFunclet_funcletsAt {funclets : List Funclet} {p : Ptr}
    (h : FuncletsAt m imageBase funclets p) :
    RegionsOf m imageBase (RegionTable.mapOf fnBegin (.perFunclet funclets))
      (Fh4.findFunclet m fnBegin funclets.length p) := by
  induction funclets generalizing p with
  | nil => rfl
  | cons f fs ih =>
    obtain ⟨regions, hm, hregions, hrest⟩ := h
    rw [holds_append, length_bytesLE] at hm
    have hfirst := readRva_encodes rfl hm.1
    have hsecond := readRva_encodes rfl hm.2
    rw [length_bytesLE] at hfirst hsecond
    simp only [List.length_cons, Fh4.findFunclet, hfirst, hsecond, add_ofNat_add]
    by_cases hbegin : f.begin = fnBegin
    · have hfind : (f :: fs).find? (fun f => f.begin == fnBegin) = some f :=
        List.find?_cons_of_pos (beq_iff_eq.mpr hbegin)
      rw [if_pos hbegin, RegionTable.mapOf, hfind]
      exact hregions
    · have hfind : (f :: fs).find? (fun f => f.begin == fnBegin) =
          fs.find? fun f => f.begin == fnBegin :=
        List.find?_cons_of_neg (by simpa using hbegin)
      rw [if_neg hbegin, RegionTable.mapOf, hfind]
      exact ih hrest

theorem read_field {read : Ptr → BitVec 32 × Ptr} {encodes : BitVec 32 → List Byte → Prop}
    (hread : ∀ {v bs q}, encodes v bs → Holds m q bs → read q = (v, q + .ofNat 64 bs.length))
    {flag : Bool} {v : Option (BitVec 32)} {bs : List Byte} {q : Ptr}
    (h : EncodesField encodes flag v bs) (hm : Holds m q bs) :
    (if flag then read q else (0, q)) = (v.getD 0, q + .ofNat 64 bs.length) :=
  readOption_encodes hread h hm

theorem read_table {flags : Byte} {table : RegionTable} {offset : Rva} {q : Ptr} (fnBegin : Rva)
    (h : TableAt m imageBase flags table offset) (hm : Holds m q (bytesLE 4 offset.toNat)) :
    ∃ regions, RegionsOf m imageBase (table.mapOf fnBegin) regions ∧
      (if hasAnyOf flags Eh4Flag.hasMultipleFunclets then
        let (funcletMap, data) := readRva m q
        let (count, p) := readUnsigned m (displace imageBase funcletMap)
        (Fh4.findFunclet m fnBegin count.toNat p, data)
      else readRva m q) = (regions, q + .ofNat 64 4) := by
  have hread := readRva_encodes rfl hm
  rw [length_bytesLE] at hread
  rw [TableAt] at h
  split at h
  · rename_i hflag
    obtain ⟨funclets, rfl, count, hlt, hcount, hmcount, hrest⟩ := h
    have hlength : (BitVec.ofNat 32 funclets.length).toNat = funclets.length := by
      rw [BitVec.toNat_ofNat, Nat.mod_eq_of_lt hlt]
    refine ⟨_, findFunclet_funcletsAt hrest, ?_⟩
    simp only [if_pos hflag, hread, readUnsigned_encodes hcount hmcount, hlength]
  · rename_i hflag
    obtain ⟨regions, rfl, hregions⟩ := h
    refine ⟨offset, hregions, ?_⟩
    rw [if_neg hflag, hread]

def Recovers (m : Mem 64) (imageBase : Ptr) (fnBegin : Rva) (info : Description)
    (ehInfo : Fh4.EhInfo) : Prop :=
  ehInfo.flags = info.flags ∧ ehInfo.bbtFlags = info.bbtFlags.getD 0 ∧
    ehInfo.unwindGraph = info.unwindMap.getD 0 ∧ ehInfo.tryBlocks = info.tryMap.getD 0 ∧
    ehInfo.primaryFramePtr = info.primaryFrame.getD 0 ∧
    RegionsOf m imageBase (info.regions.mapOf fnBegin) ehInfo.regions

theorem loadEhInfo_recovers {info : Description} {bs : List Byte} {data : Ptr}
    (h : EncodesInfo m imageBase info bs) (hm : Holds m data bs) :
    Recovers m imageBase fnBegin info (Fh4.loadEhInfo m imageBase fnBegin data) := by
  obtain ⟨bbtFlags, unwindMap, tryMap, primaryFrame, offset, rfl, hbbt, hunwind, htry, htable,
    hprimary⟩ := h
  obtain ⟨hflags, hm⟩ := hm
  simp only [holds_append, length_bytesLE] at hm
  obtain ⟨hmbbt, hmunwind, hmtry, hmoffset, hmprimary⟩ := hm
  have hreadBbt := read_field readUnsigned_encodes hbbt hmbbt
  have hreadUnwind := read_field readRva_encodes hunwind hmunwind
  have hreadTry := read_field readRva_encodes htry hmtry
  obtain ⟨regions, hregions, hreadTable⟩ := read_table fnBegin htable hmoffset
  have hreadPrimary := congrArg Prod.fst (read_field readUnsigned_encodes hprimary hmprimary)
  rw [apply_ite Prod.fst] at hreadPrimary
  simp only [] at hreadTable
  simp only [Fh4.loadEhInfo, hflags, hreadBbt, hreadUnwind, hreadTry, hreadTable, hreadPrimary]
  exact ⟨rfl, rfl, rfl, rfl, rfl, hregions⟩

/-- A function is read as what its bytes describe, and at every address in a funclet the state is
that of the last region of the funclet that starts there or before. -/
theorem function_info {info : Description} {bs : List Byte} {data : Ptr}
    (h : EncodesInfo m imageBase info bs) (hm : Holds m data bs) (fnBegin offset : Rva) :
    Recovers m imageBase fnBegin info (Fh4.loadEhInfo m imageBase fnBegin data) ∧
      Fh4.lookupRegion m imageBase (Fh4.loadEhInfo m imageBase fnBegin data) fnBegin
          (displace (displace imageBase fnBegin) offset) =
        .ok (stateAt (((info.regions.mapOf fnBegin).map RegionMap.regions).getD []) offset) := by
  have hrecovers : Recovers m imageBase fnBegin info _ := loadEhInfo_recovers h hm
  exact ⟨hrecovers, fh4_lookupRegion hrecovers.2.2.2.2.2 fnBegin offset⟩

def twoFunclets : Description where
  flags := 0x0b
  bbtFlags := none
  unwindMap := some 0x200
  tryMap := none
  regions := .perFunclet
    [⟨0x20, none⟩, ⟨0x40, some ⟨[⟨4, 1, by decide, by decide⟩], .cons (by simp) .nil⟩⟩]
  primaryFrame := some 0x28

def headerBytes : List Byte :=
  0x0b :: ([] ++ (bytesLE 4 0x200 ++ ([] ++ (bytesLE 4 0x120 ++ [0x50]))))

def funcletBytes : List Byte :=
  [0x04] ++ ((bytesLE 4 0x20 ++ bytesLE 4 0) ++ (bytesLE 4 0x40 ++ bytesLE 4 0x150))

def image : Mem 64 :=
  writeAll (fun _ => 0) [(0x400100, headerBytes), (0x400120, funcletBytes),
    (0x400150, [0x02, 0x08, 0x04])]

theorem encodesInfo_twoFunclets : EncodesInfo image 0x400000 twoFunclets headerBytes := by
  have hbyte : ∀ n < 128, Encodes (.ofNat 32 n) [.ofNat 8 (n * 2)] := by
    intro n hn
    refine .inl ⟨1, by decide, by decide, ?_, ?_⟩
    · rw [BitVec.toNat_ofNat]
      omega
    · rw [BitVec.toNat_ofNat, Nat.mod_eq_of_lt (by omega)]
      rfl
  refine ⟨[], bytesLE 4 0x200, [], [0x50], 0x120, rfl, ⟨rfl, rfl⟩, ⟨0x200, rfl, rfl⟩, ⟨rfl, rfl⟩,
    ?_, ⟨0x28, rfl, hbyte 0x28 (by decide)⟩⟩
  refine ⟨_, rfl, [0x04], by decide, hbyte 2 (by decide), by decide, ?_⟩
  refine ⟨0, by decide, rfl, 0x150, by decide, ?_, trivial⟩
  refine ⟨by decide, [0x02], by decide, hbyte 1 (by decide), by decide, ?_⟩
  exact ⟨[0x08], [0x04], hbyte 4 (by decide), hbyte 2 (by decide), by decide, trivial⟩

theorem function_info_twoFunclets :
    Recovers image 0x400000 0x40 twoFunclets (Fh4.loadEhInfo image 0x400000 0x40 0x400100) ∧
      Fh4.lookupRegion image 0x400000 (Fh4.loadEhInfo image 0x400000 0x40 0x400100) 0x40
          (displace (displace 0x400000 0x40) 0x8) = .ok 1 :=
  function_info encodesInfo_twoFunclets (by decide) 0x40 0x8

end Vcrtl.X64.FunctionInfo

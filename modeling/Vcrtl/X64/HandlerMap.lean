import Vcrtl.X64.Fh4

namespace Vcrtl.X64.HandlerMap

open Lib.Memory BugCheck EhFlags EhStructs Throw CatchFrame CatchVariable CatchBlock Compressed
  DispatcherContext Fh4

/-- A try block, as a map of try blocks describes it. -/
structure MapBlock where
  tryLow : BitVec 32
  tryHigh : BitVec 32
  handlers : List CatchBlock

section

variable (m : Mem 64) (imageBase : Ptr) (fnBegin : Rva)

def readHandlers : Nat → Ptr → List CatchBlock
  | 0, _ => []
  | count + 1, q =>
    let (block, q) := readCatchBlock m imageBase fnBegin q
    block :: readHandlers count q

def readTryBlocks : Nat → Ptr → List MapBlock
  | 0, _ => []
  | count + 1, p =>
    let (tryLow, p) := readUnsigned m p
    let (tryHigh, p) := readUnsigned m p
    let (_, p) := readUnsigned m p
    let (handlers, p) := readRva m p
    let (handlerCount, q) := readUnsigned m (displace imageBase handlers)
    ⟨tryLow, tryHigh, readHandlers m imageBase fnBegin handlerCount.toNat q⟩ ::
      readTryBlocks count p

def tryBlocksOf (ehInfo : EhInfo) : List MapBlock :=
  if ehInfo.tryBlocks ≠ 0 then
    let (count, p) := readUnsigned m (displace imageBase ehInfo.tryBlocks)
    readTryBlocks m imageBase fnBegin count.toNat p
  else
    []

end

section

variable (env : Env) (frames : List Frame)

def takeHandlers (primaryFramePtr : Ptr) (throwInfo : Option ThrowInfo) (tryLow : BitVec 32) :
    List CatchBlock → Dispatch → Exec (Dispatch × Bool)
  | [], d => .ok (d, false)
  | block :: blocks, d => do
    let ci ← setContinuationAddress d.catchInfo block.continuationAddress
    let object ← ci.getExceptionObject env.infoAt
    let (found, s) ← processCatchBlock env.code env.imageBase block.typeFlags
      (displace env.imageBase block.type) (displace primaryFramePtr block.catchVar) object
      throwInfo d.world
    if found then
      let ci := { ci with
        primaryFramePtr := primaryFramePtr
        unwindContext := setContextState ci.unwindContext (tryLow - 1).toInt }
      return (⟨ci, displace env.imageBase block.handler, s⟩, true)
    else
      takeHandlers primaryFramePtr throwInfo tryLow blocks { d with catchInfo := ci, world := s }

def takeTryBlocks (primaryFramePtr : Ptr) (state : Int) :
    List MapBlock → Option ThrowInfo → Search → Exec Search
  | [], _, r => .ok r
  | t :: ts, throwInfo, r =>
    if t.tryLow.toNat > state.toNat ∨ state.toNat > t.tryHigh.toNat then
      takeTryBlocks primaryFramePtr state ts throwInfo r
    else do
      let (ci, throwInfo) ← probeUnless env.infoAt frames throwInfo r.dispatch.catchInfo
      let (d, found) ← takeHandlers env primaryFramePtr throwInfo t.tryLow t.handlers
        { r.dispatch with catchInfo := ci }
      let r := ⟨d, if found then some t.tryLow else r.found⟩
      if d.handler ≠ null then
        return r
      else
        takeTryBlocks primaryFramePtr state ts throwInfo r

variable {env frames} {f : FunctionFrame}

theorem matchHandlers_read (primaryFramePtr q : Ptr) (throwInfo : Option ThrowInfo)
    (tryLow : BitVec 32) (count : Nat) (d : Dispatch) :
    matchHandlers env f primaryFramePtr throwInfo tryLow count q d =
      takeHandlers env primaryFramePtr throwInfo tryLow
        (readHandlers env.image env.imageBase f.fnBegin count q) d := by
  induction count generalizing q d with
  | zero => rfl
  | succ count ih => simp only [matchHandlers, readHandlers, takeHandlers, ih]

theorem matchTryBlocks_read (primaryFramePtr p : Ptr) (state : Int) (throwInfo : Option ThrowInfo)
    (count : Nat) (r : Search) :
    matchTryBlocks env frames f primaryFramePtr state count p throwInfo r =
      takeTryBlocks env frames primaryFramePtr state
        (readTryBlocks env.image env.imageBase f.fnBegin count p) throwInfo r := by
  induction count generalizing p throwInfo r with
  | zero => rfl
  | succ count ih =>
    simp only [matchTryBlocks, readTryBlocks, takeTryBlocks, matchHandlers_read, ih]

/-- The search that decodes as it goes is one over the decoded list. -/
theorem search_tryBlocksOf {ehInfo : EhInfo} {primaryFramePtr : Ptr} {state : Int} {d : Dispatch}
    (hstate : 0 ≤ state) (htry : ehInfo.tryBlocks ≠ 0) :
    search env frames f ehInfo primaryFramePtr state d = (do
      let throwInfo ← d.catchInfo.getThrowInfo env.infoAt
      takeTryBlocks env frames primaryFramePtr state
        (tryBlocksOf env.image env.imageBase f.fnBegin ehInfo) throwInfo ⟨d, none⟩) := by
  simp only [search, tryBlocksOf, if_pos htry, if_pos (And.intro htry hstate), matchTryBlocks_read]

end

structure Clause where
  adjectives : BitVec 32
  type : Option Rva
  catchVar : Option Rva
  handler : Rva
  continuationAddress : List Ptr
  room : continuationAddress.length ≤ 2

def Clause.block (c : Clause) : CatchBlock :=
  ⟨c.adjectives, c.type.getD 0, c.catchVar.getD 0, c.handler, c.continuationAddress⟩

/-- A try block, whatever format describes it. Its states are those of an `int32_t`. -/
structure Block where
  tryLow : Nat
  tryHigh : Nat
  catchHigh : Nat
  clauses : List Clause
  tryLow_lt : tryLow < 2 ^ 31
  tryHigh_lt : tryHigh < 2 ^ 31
  catchHigh_lt : catchHigh < 2 ^ 31

def Block.decoded (b : Block) : MapBlock :=
  ⟨.ofNat 32 b.tryLow, .ofNat 32 b.tryHigh, b.clauses.map Clause.block⟩

def EncodesAll (encodes : BitVec 32 → List Byte → Prop) (base : Ptr) :
    List Ptr → List Byte → Prop
  | [], bs => bs = []
  | a :: as, bs => ∃ offset first rest, bs = first ++ rest ∧ a = displace base offset ∧
      encodes offset first ∧ EncodesAll encodes base as rest

def EncodesRva (r : Rva) (bs : List Byte) : Prop := bs = bytesLE 4 r.toNat

section

variable (imageBase : Ptr) (fnBegin : Rva)

def EncodesClause (c : Clause) (bs : List Byte) : Prop :=
  ∃ flags adjectives type catchVar addresses,
    bs = flags :: (adjectives ++ (type ++ (catchVar ++ (bytesLE 4 c.handler.toNat ++ addresses)))) ∧
    (if hasAnyOf flags CatchBlockFlag.hasTypeFlags then Encodes c.adjectives adjectives
      else c.adjectives = 0 ∧ adjectives = []) ∧
    (if hasAnyOf flags CatchBlockFlag.hasTypeInfo then ∃ r, c.type = some r ∧ EncodesRva r type
      else c.type = none ∧ type = []) ∧
    (if hasAnyOf flags CatchBlockFlag.hasCatchVar then
      ∃ v, c.catchVar = some v ∧ Encodes v catchVar
      else c.catchVar = none ∧ catchVar = []) ∧
    c.continuationAddress.length =
      ((flags &&& CatchBlockFlag.continuationAddrCount) >>> 4).toNat ∧
    if hasAnyOf flags CatchBlockFlag.imageRva then
      EncodesAll EncodesRva imageBase c.continuationAddress addresses
      else EncodesAll Encodes (displace imageBase fnBegin) c.continuationAddress addresses

variable (m : Mem 64)

def ClausesAt : List Clause → Ptr → Prop
  | [], _ => True
  | c :: cs, q => ∃ bs, EncodesClause imageBase fnBegin c bs ∧ Holds m q bs ∧
      ClausesAt cs (q + .ofNat 64 bs.length)

def HandlerMapAt (clauses : List Clause) (q : Ptr) : Prop :=
  ∃ count, clauses.length < 2 ^ 32 ∧ Encodes (.ofNat 32 clauses.length) count ∧ Holds m q count ∧
    ClausesAt imageBase fnBegin m clauses (q + .ofNat 64 count.length)

def BlocksAt : List Block → Ptr → Prop
  | [], _ => True
  | b :: bs, p => ∃ low high catchHigh handlers, Encodes (.ofNat 32 b.tryLow) low ∧
      Encodes (.ofNat 32 b.tryHigh) high ∧ Encodes (.ofNat 32 b.catchHigh) catchHigh ∧
      Holds m p (low ++ (high ++ (catchHigh ++ bytesLE 4 handlers.toNat))) ∧
      HandlerMapAt imageBase fnBegin m b.clauses (displace imageBase handlers) ∧
      BlocksAt bs (p + .ofNat 64 (low ++ (high ++ (catchHigh ++ bytesLE 4 handlers.toNat))).length)

/-- The map of a function's try blocks. A function without them need not have one. -/
def MapAt (blocks : List Block) (tryBlocks : Rva) : Prop :=
  if tryBlocks ≠ 0 then ∃ count, blocks.length < 2 ^ 32 ∧ Encodes (.ofNat 32 blocks.length) count ∧
    Holds m (displace imageBase tryBlocks) count ∧
    BlocksAt imageBase fnBegin m blocks (displace imageBase tryBlocks + .ofNat 64 count.length)
  else blocks = []

end

section

variable {m : Mem 64} {imageBase : Ptr} {fnBegin : Rva}

theorem readAddresses_encodes {read : Ptr → BitVec 32 × Ptr} {base : Ptr}
    {encodes : BitVec 32 → List Byte → Prop}
    (hread : ∀ {v bs q}, encodes v bs → Holds m q bs → read q = (v, q + .ofNat 64 bs.length))
    {as : List Ptr} {bs : List Byte} {q : Ptr} (h : EncodesAll encodes base as bs)
    (hm : Holds m q bs) : readAddresses read base as.length q = (as, q + .ofNat 64 bs.length) := by
  induction as generalizing bs q with
  | nil =>
    rw [show bs = [] from h]
    exact Prod.ext rfl (BitVec.add_zero q).symm
  | cons a as ih =>
    obtain ⟨offset, first, rest, rfl, rfl, hfirst, hrest⟩ := h
    rw [holds_append] at hm
    simp only [List.length_cons, readAddresses, hread hfirst hm.1, ih hrest hm.2, add_ofNat_add,
      List.length_append]

theorem readRva_encodes {r : Rva} {bs : List Byte} {q : Ptr} (h : EncodesRva r bs)
    (hm : Holds m q bs) : readRva m q = (r, q + .ofNat 64 bs.length) := by
  rw [show bs = bytesLE 4 r.toNat from h] at hm ⊢
  rw [readRva_holds hm, length_bytesLE]
  rfl

theorem readUnless_encodes {flag : Bool} {v : BitVec 32} {bs : List Byte} {q : Ptr}
    (h : if flag then Encodes v bs else v = 0 ∧ bs = []) (hm : Holds m q bs) :
    (if flag then readUnsigned m q else (0, q)) = (v, q + .ofNat 64 bs.length) := by
  cases flag with
  | true => exact readUnsigned_encodes h hm
  | false =>
    obtain ⟨rfl, rfl⟩ := h
    exact Prod.ext rfl (BitVec.add_zero q).symm

theorem readOption_encodes {read : Ptr → BitVec 32 × Ptr} {encodes : BitVec 32 → List Byte → Prop}
    (hread : ∀ {v bs q}, encodes v bs → Holds m q bs → read q = (v, q + .ofNat 64 bs.length))
    {flag : Bool} {v : Option (BitVec 32)} {bs : List Byte} {q : Ptr}
    (h : if flag then ∃ x, v = some x ∧ encodes x bs else v = none ∧ bs = []) (hm : Holds m q bs) :
    (if flag then read q else (0, q)) = (v.getD 0, q + .ofNat 64 bs.length) := by
  cases flag with
  | true =>
    obtain ⟨x, rfl, hx⟩ := h
    exact hread hx hm
  | false =>
    obtain ⟨rfl, rfl⟩ := h
    exact Prod.ext rfl (BitVec.add_zero q).symm

theorem readCatchBlock_encodes {c : Clause} {bs : List Byte} {q : Ptr}
    (h : EncodesClause imageBase fnBegin c bs) (hm : Holds m q bs) :
    readCatchBlock m imageBase fnBegin q = (c.block, q + .ofNat 64 bs.length) := by
  obtain ⟨flags, adjectives, type, catchVar, addresses, rfl, hadjectives, htype, hvar, hcount,
    haddresses⟩ := h
  obtain ⟨hflags, hm⟩ := hm
  simp only [holds_append] at hm
  obtain ⟨hmadjectives, hmtype, hmvar, hmhandler, hmaddresses⟩ := hm
  have hreadAddresses : ∀ q, Holds m q addresses →
      (if hasAnyOf flags CatchBlockFlag.imageRva then
        readAddresses (readRva m) imageBase c.continuationAddress.length q
      else readAddresses (readUnsigned m) (displace imageBase fnBegin)
        c.continuationAddress.length q) =
      (c.continuationAddress, q + .ofNat 64 addresses.length) := by
    intro q hq
    split at haddresses
    · rename_i himage
      rw [if_pos himage, readAddresses_encodes readRva_encodes haddresses hq]
    · rename_i himage
      rw [if_neg himage, readAddresses_encodes readUnsigned_encodes haddresses hq]
  have hreadType := readOption_encodes readRva_encodes htype hmtype
  have hreadVar := readOption_encodes readUnsigned_encodes hvar hmvar
  have hreadHandler := readRva_encodes rfl hmhandler
  simp only [readCatchBlock, hflags, ← hcount, readUnless_encodes hadjectives hmadjectives,
    hreadType, hreadVar, hreadHandler, hreadAddresses _ hmaddresses]
  apply Prod.ext
  · rfl
  · simp only [add_ofNat_add, List.length_append, List.length_cons, add_ofNat_succ]
    congr 2
    omega

theorem readHandlers_clausesAt {clauses : List Clause} {q : Ptr}
    (h : ClausesAt imageBase fnBegin m clauses q) :
    readHandlers m imageBase fnBegin clauses.length q = clauses.map Clause.block := by
  induction clauses generalizing q with
  | nil => rfl
  | cons c cs ih =>
    obtain ⟨bs, hc, hm, hcs⟩ := h
    simp only [List.length_cons, readHandlers, readCatchBlock_encodes hc hm, ih hcs, List.map_cons]

theorem readTryBlocks_blocksAt {blocks : List Block} {p : Ptr}
    (h : BlocksAt imageBase fnBegin m blocks p) :
    readTryBlocks m imageBase fnBegin blocks.length p = blocks.map Block.decoded := by
  induction blocks generalizing p with
  | nil => rfl
  | cons b bs ih =>
    obtain ⟨low, high, catchHigh, handlers, hlow, hhigh, hcatch, hm, ⟨count, hlt, hcount, hmcount,
      hclauses⟩, hbs⟩ := h
    simp only [holds_append] at hm
    obtain ⟨hmlow, hmhigh, hmcatch, hmhandlers⟩ := hm
    have hlength : (BitVec.ofNat 32 b.clauses.length).toNat = b.clauses.length := by
      rw [BitVec.toNat_ofNat, Nat.mod_eq_of_lt hlt]
    have hread := readRva_encodes rfl hmhandlers
    simp only [add_ofNat_add] at hmhigh hmcatch hread
    simp only [List.length_append, length_bytesLE] at hbs
    simp only [List.length_cons, readTryBlocks, readUnsigned_encodes hlow hmlow,
      readUnsigned_encodes hhigh hmhigh, readUnsigned_encodes hcatch hmcatch,
      readUnsigned_encodes hcount hmcount, add_ofNat_add, hread, hlength,
      readHandlers_clausesAt hclauses, List.map_cons, length_bytesLE]
    rw [← ih hbs]
    simp only [Nat.add_assoc]
    rfl

/-- Whatever the forms of its numbers, flags and addresses, a map is decoded as what it
describes. -/
theorem tryBlocksOf_mapAt {blocks : List Block} {ehInfo : EhInfo}
    (h : MapAt imageBase fnBegin m blocks ehInfo.tryBlocks) :
    tryBlocksOf m imageBase fnBegin ehInfo = blocks.map Block.decoded := by
  rw [MapAt] at h
  split at h
  · rename_i htry
    obtain ⟨count, hlt, hcount, hm, hblocks⟩ := h
    have hlength : (BitVec.ofNat 32 blocks.length).toNat = blocks.length := by
      rw [BitVec.toNat_ofNat, Nat.mod_eq_of_lt hlt]
    simp only [tryBlocksOf, if_pos htry, readUnsigned_encodes hcount hm, hlength,
      readTryBlocks_blocksAt hblocks]
  · rename_i htry
    rw [tryBlocksOf, if_neg htry, h]
    rfl

end

end Vcrtl.X64.HandlerMap

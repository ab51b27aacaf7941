import Vcrtl.Lib.Layout
import Vcrtl.X64.Fh4

namespace Vcrtl.X64.MapWalk

open Lib.Memory Lib.Layout Lib.Descent BugCheck EhStructs CatchVariable Cleanup DispatcherContext
  Fh4

def typeBits : UnwindEdgeType → Nat
  | .trivial => 0
  | .objectOffset => 1
  | .objectPtrOffset => 2
  | .function => 3

def headOf (edge : UnwindEdge) : BitVec 32 :=
  .ofNat 32 (edge.targetOffset.toNat * 4 + typeBits edge.type)

def EncodesEdge (edge : UnwindEdge) (bs : List Byte) : Prop :=
  edge.targetOffset.toNat < 2 ^ 30 ∧ ∃ head destroyFn object, bs = head ++ (destroyFn ++ object) ∧
    Compressed.Encodes (headOf edge) head ∧
    (if edge.type ≠ .trivial then destroyFn = bytesLE 4 edge.destroyFn.toNat
      else edge.destroyFn = 0 ∧ destroyFn = []) ∧
    if edge.type = .objectOffset ∨ edge.type = .objectPtrOffset then
      Compressed.Encodes edge.object object
      else edge.object = 0 ∧ object = []

section

variable {edge : UnwindEdge} {bs : List Byte} {m : Mem 64} {p : Ptr}

theorem typeBits_lt (type : UnwindEdgeType) : typeBits type < 4 := by
  cases type <;> decide

theorem toNat_headOf (h : edge.targetOffset.toNat < 2 ^ 30) :
    (headOf edge).toNat = edge.targetOffset.toNat * 4 + typeBits edge.type := by
  have hbits := typeBits_lt edge.type
  rw [headOf, BitVec.toNat_ofNat, Nat.mod_eq_of_lt (by omega)]

theorem headOf_offset (h : edge.targetOffset.toNat < 2 ^ 30) :
    headOf edge >>> 2 = edge.targetOffset := by
  have hbits := typeBits_lt edge.type
  apply BitVec.eq_of_toNat_eq
  rw [BitVec.toNat_ushiftRight, toNat_headOf h, Nat.shiftRight_eq_div_pow]
  omega

theorem headOf_type (h : edge.targetOffset.toNat < 2 ^ 30) :
    UnwindEdgeType.ofBits ((headOf edge).extractLsb' 0 2) = edge.type := by
  have hbits : ((headOf edge).extractLsb' 0 2).toNat = typeBits edge.type := by
    have hlt := typeBits_lt edge.type
    rw [BitVec.extractLsb'_toNat, toNat_headOf h, Nat.shiftRight_zero]
    omega
  rw [UnwindEdgeType.ofBits, hbits]
  cases edge.type <;> rfl

theorem EncodesEdge.ne_nil (h : EncodesEdge edge bs) : 0 < bs.length := by
  obtain ⟨-, head, destroyFn, object, rfl, hhead, -⟩ := h
  have := hhead.ne_nil
  rw [List.length_append]
  omega

theorem EncodesEdge.length_le (h : EncodesEdge edge bs) : bs.length ≤ 14 := by
  obtain ⟨-, head, destroyFn, object, rfl, hhead, hfn, hobject⟩ := h
  have hlenHead := hhead.length_le
  have hlenFn : destroyFn.length ≤ 4 := by
    split at hfn
    · simp [hfn]
    · simp [hfn.2]
  have hlenObject : object.length ≤ 5 := by
    split at hobject
    · exact hobject.length_le
    · simp [hobject.2]
  simp only [List.length_append]
  omega

theorem read_encodes (h : EncodesEdge edge bs) (hm : Holds m p bs) :
    UnwindEdge.read m p = (edge, p + .ofNat 64 bs.length) := by
  obtain ⟨hoffset, head, destroyFn, object, rfl, hhead, hfn, hobject⟩ := h
  rw [holds_append, holds_append] at hm
  obtain ⟨hmhead, hmfn, hmobject⟩ := hm
  have hreadFn : (if edge.type ≠ .trivial then Compressed.readRva m (p + .ofNat 64 head.length)
      else (0, p + .ofNat 64 head.length)) =
      (edge.destroyFn, p + .ofNat 64 head.length + .ofNat 64 destroyFn.length) := by
    split at hfn
    · rename_i htype
      subst hfn
      rw [if_pos htype, Compressed.readRva_holds hmfn, length_bytesLE]
      rfl
    · rename_i htype
      rw [if_neg htype, hfn.1, hfn.2]
      exact Prod.ext rfl (BitVec.add_zero _).symm
  have hreadObject : ∀ q, Holds m q object →
      (if edge.type = .objectOffset ∨ edge.type = .objectPtrOffset then Compressed.readUnsigned m q
        else (0, q)) = (edge.object, q + .ofNat 64 object.length) := by
    intro q hq
    split at hobject
    · rename_i htype
      rw [if_pos htype, Compressed.readUnsigned_encodes hobject hq]
    · rename_i htype
      rw [if_neg htype, hobject.1, hobject.2]
      exact Prod.ext rfl (BitVec.add_zero _).symm
  simp only [UnwindEdge.read, Compressed.readUnsigned_encodes hhead hmhead, headOf_offset hoffset,
    headOf_type hoffset, hreadFn, hreadObject _ hmobject]
  simp only [add_ofNat_add, List.length_append, Nat.add_assoc]

end

structure UnwindEntry where
  edge : UnwindEdge
  next : Int
  bytes : List Byte

def parts (entries : List UnwindEntry) : List (List Byte) := entries.map UnwindEntry.bytes

/-- The unwind map of a function. An entry leads back to the start of the next
outer one, or to before all of them. -/
structure UnwindMap where
  entries : List UnwindEntry
  encoded : ∀ e ∈ entries, EncodesEdge e.edge e.bytes
  descends : ∀ (i : Nat) (h : i < entries.length), -1 ≤ entries[i].next ∧ entries[i].next < i
  reaches : ∀ (i : Nat) (h : i < entries.length), if 0 ≤ entries[i].next
    then start (parts entries) entries[i].next.toNat + entries[i].edge.targetOffset.toNat =
      start (parts entries) i
    else start (parts entries) i < entries[i].edge.targetOffset.toNat

def UnwindMap.At (u : UnwindMap) (m : Mem 64) (p : Ptr) : Prop :=
  u.entries.length < 2 ^ 32 ∧ ∃ count, Compressed.Encodes (.ofNat 32 u.entries.length) count ∧
    Holds m p (count ++ (parts u.entries).flatten)

def UnwindMap.graph (u : UnwindMap) (imageBase : Ptr) : UnwindGraph where
  edges := u.entries.map fun e => ⟨e.next, e.edge.action imageBase⟩
  descends i h := by
    rw [List.getElem_map]
    exact u.descends i (by simpa only [List.length_map] using h)

section

variable {u : UnwindMap} {m : Mem 64} {imageBase p : Ptr}

@[simp] theorem length_parts : (parts u.entries).length = u.entries.length := List.length_map _

theorem parts_ne_nil : ∀ x ∈ parts u.entries, 0 < x.length := by
  intro x hx
  obtain ⟨e, he, rfl⟩ := List.mem_map.mp hx
  exact (u.encoded e he).ne_nil

theorem parts_length_le : ∀ x ∈ parts u.entries, x.length ≤ 14 := by
  intro x hx
  obtain ⟨e, he, rfl⟩ := List.mem_map.mp hx
  exact (u.encoded e he).length_le

def entryAt (u : UnwindMap) (p : Ptr) (i : Nat) : Ptr := p + .ofNat 64 (start (parts u.entries) i)

theorem read_entryAt (hm : Holds m p (parts u.entries).flatten) {i : Nat}
    (hi : i < u.entries.length) :
    UnwindEdge.read m (entryAt u p i) = (u.entries[i].edge, entryAt u p (i + 1)) := by
  have hpart := holds_part hm (i := i) (by simpa only [length_parts] using hi)
  simp only [parts, List.getElem_map] at hpart
  rw [entryAt, parts, read_encodes (u.encoded _ (List.getElem_mem hi)) hpart, add_ofNat_add,
    entryAt, parts, start_succ (by simpa only [List.length_map] using hi), List.getElem_map]

/-- The scan arrives at the entry of a state, and has noted the entry two behind
the target if it came by. -/
theorem skipEntries_at (hm : Holds m p (parts u.entries).flatten) {target : Int} (n i : Nat)
    (hlen : i + n ≤ u.entries.length) (last : Ptr) :
    skipEntries m target n i (entryAt u p i) last = (entryAt u p (i + n),
      if (i : Int) ≤ target + 1 ∧ target + 1 < i + n then
        entryAt u p (target + 2).toNat
      else
        last) := by
  induction n generalizing i last with
  | zero =>
    rw [skipEntries, if_neg (by omega)]
    rfl
  | succ n ih =>
    have hcast : ((i + 1 : Nat) : Int) = i + 1 := rfl
    have hnext := ih (i + 1) (by omega) (if target + 1 = i then entryAt u p (i + 1) else last)
    rw [hcast, Nat.add_right_comm i 1 n] at hnext
    rw [skipEntries, read_entryAt hm (by omega)]
    refine hnext.trans (Prod.ext rfl ?_)
    by_cases htarget : target + 1 = i
    · have hindex : (target + 2).toNat = i + 1 := by omega
      rw [if_neg (by omega), if_pos htarget, if_pos (by omega), hindex]
    · simp only [if_neg htarget]
      by_cases hrange : (i : Int) + 1 ≤ target + 1 ∧ target + 1 < i + 1 + n
      · rw [if_pos hrange, if_pos (by omega)]
      · rw [if_neg hrange, if_neg (by omega)]

theorem start_lt_pow (hlen : u.entries.length < 2 ^ 32) {i : Nat} (hi : i ≤ u.entries.length) :
    start (parts u.entries) i < 2 ^ 36 := by
  have := start_le (parts_length_le (u := u)) i
  omega

theorem start_mono {i k : Nat} (hki : k ≤ i) (hi : i ≤ u.entries.length) :
    start (parts u.entries) k ≤ start (parts u.entries) i := by
  obtain rfl | hlt : k = i ∨ k < i := by omega
  · exact Nat.le_refl _
  · exact Nat.le_of_lt (start_lt parts_ne_nil hlt (by simpa only [length_parts] using hi))

theorem entryAt_sub {i k : Nat} (hki : k ≤ i) (hi : i ≤ u.entries.length) :
    entryAt u p i - entryAt u p k =
      .ofNat 64 (start (parts u.entries) i - start (parts u.entries) k) := by
  have hsplit := Nat.sub_add_cancel (start_mono hki hi)
  rw [entryAt, entryAt, ← hsplit, Nat.add_comm, BitVec.ofNat_add, ← BitVec.add_assoc,
    Nat.add_sub_cancel_left, BitVec.add_comm, BitVec.add_sub_cancel]

theorem toNat_entryAt_sub (hlen : u.entries.length < 2 ^ 32) {i k : Nat} (hki : k ≤ i)
    (hi : i ≤ u.entries.length) : (entryAt u p i - entryAt u p k).toNat =
      start (parts u.entries) i - start (parts u.entries) k := by
  have := start_lt_pow hlen hi
  rw [entryAt_sub hki hi, BitVec.toNat_ofNat, Nat.mod_eq_of_lt (by omega)]

theorem toInt_entryAt_sub (hlen : u.entries.length < 2 ^ 32) {i k : Nat} (hki : k ≤ i)
    (hi : i ≤ u.entries.length) : (entryAt u p i - entryAt u p k).toInt =
      start (parts u.entries) i - start (parts u.entries) k := by
  have hnat := toNat_entryAt_sub (p := p) hlen hki hi
  have := start_lt_pow hlen hi
  have := start_mono hki hi
  rw [BitVec.toInt_eq_toNat_of_lt (by omega), hnat]
  omega

theorem entryAt_back {i j : Nat} {offset : BitVec 32}
    (h : start (parts u.entries) j + offset.toNat = start (parts u.entries) i) :
    entryAt u p i - offset.setWidth 64 = entryAt u p j := by
  have hoffset : BitVec.ofNat 64 offset.toNat = offset.setWidth 64 := by
    apply BitVec.eq_of_toNat_eq
    rw [BitVec.toNat_ofNat, BitVec.toNat_setWidth]
  rw [entryAt, entryAt, ← h, BitVec.ofNat_add, hoffset, ← BitVec.add_assoc, BitVec.add_sub_cancel]

theorem targetOffset_ne_zero {i : Nat} (hi : i < u.entries.length) :
    u.entries[i].edge.targetOffset ≠ 0 := by
  intro hzero
  have hreaches := u.reaches i hi
  have hdescends := u.descends i hi
  have hnat : (0 : BitVec 32).toNat = 0 := rfl
  rw [hzero, hnat, Nat.add_zero] at hreaches
  split at hreaches
  · have hlt := start_lt (parts_ne_nil (u := u)) (i := u.entries[i].next.toNat) (j := i) (by omega)
      (by simpa only [length_parts] using Nat.le_of_lt hi)
    omega
  · exact absurd hreaches (Nat.not_lt_zero _)

theorem passes_iff {k i : Nat} (hki : k ≤ i) (hi : i < u.entries.length) :
    (start (parts u.entries) i : Int) - start (parts u.entries) k <
      u.entries[i].edge.targetOffset.toNat ↔ u.entries[i].next < k := by
  have hreaches := u.reaches i hi
  have hdescends := u.descends i hi
  split at hreaches
  · constructor
    · intro hlt
      by_contra hle
      have := start_mono (u := u) (k := k) (i := u.entries[i].next.toNat) (by omega) (by omega)
      omega
    · intro hnext
      have := start_lt (parts_ne_nil (u := u)) (i := u.entries[i].next.toNat) (j := k) (by omega)
        (by simp only [length_parts]; omega)
      omega
  · exact ⟨fun _ => by omega, fun _ => by omega⟩

theorem readBack_at (hlen : u.entries.length < 2 ^ 32) (hm : Holds m p (parts u.entries).flatten)
    {k i fuel : Nat} (hki : k ≤ i) (hi : i < u.entries.length)
    (hfuel : start (parts u.entries) i - start (parts u.entries) k < fuel) :
    readBack m imageBase (entryAt u p k) fuel (entryAt u p i) =
      .ok ((u.graph imageBase).actions (k - 1) i) := by
  induction fuel generalizing i with
  | zero => omega
  | succ fuel ih =>
    have hdescends := u.descends i hi
    have hedge : (u.graph imageBase).edges[(i : Int).toNat]? =
        some ⟨u.entries[i].next, u.entries[i].edge.action imageBase⟩ := by
      rw [UnwindMap.graph, Int.toNat_natCast, List.getElem?_map, List.getElem?_eq_getElem hi]
      rfl
    rw [readBack, read_entryAt hm hi, actions_step (by omega) (by omega) hedge]
    simp only [toInt_entryAt_sub hlen hki (Nat.le_of_lt hi), verify,
      if_pos (targetOffset_ne_zero hi), passes_iff hki hi, bind, Except.bind, pure, Except.pure]
    by_cases hstop : u.entries[i].next < k
    · rw [if_pos hstop, actions_done (by omega), List.append_nil]
    · have hreaches := u.reaches i hi
      rw [if_pos (by omega)] at hreaches
      have hmono := start_mono (u := u) (k := k) (i := u.entries[i].next.toNat)
        (by omega) (by omega)
      have hlt := start_lt (parts_ne_nil (u := u)) (i := u.entries[i].next.toNat) (j := i)
        (by omega) (by simpa only [length_parts] using Nat.le_of_lt hi)
      have hrest := ih (i := u.entries[i].next.toNat) (by omega) (by omega) (by omega)
      rw [Int.toNat_of_nonneg (by omega)] at hrest
      rw [if_neg hstop, entryAt_back hreaches, hrest]

/-- The last entry that a cleanup from a state runs: the one two behind the target. -/
def lastEntry (state target : Int) : Nat :=
  if target + 1 = state then state.toNat else (target + 2).toNat

theorem cleanupRange_at {env : Env} {unwindGraph : Rva} {state target : Int}
    (hat : u.At env.image (displace env.imageBase unwindGraph)) (htarget : -1 ≤ target)
    (hlt : target < state) (hstate : state < u.entries.length) :
    ∃ q, Holds env.image q (parts u.entries).flatten ∧ cleanupRange env unwindGraph state target =
      .ok (entryAt u q state.toNat, entryAt u q (lastEntry state target)) := by
  obtain ⟨hlen, count, hcount, hm⟩ := hat
  rw [holds_append] at hm
  have hread := Compressed.readUnsigned_encodes hcount hm.1
  have hnodes : (BitVec.ofNat 32 u.entries.length).toNat = u.entries.length := by
    rw [BitVec.toNat_ofNat, Nat.mod_eq_of_lt hlen]
  refine ⟨_, hm.2, ?_⟩
  rw [cleanupRange, hread]
  generalize displace env.imageBase unwindGraph + .ofNat 64 count.length = q at hm
  have hfirst : entryAt u q 0 = q := BitVec.add_zero q
  have hskip : skipEntries env.image target state.toNat _ _ _ = _ :=
    skipEntries_at hm.2 state.toNat 0 (by omega) (entryAt u q 0)
  rw [hfirst, Nat.zero_add, Int.ofNat_zero, Int.zero_add, Int.toNat_of_nonneg (by omega)] at hskip
  simp only [verify, hnodes, if_pos (show 0 ≤ state ∧ state.toNat < u.entries.length by omega),
    bind, Except.bind, pure, Except.pure, hskip, lastEntry]
  by_cases h : target + 1 = state
  · rw [if_pos h, if_pos h]
  · rw [if_neg h, if_neg h, if_pos (by omega)]

theorem cleanupActions_at {env : Env} {unwindGraph : Rva} {state target : Int}
    (hat : u.At env.image (displace env.imageBase unwindGraph)) (htarget : -1 ≤ target)
    (hlt : target < state) (hstate : state < u.entries.length) :
    cleanupActions env unwindGraph state target =
      .ok ((u.graph env.imageBase).actions (lastEntry state target - 1) state) := by
  obtain ⟨q, hm, hrange⟩ := cleanupRange_at hat htarget hlt hstate
  have hlast : lastEntry state target ≤ state.toNat := by
    rw [lastEntry]
    split <;> omega
  have hfuel := toNat_entryAt_sub (p := q) hat.1 hlast (i := state.toNat) (by omega)
  have hwalk : readBack env.image env.imageBase (entryAt u q (lastEntry state target))
      ((entryAt u q state.toNat - entryAt u q (lastEntry state target)).toNat + 1)
      (entryAt u q state.toNat) = _ := readBack_at hat.1 hm hlast (by omega) (by omega)
  rw [Int.toNat_of_nonneg (by omega)] at hwalk
  rw [cleanupActions, if_neg (by omega), hrange]
  exact hwalk

/-- The cleanup is that of the plain loop exactly if the state above the target
has nothing to clean up, or is where the cleanup starts. -/
theorem cleanup_plain_iff {env : Env} {unwindGraph : Rva} {framePtr : Ptr} {state target : Int}
    {s : World 64} (hat : u.At env.image (displace env.imageBase unwindGraph))
    (htarget : -1 ≤ target) (hlt : target < state) (hstate : state < u.entries.length) :
    descend (u.graph env.imageBase).edges target u.entries.length state =
        .ok ((u.graph env.imageBase).actions target state) ∧
      (cleanup env unwindGraph framePtr state target s =
          .ok (runAll env.code framePtr ((u.graph env.imageBase).actions target state) s) ↔
        target + 1 = state ∨ (target + 1).toNat ∉ chain (u.graph env.imageBase).forest state ∨
          (u.graph env.imageBase).action (target + 1).toNat = none) := by
  have hlength : (u.graph env.imageBase).edges.length = u.entries.length := List.length_map _
  refine ⟨descend_actions htarget (by omega) hstate, ?_⟩
  rw [cleanup_cleanupActions, cleanupActions_at hat htarget hlt hstate]
  by_cases hnear : target + 1 = state
  · have hlast : (lastEntry state target : Int) - 1 = target := by
      rw [lastEntry, if_pos hnear]
      omega
    rw [hlast]
    exact ⟨fun _ => .inl hnear, fun _ => rfl⟩
  · have hlast : (lastEntry state target : Int) - 1 = (target + 1).toNat := by
      rw [lastEntry, if_neg hnear]
      omega
    have hpred : (u.graph env.imageBase).actions _ state = _ := actions_pred (target + 1).toNat
    have hcast : (((target + 1).toNat : Nat) : Int) - 1 = target := by omega
    rw [hcast] at hpred
    rw [hlast, hpred]
    constructor
    · intro h
      have hlen := length_of_runAll (Except.ok.inj h)
      rw [List.length_append] at hlen
      right
      by_cases hmem : (target + 1).toNat ∈ chain (u.graph env.imageBase).forest state
      · rw [if_pos hmem] at hlen
        cases haction : (u.graph env.imageBase).action (target + 1).toNat with
        | none => exact .inr rfl
        | some a =>
          rw [haction, Option.toList_some, List.length_singleton] at hlen
          omega
      · exact .inl hmem
    · rintro (h | h | h)
      · exact absurd h hnear
      · rw [if_neg h, List.append_nil]
        rfl
      · rw [h, Option.toList_none, ite_self, List.append_nil]
        rfl

end

def twoStates : UnwindMap where
  entries := [⟨⟨1, .function, 0x40, 0⟩, -1, [0x0e, 0x40, 0, 0, 0]⟩,
    ⟨⟨5, .function, 0x80, 0⟩, 0, [0x2e, 0x80, 0, 0, 0]⟩]
  encoded := by
    intro e he
    obtain rfl | rfl := List.mem_pair.mp he
    · exact ⟨by decide, [0x0e], [0x40, 0, 0, 0], [], rfl, .inl ⟨1, by decide⟩, by decide,
      ⟨rfl, rfl⟩⟩
    · exact ⟨by decide, [0x2e], [0x80, 0, 0, 0], [], rfl, .inl ⟨1, by decide⟩, by decide,
      ⟨rfl, rfl⟩⟩
  descends := by decide
  reaches := by decide

def twoStatesEnv : Env :=
  ⟨fun _ m => m, 0x400000,
    write (fun _ => 0) 0x400100 [4, 0x0e, 0x40, 0, 0, 0, 0x2e, 0x80, 0, 0, 0], fun _ => none⟩

theorem twoStates_at : twoStates.At twoStatesEnv.image (displace twoStatesEnv.imageBase 0x100) :=
  ⟨by decide, [4], .inl ⟨1, by decide⟩, by decide⟩

theorem cleanup_plain_inner :
    cleanup twoStatesEnv 0x100 0x5000 1 0 ⟨fun _ => 0, []⟩ = .ok (runAll twoStatesEnv.code 0x5000
      ((twoStates.graph 0x400000).actions 0 1) ⟨fun _ => 0, []⟩) :=
  (cleanup_plain_iff twoStates_at (by decide) (by decide) (by decide)).2.mpr (.inl rfl)

/-- To leave both states runs the cleanup of the inner one alone. -/
theorem cleanup_skips_outermost : ∃ s,
    cleanup twoStatesEnv 0x100 0x5000 1 (-1) ⟨fun _ => 0, []⟩ = .ok s ∧
    s.trace = [.funclet 0x400080 0x5000] ∧
    (twoStates.graph 0x400000).actions (-1) 1 = [.funclet 0x400080, .funclet 0x400040] ∧
    s ≠ runAll twoStatesEnv.code 0x5000 ((twoStates.graph 0x400000).actions (-1) 1)
      ⟨fun _ => 0, []⟩ := by
  have hactions : (twoStates.graph 0x400000).actions (-1) 1 =
      [.funclet 0x400080, .funclet 0x400040] := by
    rw [actions_step (e := ⟨0, some (.funclet 0x400080)⟩) (by decide) (by decide) rfl,
      actions_step (e := ⟨-1, some (.funclet 0x400040)⟩) (by decide) (by decide) rfl,
      actions_done (by decide)]
    rfl
  refine ⟨_, rfl, rfl, hactions, fun h => ?_⟩
  rw [hactions] at h
  have htrace := congrArg World.trace h
  revert htrace
  decide

end Vcrtl.X64.MapWalk

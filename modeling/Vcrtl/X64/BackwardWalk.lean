import Vcrtl.Lib.Loops
import Vcrtl.X64.Fh4

namespace Vcrtl.X64.BackwardWalk

open Lib.Memory Lib.Loops BugCheck EhStructs CatchVariable Cleanup Compressed DispatcherContext Fh4

section

variable (env : Env) (framePtr targetEdgeLast : Ptr)

/-- One turn of the walk back, with the entry it is at and the program. -/
def walkTurn : Ptr × World 64 → Exec (Ptr × World 64 ⊕ World 64)
  | (orig, s) => do
    let (edge, _) := UnwindEdge.read env.image orig
    verify (edge.targetOffset ≠ 0)
    let s := runOption env.code framePtr (edge.action env.imageBase) s
    if (orig - targetEdgeLast).toInt < edge.targetOffset.toNat then
      return .inr s
    else
      return .inl (orig - edge.targetOffset.setWidth 64, s)

/-- From an entry the walk moves back with every turn, never to before where it
stops, and within as many turns as there are bytes in between it is at its last. -/
structure WalksBack (p : Ptr) (s : World 64) (result : Exec (World 64)) : Prop where
  behind : ∀ n q t, Goes (walkTurn env framePtr targetEdgeLast) n (p, s) (q, t) →
    0 ≤ (q - targetEdgeLast).toInt ∧ (q - targetEdgeLast).toInt + n ≤ (p - targetEdgeLast).toInt
  ordered : targetEdgeLast ≤ p → ∀ n q t,
    Goes (walkTurn env framePtr targetEdgeLast) n (p, s) (q, t) → targetEdgeLast ≤ q ∧ q ≤ p
  backwards : ∀ n q t q' t', Goes (walkTurn env framePtr targetEdgeLast) n (p, s) (q, t) →
    walkTurn env framePtr targetEdgeLast (q, t) = .ok (.inl (q', t')) →
    (q' - targetEdgeLast).toInt < (q - targetEdgeLast).toInt
  ends : ∃ n x, n ≤ (p - targetEdgeLast).toNat ∧
    Goes (walkTurn env framePtr targetEdgeLast) n (p, s) x ∧
    (BugChecks (walkTurn env framePtr targetEdgeLast x) ∧ BugChecks result ∨
      ∃ u, walkTurn env framePtr targetEdgeLast x = .ok (.inr u) ∧ result = .ok u)

end

variable {env : Env} {framePtr last p q : Ptr} {s t : World 64}

theorem walkBack_loop (fuel : Nat) : walkBack env framePtr last fuel p s =
    loop (walkTurn env framePtr last) .hang fuel (p, s) := by
  induction fuel generalizing p s with
  | zero => rfl
  | succ fuel ih =>
    rw [walkBack, loop, walkTurn]
    by_cases hzero : (UnwindEdge.read env.image p).1.targetOffset ≠ 0
    · simp only [verify, if_pos hzero, bind, Except.bind]
      split
      · rfl
      · exact ih
    · simp only [verify, if_neg hzero]
      rfl

theorem walkTurn_on (h : walkTurn env framePtr last (p, s) = .ok (.inl (q, t))) :
    ∃ offset : BitVec 32, offset ≠ 0 ∧ (offset.toNat : Int) ≤ (p - last).toInt ∧
      q = p - offset.setWidth 64 := by
  simp only [walkTurn, bind_ok, verify_ok] at h
  obtain ⟨-, hne, h⟩ := h
  split at h
  · cases h
  · rename_i hroom
    cases h
    exact ⟨_, hne, Int.not_lt.mp hroom, rfl⟩

theorem walkTurn_error {e : Stop} (h : walkTurn env framePtr last (p, s) = .error e) :
    ∃ reason, e = .bugCheck reason := by
  by_cases hzero : (UnwindEdge.read env.image p).1.targetOffset ≠ 0
  · simp only [walkTurn, verify, if_pos hzero, bind, Except.bind] at h
    split at h
    · cases h
    · cases h
  · simp only [walkTurn, verify, if_neg hzero, bind, Except.bind] at h
    cases h
    exact ⟨_, rfl⟩

theorem toInt_back {offset : BitVec 32} (h : (offset.toNat : Int) ≤ (p - last).toInt) :
    (p - offset.setWidth 64 - last).toInt = (p - last).toInt - offset.toNat := by
  have hcomm : p - offset.setWidth 64 - last = p - last - offset.setWidth 64 := by
    generalize offset.setWidth 64 = x
    bv_omega
  rw [hcomm]
  generalize p - last = d at *
  have hoffset := offset.isLt
  have hd := d.isLt
  rw [BitVec.toInt_eq_toNat_cond] at h ⊢
  rw [BitVec.toInt_eq_toNat_cond]
  simp only [BitVec.toNat_sub, BitVec.toNat_setWidth]
  split at h
  · rename_i hsmall
    rw [if_pos (by omega), if_pos hsmall]
    omega
  · omega

theorem walkTurn_back (h : walkTurn env framePtr last (p, s) = .ok (.inl (q, t))) :
    0 ≤ (q - last).toInt ∧ (q - last).toInt < (p - last).toInt := by
  obtain ⟨offset, hne, hroom, rfl⟩ := walkTurn_on h
  have hpos : offset.toNat ≠ 0 := fun hzero => hne (BitVec.eq_of_toNat_eq hzero)
  rw [toInt_back hroom]
  omega

theorem walkTurn_lowers : Lowers (walkTurn env framePtr last) (fun x => 0 ≤ (x.1 - last).toInt)
    fun x => (x.1 - last).toInt.toNat := by
  refine ⟨?_, ?_⟩
  · rintro ⟨p, s⟩ ⟨q, t⟩ - hturn
    exact (walkTurn_back hturn).1
  · rintro ⟨p, s⟩ ⟨q, t⟩ hp hturn
    obtain ⟨hq, hlt⟩ := walkTurn_back hturn
    change (q - last).toInt.toNat < (p - last).toInt.toNat
    omega

theorem readUnsigned_moves (m : Mem 64) (p : Ptr) :
    ∃ n, 1 ≤ n ∧ n ≤ 5 ∧ (readUnsigned m p).2 = p + .ofNat 64 n := by
  have hlengths : ∀ x < 16, 1 ≤ lengths.getD x 0 ∧ lengths.getD x 0 ≤ 5 := by decide
  have hnibble : (m p &&& 0xf).toNat < 16 := by
    rw [toNat_nibble]
    exact Nat.mod_lt _ (by decide)
  obtain ⟨hpos, hle⟩ := hlengths _ hnibble
  exact ⟨_, hpos, hle, rfl⟩

theorem read_moves (m : Mem 64) (p : Ptr) :
    ∃ n, 1 ≤ n ∧ n ≤ 14 ∧ (UnwindEdge.read m p).2 = p + .ofNat 64 n := by
  obtain ⟨a, hpos, ha, hhead⟩ := readUnsigned_moves m p
  simp only [UnwindEdge.read, hhead]
  cases UnwindEdgeType.ofBits ((readUnsigned m p).1.extractLsb' 0 2) with
  | trivial => exact ⟨a, hpos, by omega, rfl⟩
  | function => exact ⟨a + 4, by omega, by omega, add_ofNat_add p a 4⟩
  | objectOffset | objectPtrOffset =>
    obtain ⟨b, -, hb, hobject⟩ := readUnsigned_moves m (p + .ofNat 64 a + 4)
    refine ⟨a + 4 + b, by omega, by omega, ?_⟩
    rw [← add_ofNat_add, ← add_ofNat_add]
    exact hobject

theorem skipEntries_moves (m : Mem 64) (target : Int) (count : Nat) (i : Int) (p last : Ptr) :
    ∃ n, n ≤ 14 * count ∧ (skipEntries m target count i p last).1 = p + .ofNat 64 n ∧
      ((skipEntries m target count i p last).2 = last ∨
        ∃ k, k ≤ n ∧ (skipEntries m target count i p last).2 = p + .ofNat 64 k) := by
  induction count generalizing i p last with
  | zero => exact ⟨0, Nat.le_refl _, (BitVec.add_zero p).symm, .inl rfl⟩
  | succ count ih =>
    obtain ⟨a, hpos, ha, hread⟩ := read_moves m p
    simp only [skipEntries, hread]
    obtain ⟨n, hn, hend, hnoted⟩ := ih (i + 1) (p + .ofNat 64 a)
      (if target + 1 = i then p + .ofNat 64 a else last)
    rw [hend, add_ofNat_add]
    refine ⟨a + n, by omega, rfl, ?_⟩
    obtain hkept | ⟨k, hk, hnoted⟩ := hnoted
    · rw [hkept]
      split
      · exact .inr ⟨a, Nat.le_add_right a n, rfl⟩
      · exact .inl rfl
    · rw [hnoted, add_ofNat_add]
      exact .inr ⟨a + k, by omega, rfl⟩

theorem cleanupRange_error {unwindGraph : Rva} {state target : Int} {e : Stop}
    (h : cleanupRange env unwindGraph state target = .error e) :
    e = .bugCheck .assertionFailure ∧ ¬ (0 ≤ state ∧ state.toNat <
      (readUnsigned env.image (displace env.imageBase unwindGraph)).1.toNat) := by
  rw [cleanupRange] at h
  split at h
  rename_i nodes start hread
  by_cases hstate : 0 ≤ state ∧ state.toNat < nodes.toNat
  · simp only [verify, if_pos hstate] at h
    cases h
  · simp only [verify, if_neg hstate] at h
    cases h
    rw [hread]
    exact ⟨rfl, hstate⟩

theorem cleanupRange_moves {unwindGraph : Rva} {state target : Int}
    (h : cleanupRange env unwindGraph state target = .ok (p, last)) :
    state.toNat < 2 ^ 32 ∧ ∃ k, k ≤ 14 * state.toNat ∧ p = last + .ofNat 64 k := by
  simp only [cleanupRange, bind_ok, verify_ok, pure_ok, Prod.mk.injEq] at h
  obtain ⟨-, ⟨-, hstate⟩, rfl, rfl⟩ := h
  have hnodes := (readUnsigned env.image (displace env.imageBase unwindGraph)).1.isLt
  refine ⟨by omega, ?_⟩
  generalize (readUnsigned env.image (displace env.imageBase unwindGraph)).2 = start
  obtain ⟨n, hn, hend, hnoted⟩ := skipEntries_moves env.image target state.toNat 0 start start
  split
  · exact ⟨0, Nat.zero_le _, (BitVec.add_zero _).symm⟩
  · rw [hend]
    obtain hkept | ⟨k, hk, hnoted⟩ := hnoted
    · rw [hkept]
      exact ⟨n, hn, rfl⟩
    · rw [hnoted]
      refine ⟨n - k, by omega, ?_⟩
      rw [add_ofNat_add, Nat.add_sub_cancel' hk]

theorem le_of_toInt_le (h : 0 ≤ (q - last).toInt) (hle : (q - last).toInt ≤ (p - last).toInt)
    (hlast : last ≤ p) : last ≤ q ∧ q ≤ p := by
  have hp : 0 ≤ (p - last).toInt := Int.le_trans h hle
  have hnonneg : ∀ d : Ptr, 0 ≤ d.toInt → d.toInt = d.toNat := by
    intro d hd
    have hlt := d.isLt
    rw [BitVec.toInt_eq_toNat_cond] at hd ⊢
    split at hd
    · rename_i hsmall
      rw [if_pos hsmall]
    · omega
  rw [hnonneg _ h, hnonneg _ hp] at hle
  rw [BitVec.le_def] at hlast ⊢
  bv_omega

theorem walksBack (hp : 0 ≤ (p - last).toInt) : WalksBack env framePtr last p s
    (walkBack env framePtr last ((p - last).toNat + 1) p s) := by
  have hbehind : ∀ n q t, Goes (walkTurn env framePtr last) n (p, s) (q, t) →
      0 ≤ (q - last).toInt ∧ (q - last).toInt + n ≤ (p - last).toInt := by
    intro n q t hgoes
    obtain ⟨hq, hle⟩ := hgoes.measure_le walkTurn_lowers hp
    have hle' : (q - last).toInt.toNat + n ≤ (p - last).toInt.toNat := hle
    exact ⟨hq, by omega⟩
  refine ⟨hbehind, ?_, ?_, ?_⟩
  · intro hlast n q t hgoes
    obtain ⟨hq, hle⟩ := hbehind n q t hgoes
    exact le_of_toInt_le hq (by omega) hlast
  · intro n q t q' t' hgoes hturn
    exact (walkTurn_back hturn).2
  · obtain ⟨n, ⟨q, t⟩, hgoes, hlast⟩ := walkTurn_lowers.ends (s := (p, s)) hp
    have hle : n ≤ (p - last).toNat := by
      have hbound := hbehind n q t hgoes
      have htoNat : (p - last).toInt ≤ (p - last).toNat := by
        rw [BitVec.toInt_eq_toNat_cond]
        split <;> omega
      omega
    have hsplit : (p - last).toNat + 1 = n + ((p - last).toNat - n + 1) := by omega
    refine ⟨n, (q, t), hle, hgoes, ?_⟩
    rw [walkBack_loop, hsplit, hgoes.loop_eq]
    cases hturn : walkTurn env framePtr last (q, t) with
    | error e =>
      obtain ⟨reason, rfl⟩ := walkTurn_error hturn
      exact .inl ⟨⟨reason, rfl⟩, reason, loop_error hturn⟩
    | ok r =>
      cases r with
      | inl x => exact absurd hturn (hlast x)
      | inr u => exact .inr ⟨u, rfl, loop_leave hturn⟩

theorem cleanup_walksBack {unwindGraph : Rva} {state target : Int} (htarget : target < state)
    (hrange : cleanupRange env unwindGraph state target = .ok (p, last)) :
    WalksBack env framePtr last p s (cleanup env unwindGraph framePtr state target s) := by
  have hcleanup : cleanup env unwindGraph framePtr state target s =
      walkBack env framePtr last ((p - last).toNat + 1) p s := by
    rw [cleanup, if_neg (by omega), hrange]
    rfl
  rw [hcleanup]
  apply walksBack
  obtain ⟨hstate, k, hk, rfl⟩ := cleanupRange_moves hrange
  have hsub : last + .ofNat 64 k - last = BitVec.ofNat 64 k := by
    rw [BitVec.add_comm, BitVec.add_sub_cancel]
  rw [hsub, BitVec.toInt_eq_toNat_of_lt]
  · exact Int.natCast_nonneg _
  · rw [BitVec.toNat_ofNat]
    omega

/-- Whatever the map holds, the cleanup from a state of it down to a target comes to an end. -/
theorem backward_walk (env : Env) (unwindGraph : Rva) (framePtr : Ptr) (s : World 64)
    {state target : Int} (htarget : target < state)
    (hstate : 0 ≤ state ∧ state.toNat <
      (readUnsigned env.image (displace env.imageBase unwindGraph)).1.toNat) :
    ∃ p last, cleanupRange env unwindGraph state target = .ok (p, last) ∧
      WalksBack env framePtr last p s (cleanup env unwindGraph framePtr state target s) := by
  cases hrange : cleanupRange env unwindGraph state target with
  | error e => exact absurd hstate (cleanupRange_error hrange).2
  | ok x => exact ⟨x.1, x.2, rfl, cleanup_walksBack htarget hrange⟩

/-- A map of three entries. The last one leads into the middle of the one before it. -/
def crookedEnv : Env :=
  ⟨fun _ m => m, 0x400000,
    write (fun _ => 0) 0x400100 [0x06, 0x08, 0x0e, 0x40, 0x10, 0x00, 0x00, 0x18], fun _ => none⟩

def someWorld : World 64 := ⟨fun _ => 0, []⟩

theorem backward_walk_crooked :
    cleanupRange crookedEnv 0x100 2 (-1) = .ok (0x400107, 0x400102) ∧
      Goes (walkTurn crookedEnv 0x5000 0x400102) 1 (0x400107, someWorld) (0x400104, someWorld) ∧
      WalksBack crookedEnv 0x5000 0x400102 0x400107 someWorld
        (cleanup crookedEnv 0x100 0x5000 2 (-1) someWorld) := by
  have hstart : cleanupRange crookedEnv 0x100 2 (-1) = .ok (0x400107, 0x400102) := rfl
  obtain ⟨p, last, hrange, hwalks⟩ := backward_walk crookedEnv 0x100 0x5000 someWorld
    (show (-1 : Int) < 2 by decide) (by decide)
  obtain ⟨rfl, rfl⟩ := Prod.mk.inj (Except.ok.inj (hstart.symm.trans hrange))
  exact ⟨hstart, .turn rfl (.here _), hwalks⟩

end Vcrtl.X64.BackwardWalk

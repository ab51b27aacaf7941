import Vcrtl.X64.UnwindFlow

namespace Vcrtl.X64.Generations

open Lib.Memory BugCheck EhStructs Unwinder UnwindCodes UnwindFlow

/-- The generation of an address is its top byte. -/
def generation (a : Ptr) : Nat := a.toNat / 2 ^ 56

/-- Words loaded in a generation before `n` are addresses of the next one. In the generation `n` a
bit of the address decides which of two generations a word is of, and there they stay. -/
def memory (n bit : Nat) : Mem 64 := fun a =>
  if generation a < n then .ofNat 8 (generation a + 1)
  else if generation a = n then .ofNat 8 (n + 1 + a.toNat / 2 ^ bit % 2)
  else .ofNat 8 (generation a)

def start (t : Nat) : Nat := t * 2 ^ 56

def room (k : Nat) : Nat := (k + 1) * 2 ^ 33

def Inside (t k : Nat) (p : Ptr) : Prop :=
  start t + room k ≤ p.toNat ∧ p.toNat + room k ≤ start t + 2 ^ 56

def Small (n : Ptr) : Prop := n.toNat ≤ 2 ^ 33 ∨ 2 ^ 64 ≤ n.toNat + 2 ^ 33

/-- Addresses a distance apart in the generation `n`, or one in each of the two after it. -/
def Parted (n d k : Nat) (p q : Ptr) : Prop :=
  Inside n k p ∧ Inside n k q ∧ (q.toNat = p.toNat + d ∨ p.toNat = q.toNat + d) ∨
    Inside (n + 1) k p ∧ Inside (n + 2) k q ∨ Inside (n + 2) k p ∧ Inside (n + 1) k q

/-- The generations of the registers that the codes leave. -/
structure Generation where
  gpr : Fin 8 → Nat
  rsp : Nat

def Generation.step (g : Generation) : Undo → Generation
  | .pop r | .loadGp r _ => { g with gpr := Function.update g.gpr r (g.rsp + 1) }
  | .toFrame r _ => { g with rsp := g.gpr r }
  | .machineFrame _ => { g with rsp := g.rsp + 1 }
  | .advance _ | .loadXmm _ _ | .skip => g

def Placed (n t k : Nat) (p : Ptr) : Prop :=
  t ≤ n ∧ Inside t k p ∨ n < t ∧ ∃ last, n < last ∧ last ≤ n + 2 ∧ Inside last k p

structure Follows (n k : Nat) (g : Generation) (s : Walk) : Prop where
  gpr : ∀ r, Placed n (g.gpr r) k (s.ctx.gpr r)
  rsp : Placed n g.rsp k s.mach.rsp

variable {n bit d k t : Nat} {p q x : Ptr} {m : Mem 64} {g : Generation} {s : Walk} {undo : Undo}
  {us : List Undo}

theorem start_le (h : t ≤ 254) : start t ≤ 254 * 2 ^ 56 := Nat.mul_le_mul_right _ h

theorem room_succ (k : Nat) : room (k + 1) = room k + 2 ^ 33 := Nat.succ_mul _ _

theorem room_pos (k : Nat) : 2 ^ 33 ≤ room k := Nat.le_mul_of_pos_left _ (Nat.succ_pos k)

theorem Inside.weaken (h : Inside t (k + 1) p) : Inside t k p := by
  rw [Inside, room_succ] at h
  rw [Inside]
  omega

theorem Inside.add (h : Inside t (k + 1) p) (ht : t ≤ 254) (hx : Small x) : Inside t k (p + x) := by
  have hstart := start_le ht
  have hp := p.isLt
  have hroom := room_pos k
  rw [Inside, room_succ] at h
  rw [Small] at hx
  rw [Inside, BitVec.toNat_add]
  omega

theorem Inside.generation {i : Nat} (h : Inside t k p) (ht : t ≤ 254) (hi : i < 16) :
    (p + .ofNat 64 i).toNat = p.toNat + i ∧ generation (p + .ofNat 64 i) = t := by
  have hstart := start_le ht
  have hroom := room_pos k
  obtain ⟨hlow, hhigh⟩ := h
  have hsum : (p + .ofNat 64 i).toNat = p.toNat + i := by
    rw [BitVec.toNat_add, BitVec.toNat_ofNat]
    omega
  refine ⟨hsum, ?_⟩
  rw [Generations.generation, hsum]
  apply Nat.div_eq_of_lt_le
  · exact Nat.le_trans (Nat.le_trans (Nat.le_add_right _ _) hlow) (Nat.le_add_right _ _)
  · rw [Nat.succ_mul]
    change p.toNat + i < start t + 2 ^ 56
    omega

theorem inside_readWord (hlow : 1 ≤ (m (p + 6)).toNat) (hle : (m (p + 6)).toNat ≤ 254)
    (htop : (m (p + 7)).toNat = t) : Inside t 256 (readWord m p) := by
  have hsix := readLE_lt m p 6
  have hnext : p + 6 + 1 = p + 7 := by rw [BitVec.add_assoc]; rfl
  have hword : readLE m p 8 = readLE m p 6 + 2 ^ 48 * (m (p + 6)).toNat + start t := by
    have hsplit : readLE m p 8 = readLE m p 6 + 256 ^ 6 *
        ((m (p + 6)).toNat + 256 * ((m (p + 6 + 1)).toNat + 256 * 0)) := readLE_add m p 6 2
    rw [hsplit, hnext, htop, start, Nat.mul_zero, Nat.add_zero, Nat.mul_add, ← Nat.add_assoc,
      Nat.mul_left_comm, Nat.mul_comm t]
    omega
  have hvalue : (readWord m p).toNat = readLE m p 8 := by
    rw [readWord, BitVec.toNat_ofNat]
    exact Nat.mod_eq_of_lt (readLE_lt m p 8)
  have hmin := Nat.mul_le_mul_left (2 ^ 48) hlow
  have hmax := Nat.mul_le_mul_left (2 ^ 48) hle
  rw [Inside, hvalue, hword, room]
  omega

theorem memory_before (h : Inside t k p) (ht : t < n) (hn : n ≤ 252) {i : Nat} (hi : i < 16) :
    (memory n bit (p + .ofNat 64 i)).toNat = t + 1 := by
  rw [memory, (h.generation (by omega) hi).2, if_pos ht, BitVec.toNat_ofNat]
  omega

theorem memory_after (h : Inside t k p) (ht : n < t) (hle : t ≤ 254) {i : Nat} (hi : i < 16) :
    (memory n bit (p + .ofNat 64 i)).toNat = t := by
  rw [memory, (h.generation hle hi).2, if_neg (by omega), if_neg (by omega), BitVec.toNat_ofNat]
  omega

theorem memory_at (h : Inside n k p) (hn : n ≤ 252) {i : Nat} (hi : i < 16) :
    (memory n bit (p + .ofNat 64 i)).toNat = n + 1 + (p.toNat + i) / 2 ^ bit % 2 := by
  obtain ⟨hsum, hgeneration⟩ := h.generation (by omega) hi
  rw [memory, hgeneration, if_neg (by omega), if_pos rfl, hsum, BitVec.toNat_ofNat]
  omega

theorem load_before (h : Inside t k p) (ht : t < n) (hn : n ≤ 252) :
    Inside (t + 1) 256 (readWord (memory n bit) p) := by
  have hlow : (memory n bit (p + 6)).toNat = t + 1 := memory_before h ht hn (i := 6) (by decide)
  exact inside_readWord (by omega) (by omega) (memory_before h ht hn (i := 7) (by decide))

theorem load_after (h : Inside t k p) (ht : n < t) (hle : t ≤ 254) :
    Inside t 256 (readWord (memory n bit) p) := by
  have hlow : (memory n bit (p + 6)).toNat = t := memory_after h ht hle (i := 6) (by decide)
  exact inside_readWord (by omega) (by omega) (memory_after h ht hle (i := 7) (by decide))

theorem load_at (bit : Nat) (h : Inside n k p) (hn : n ≤ 252) :
    Inside (n + 1 + (p.toNat + 7) / 2 ^ bit % 2) 256 (readWord (memory n bit) p) := by
  have hlow : (memory n bit (p + 6)).toNat = _ := memory_at h hn (i := 6) (by decide)
  exact inside_readWord (by omega) (by omega) (memory_at h hn (i := 7) (by decide))

theorem Inside.weaken_le {j : Nat} (h : Inside t k p) (hj : j ≤ k) : Inside t j p := by
  induction hj with
  | refl => exact h
  | step _ ih => exact ih h.weaken

theorem Placed.weaken_le {j : Nat} (h : Placed n t k p) (hj : j ≤ k) : Placed n t j p := by
  obtain ⟨hle, h⟩ | ⟨hlt, last, hlast, hlast', h⟩ := h
  · exact .inl ⟨hle, h.weaken_le hj⟩
  · exact .inr ⟨hlt, last, hlast, hlast', h.weaken_le hj⟩

theorem Placed.add (h : Placed n t (k + 1) p) (hn : n ≤ 252) (hx : Small x) :
    Placed n t k (p + x) := by
  obtain ⟨hle, h⟩ | ⟨hlt, last, hlast, hlast', h⟩ := h
  · exact .inl ⟨hle, h.add (by omega) hx⟩
  · exact .inr ⟨hlt, last, hlast, hlast', h.add (by omega) hx⟩

theorem Placed.load (h : Placed n t k p) (hn : n ≤ 252) :
    Placed n (t + 1) 256 (readWord (memory n bit) p) := by
  obtain ⟨hle, h⟩ | ⟨hlt, last, hlast, hlast', h⟩ := h
  · obtain ht | rfl := Nat.lt_or_eq_of_le hle
    · exact .inl ⟨ht, load_before h ht hn⟩
    · exact .inr ⟨Nat.lt_succ_self _, _, by omega, by omega, load_at bit h hn⟩
  · exact .inr ⟨Nat.lt_succ_of_lt hlt, last, hlast, hlast', load_after h hlast (by omega)⟩

theorem Follows.step (hn : n ≤ 252) (hk : k ≤ 256) (h : Follows n (k + 1) g s)
    (hadds : Adds Small undo) : Follows n k (g.step undo) (undo.run (memory n bit) s) := by
  have hgpr (r : Fin 8) := (h.gpr r).weaken_le (Nat.le_succ k)
  have hrsp := h.rsp.weaken_le (Nat.le_succ k)
  have hadd {x : Ptr} (hx : Small x) := h.rsp.add hn hx
  have hload {p : Ptr} (hp : Placed n g.rsp k p) :
      Placed n (g.rsp + 1) k (readWord (memory n bit) p) := (hp.load hn).weaken_le hk
  have hset (r : Fin 8) {p : Ptr} (hp : Placed n (g.rsp + 1) k p) (r' : Fin 8) :
      Placed n (Function.update g.gpr r (g.rsp + 1) r') k
        (Function.update s.ctx.gpr r p r') := by
    by_cases hr : r' = r
    · rw [hr, Function.update_self, Function.update_self]
      exact hp
    · rw [Function.update_of_ne hr, Function.update_of_ne hr]
      exact hgpr r'
  cases undo with
  | pop r => exact ⟨hset r (hload hrsp), hadd hadds⟩
  | advance x => exact ⟨hgpr, hadd hadds⟩
  | toFrame r x =>
    refine ⟨hgpr, ?_⟩
    have hframe := (h.gpr r).add hn hadds
    rw [← BitVec.sub_eq_add_neg] at hframe
    exact hframe
  | loadGp r x => exact ⟨hset r (hload (hadd hadds)), hrsp⟩
  | loadXmm r x => exact ⟨hgpr, hrsp⟩
  | machineFrame x =>
    refine ⟨hgpr, ?_⟩
    have hend := hload (hadd hadds.2)
    rw [← BitVec.add_assoc] at hend
    exact hend
  | skip => exact ⟨hgpr, hrsp⟩

theorem Follows.run (bit : Nat) (hn : n ≤ 252) (hk : k + us.length ≤ 257)
    (hadds : ∀ undo ∈ us, Adds Small undo) (h : Follows n (k + us.length) g s) :
    Follows n k (us.foldl Generation.step g) (runAll (memory n bit) us s) := by
  induction us generalizing g s with
  | nil => exact h
  | cons undo us ih =>
    obtain ⟨hundo, hus⟩ := List.forall_mem_cons.mp hadds
    rw [List.length_cons] at hk h
    exact ih (by omega) hus (h.step hn (by omega) hundo)

theorem generation_le {last : Nat} (hgpr : ∀ r, g.gpr r ≤ last) (hrsp : g.rsp ≤ last) :
    (us.foldl Generation.step g).rsp ≤ last + us.length := by
  induction us generalizing g last with
  | nil => exact hrsp
  | cons undo us ih =>
    rw [List.length_cons, Nat.add_comm us.length, ← Nat.add_assoc]
    have hupdate (r r' : Fin 8) : Function.update g.gpr r (g.rsp + 1) r' ≤ last + 1 := by
      rw [Function.update_apply]
      split
      · exact Nat.succ_le_succ hrsp
      · exact Nat.le_succ_of_le (hgpr r')
    have hgpr' (r : Fin 8) := Nat.le_succ_of_le (hgpr r)
    have hrsp' := Nat.le_succ_of_le hrsp
    cases undo with
    | pop r | loadGp r x => exact ih (hupdate r) hrsp'
    | toFrame r x => exact ih hgpr' (hgpr' r)
    | machineFrame x => exact ih hgpr' (Nat.succ_le_succ hrsp)
    | advance | loadXmm | skip => exact ih hgpr' hrsp'

theorem bit_apart (a : Nat) (h : d % 2 ^ (bit + 1) = 2 ^ bit) :
    (a + d) / 2 ^ bit % 2 ≠ a / 2 ^ bit % 2 := by
  have hsplit := Nat.div_add_mod d (2 ^ (bit + 1))
  rw [h, Nat.pow_succ, Nat.mul_assoc] at hsplit
  have hodd : a + d = a + 2 ^ bit * (2 * (d / (2 ^ bit * 2)) + 1) := by
    rw [Nat.mul_add, Nat.mul_one]
    omega
  rw [hodd, Nat.add_mul_div_left _ _ (Nat.two_pow_pos bit)]
  omega

theorem parted_byte (h : Parted n d k p q) (hn : n ≤ 252) (hd : d % 2 ^ (bit + 1) = 2 ^ bit)
    {i : Nat} (hi : i < 16) :
    memory n bit (p + .ofNat 64 i) ≠ memory n bit (q + .ofNat 64 i) := by
  intro heq
  have hnat := congrArg BitVec.toNat heq
  obtain ⟨hp, hq, hdist⟩ | ⟨hp, hq⟩ | ⟨hp, hq⟩ := h
  · rw [memory_at hp hn hi, memory_at hq hn hi] at hnat
    obtain hdist | hdist := hdist
    · have hbit := bit_apart (p.toNat + i) hd
      rw [Nat.add_right_comm, ← hdist] at hbit
      omega
    · have hbit := bit_apart (q.toNat + i) hd
      rw [Nat.add_right_comm, ← hdist] at hbit
      omega
  · rw [memory_after hp (by omega) (by omega) hi, memory_after hq (by omega) (by omega) hi] at hnat
    omega
  · rw [memory_after hp (by omega) (by omega) hi, memory_after hq (by omega) (by omega) hi] at hnat
    omega

theorem Parted.weaken (h : Parted n d (k + 1) p q) : Parted n d k p q := by
  obtain ⟨hp, hq, hdist⟩ | ⟨hp, hq⟩ | ⟨hp, hq⟩ := h
  · exact .inl ⟨hp.weaken, hq.weaken, hdist⟩
  · exact .inr (.inl ⟨hp.weaken, hq.weaken⟩)
  · exact .inr (.inr ⟨hp.weaken, hq.weaken⟩)

theorem Parted.add (h : Parted n d (k + 1) p q) (hn : n ≤ 252) (hx : Small x) :
    Parted n d k (p + x) (q + x) := by
  obtain ⟨hp, hq, hdist⟩ | ⟨hp, hq⟩ | ⟨hp, hq⟩ := h
  · have hpx := hp.add (by omega) hx
    have hqx := hq.add (by omega) hx
    refine .inl ⟨hpx, hqx, ?_⟩
    have hstart := start_le (t := n) (by omega)
    have hroom := room_pos k
    have hp' := p.isLt
    have hq' := q.isLt
    rw [Inside, room_succ] at hp hq
    rw [Small] at hx
    rw [BitVec.toNat_add, BitVec.toNat_add]
    omega
  · exact .inr (.inl ⟨hp.add (by omega) hx, hq.add (by omega) hx⟩)
  · exact .inr (.inr ⟨hp.add (by omega) hx, hq.add (by omega) hx⟩)

theorem Parted.load (h : Parted n d k p q) (hn : n ≤ 252) (hd : d % 2 ^ (bit + 1) = 2 ^ bit) :
    Parted n d 256 (readWord (memory n bit) p) (readWord (memory n bit) q) := by
  obtain ⟨hp, hq, hdist⟩ | ⟨hp, hq⟩ | ⟨hp, hq⟩ := h
  · have hload := load_at bit hp hn
    have hload' := load_at bit hq hn
    have hne : (p.toNat + 7) / 2 ^ bit % 2 ≠ (q.toNat + 7) / 2 ^ bit % 2 := by
      obtain hdist | hdist := hdist
      · rw [hdist, Nat.add_right_comm]
        exact (bit_apart _ hd).symm
      · rw [hdist, Nat.add_right_comm]
        exact bit_apart _ hd
    obtain hbit | hbit := Nat.mod_two_eq_zero_or_one ((p.toNat + 7) / 2 ^ bit)
    · have hbit' : (q.toNat + 7) / 2 ^ bit % 2 = 1 := by omega
      rw [hbit] at hload
      rw [hbit'] at hload'
      exact .inr (.inl ⟨hload, hload'⟩)
    · have hbit' : (q.toNat + 7) / 2 ^ bit % 2 = 0 := by omega
      rw [hbit] at hload
      rw [hbit'] at hload'
      exact .inr (.inr ⟨hload, hload'⟩)
  · exact .inr (.inl ⟨load_after hp (by omega) (by omega), load_after hq (by omega) (by omega)⟩)
  · exact .inr (.inr ⟨load_after hp (by omega) (by omega), load_after hq (by omega) (by omega)⟩)

theorem parted_irrefl (h : Parted n d k p p) (hd : d ≠ 0) : False := by
  obtain ⟨-, -, hdist⟩ | ⟨hp, hq⟩ | ⟨hp, hq⟩ := h
  · omega
  · obtain ⟨-, hhigh⟩ := hp
    obtain ⟨hlow, -⟩ := hq
    have hroom := room_pos k
    rw [start, Nat.succ_mul] at hlow
    rw [start] at hhigh
    omega
  · obtain ⟨hlow, -⟩ := hp
    obtain ⟨-, hhigh⟩ := hq
    have hroom := room_pos k
    rw [start, Nat.succ_mul] at hlow
    rw [start] at hhigh
    omega

theorem carried_memory (hn : n ≤ 252) (hd : d % 2 ^ (bit + 1) = 2 ^ bit) :
    Carried (memory n bit) Small 256 (Parted n d) (· ≠ ·) := by
  refine ⟨Parted.weaken, fun x hx h => h.add hn hx, fun h => h.load hn hd, fun {k p q} h heq => ?_⟩
  apply parted_byte h hn hd (i := 0) (by decide)
  have hlow (a : Ptr) : (read128 (memory n bit) a).setWidth 8 = memory n bit a :=
    setWidth_readLE (by decide) _ a 15
  have hbyte := congrArg (BitVec.setWidth 8) heq
  rw [hlow, hlow] at hbyte
  exact (congrArg _ (BitVec.add_zero p)).trans (hbyte.trans (congrArg _ (BitVec.add_zero q).symm))

theorem small_mul {w : Nat} (v : BitVec w) {c : Nat} (hw : w ≤ 16) (hc : c ≤ 16) :
    (v.setWidth 64 * .ofNat 64 c).toNat ≤ 2 ^ 20 := by
  have hpow : 2 ^ w ≤ 2 ^ 16 := Nat.pow_le_pow_right (by decide) hw
  have hmul := Nat.mul_le_mul (Nat.le_trans (Nat.le_of_lt v.isLt) hpow) hc
  have hv : (v.setWidth 64).toNat ≤ v.toNat := by
    rw [BitVec.toNat_setWidth]
    exact Nat.mod_le _ _
  have hc' : (BitVec.ofNat 64 c).toNat ≤ c := by
    rw [BitVec.toNat_ofNat]
    exact Nat.mod_le _ _
  rw [BitVec.toNat_mul]
  exact Nat.le_trans (Nat.mod_le _ _) (Nat.le_trans (Nat.mul_le_mul hv hc') hmul)

theorem small_neg {x : Ptr} (h : x.toNat ≤ 2 ^ 20) : Small (-x) := by
  rw [Small, BitVec.toNat_neg]
  omega

theorem small_setWidth {w : Nat} (v : BitVec w) (hw : w ≤ 32) : Small (v.setWidth 64) := by
  have hpow : 2 ^ w ≤ 2 ^ 32 := Nat.pow_le_pow_right (by decide) hw
  have hv := v.isLt
  left
  rw [BitVec.toNat_setWidth]
  exact Nat.le_trans (Nat.mod_le _ _) (by omega)

variable {frameReg frameRegDisp : BitVec 4} {w w₁ : BitVec 16} {ws : List (BitVec 16)}

theorem decode_adds (h : decode frameReg frameRegDisp w w₁ = .ok undo) : Adds Small undo := by
  have hinfo := small_mul (entryOf w).info (c := 8) (by decide) (by decide)
  simp only [decode] at h
  cases hcode : UnwindCode.ofBits (entryOf w).code with
  | none =>
    rw [hcode] at h
    cases h
    trivial
  | some code =>
    rw [hcode] at h
    cases code with
    | pushNonvolatileReg =>
      obtain ⟨r, -, rfl⟩ := map_ok.mp h
      exact .inl (by decide)
    | allocLarge =>
      cases h
      change Small (if _ then _ else _)
      split
      · have hsmall := small_mul w₁ (c := 8) (by decide) (by decide)
        exact .inl (Nat.le_trans hsmall (by decide))
      · exact small_setWidth _ (by decide)
    | allocSmall =>
      cases h
      left
      change ((entryOf w).info.setWidth 64 * .ofNat 64 8 + 8).toNat ≤ _
      rw [BitVec.toNat_add]
      exact Nat.le_trans (Nat.mod_le _ _) (Nat.le_trans (Nat.add_le_add_right hinfo _) (by decide))
    | setFramePointer =>
      obtain ⟨r, -, rfl⟩ := map_ok.mp h
      have hdisp := small_mul frameRegDisp (c := 16) (by decide) (by decide)
      exact small_neg hdisp
    | saveNonvolatileReg =>
      obtain ⟨r, -, rfl⟩ := map_ok.mp h
      have hsmall := small_mul w₁ (c := 8) (by decide) (by decide)
      exact .inl (Nat.le_trans hsmall (by decide))
    | saveNonvolatileRegFar =>
      obtain ⟨r, -, rfl⟩ := map_ok.mp h
      exact small_setWidth _ (by decide)
    | saveXmm128 =>
      obtain ⟨r, -, rfl⟩ := map_ok.mp h
      have hsmall := small_mul w₁ (c := 16) (by decide) (by decide)
      exact .inl (Nat.le_trans hsmall (by decide))
    | saveXmm128Far =>
      obtain ⟨r, -, rfl⟩ := map_ok.mp h
      exact small_setWidth _ (by decide)
    | pushMachineFrame =>
      cases h
      refine ⟨.inl (Nat.le_trans hinfo (by decide)), .inl ?_⟩
      change ((entryOf w).info.setWidth 64 * .ofNat 64 8 + 24).toNat ≤ _
      rw [BitVec.toNat_add]
      exact Nat.le_trans (Nat.mod_le _ _) (Nat.le_trans (Nat.add_le_add_right hinfo _) (by decide))
    | epilog | unused07 =>
      cases h
      trivial

theorem codes_adds (h : codes frameReg frameRegDisp k ws = .ok us) :
    us.length ≤ ws.length ∧ ∀ undo ∈ us, Adds Small undo := by
  induction ws generalizing k us with
  | nil =>
    cases k with
    | zero =>
      cases h
      exact ⟨Nat.le_refl _, by simp⟩
    | succ k => cases h
  | cons w ws ih =>
    cases k with
    | succ k =>
      obtain ⟨hlen, hadds⟩ := ih h
      exact ⟨Nat.le_succ_of_le hlen, hadds⟩
    | zero =>
      simp only [codes, bind_ok, pure_ok] at h
      obtain ⟨undo, hundo, undos, hundos, rfl⟩ := h
      obtain ⟨hlen, hadds⟩ := ih hundos
      exact ⟨Nat.succ_le_succ hlen, List.forall_mem_cons.mpr ⟨decode_adds hundo, hadds⟩⟩

end Vcrtl.X64.Generations

import Vcrtl.Lib.Memory

namespace Vcrtl.Lib.Parts

open Memory

variable {w : Nat}

def slot (base : BitVec w) (i : Nat) : BitVec w := base + .ofNat w i

abbrev Part := Nat × List Byte

def extent (x : Part) : Nat × Nat := (x.1, x.2.length)

def stores (base : BitVec w) (xs : List Part) : List (Store w) :=
  xs.map fun x => (slot base x.1, x.2)

def Clear (x y : Nat × Nat) : Prop := x.1 + x.2 ≤ y.1 ∨ y.1 + y.2 ≤ x.1

instance decidableClear (x y : Nat × Nat) : Decidable (Clear x y) :=
  inferInstanceAs (Decidable (_ ∨ _))

def Spaced (w : Nat) (es : List (Nat × Nat)) : Prop :=
  es.Pairwise Clear ∧ ∀ e ∈ es, e.1 + e.2 ≤ 2 ^ w

instance decidableSpaced (w : Nat) (es : List (Nat × Nat)) : Decidable (Spaced w es) :=
  inferInstanceAs (Decidable (_ ∧ _))

def Same (m m' : Mem w) (p : BitVec w) (n : Nat) : Prop :=
  ∀ i < n, m' (p + .ofNat w i) = m (p + .ofNat w i)

variable {base p : BitVec w} {m m' m'' : Mem w} {x y : Part} {xs : List Part} {i j n k : Nat}

theorem slot_add : slot base i + .ofNat w n = slot base (i + n) := add_ofNat_add base i n

theorem slot_sub (h : n ≤ i) : slot base i - .ofNat w n = slot base (i - n) := by
  have hadd : slot base (i - n) + .ofNat w n = slot base i := by
    rw [slot_add, Nat.sub_add_cancel h]
  rw [← hadd, BitVec.add_sub_cancel]

theorem slot_disp {d : Int} (h : 0 ≤ i + d) :
    slot base i + .ofInt w d = slot base (i + d).toNat := by
  have hcast : ((i + d).toNat : Int) = i + d := Int.toNat_of_nonneg h
  rw [slot, slot, ← BitVec.ofInt_natCast w (i + d).toNat, hcast, BitVec.ofInt_add,
    BitVec.ofInt_natCast, BitVec.add_assoc]

theorem Clear.symm {e e' : Nat × Nat} (h : Clear e e') : Clear e' e := Or.symm h

theorem apart_parts (h : Clear (extent x) (extent y)) (hx : x.1 + x.2.length ≤ 2 ^ w)
    (hy : y.1 + y.2.length ≤ 2 ^ w) :
    Apart (slot base x.1, x.2) (slot base y.1, y.2) := by
  intro i hi j hj heq
  change i < x.2.length at hi
  change j < y.2.length at hj
  simp only [slot, add_ofNat_add] at heq
  have hnat := congrArg BitVec.toNat ((BitVec.add_right_inj base).mp heq)
  rw [BitVec.toNat_ofNat, BitVec.toNat_ofNat, Nat.mod_eq_of_lt (by omega),
    Nat.mod_eq_of_lt (by omega)] at hnat
  simp only [Clear, extent] at h
  omega

theorem holds_part (h : Spaced w (xs.map extent)) (hx : x ∈ xs) :
    Holds (writeAll m (stores base xs)) (slot base x.1) x.2 := by
  obtain ⟨hclear, hroom⟩ := h
  have hroom (y : Part) (hy : y ∈ xs) : y.1 + y.2.length ≤ 2 ^ w :=
    hroom _ (List.mem_map_of_mem hy)
  have hapart : (stores base xs).Pairwise Apart := by
    rw [stores, List.pairwise_map]
    rw [List.pairwise_map] at hclear
    apply hclear.imp_of_mem
    intro y z hy hz hyz
    exact apart_parts hyz (hroom y hy) (hroom z hz)
  have hlength : ∀ y ∈ stores base xs, y.2.length ≤ 2 ^ w := by
    intro y hy
    obtain ⟨z, hz, rfl⟩ := List.mem_map.mp hy
    have hz := hroom z hz
    change z.2.length ≤ 2 ^ w
    omega
  exact untouched_writeAll hapart hlength _ (List.mem_map_of_mem hx)

theorem holds_beside (hx : x.1 + x.2.length ≤ 2 ^ w)
    (hclear : ∀ e ∈ xs.map extent, Clear (extent x) e ∧ e.1 + e.2 ≤ 2 ^ w)
    (h : Holds m (slot base x.1) x.2) :
    Holds (writeAll m (stores base xs)) (slot base x.1) x.2 := by
  refine holds_writeAll (x := (slot base x.1, x.2)) h ?_
  intro y hy
  obtain ⟨z, hz, rfl⟩ := List.mem_map.mp hy
  obtain ⟨hxz, hroom⟩ := hclear _ (List.mem_map_of_mem hz)
  exact apart_parts hxz hx hroom

theorem writeAll_append (ys : List (Store w)) (zs : List (Store w)) :
    writeAll m (ys ++ zs) = writeAll (writeAll m ys) zs :=
  List.foldl_append

theorem write_stores : write (writeAll m (stores base xs)) (slot base x.1) x.2 =
    writeAll m (stores base (xs ++ [x])) := by
  rw [stores, stores, List.map_append, writeAll_append]
  rfl

theorem slot_zero (base : BitVec w) : slot base 0 = base := BitVec.add_zero base

theorem slot_slot : slot (slot base i) n = slot base (i + n) := slot_add

theorem same_refl (m : Mem w) (p : BitVec w) (n : Nat) : Same m m p n := fun _ _ => rfl

theorem Same.trans (h : Same m m' p n) (h' : Same m' m'' p n) : Same m m'' p n :=
  fun i hi => (h' i hi).trans (h i hi)

theorem Same.within (h : Same m m' (slot base i) n) (hj : i ≤ j) (hk : j + k ≤ i + n) :
    Same m m' (slot base j) k := by
  intro a ha
  have heq : slot base j + .ofNat w a = slot base i + .ofNat w (j - i + a) := by
    rw [slot_add, slot_add]
    congr 1
    omega
  rw [heq]
  exact h (j - i + a) (by omega)

theorem same_write {bs : List Byte} (hclear : Clear (i, n) (j, bs.length)) (hi : i + n ≤ 2 ^ w)
    (hj : j + bs.length ≤ 2 ^ w) : Same m (write m (slot base j) bs) (slot base i) n := by
  intro a ha
  apply write_other
  intro b hb heq
  rw [slot_add, slot_add, slot, slot, BitVec.add_right_inj] at heq
  have hnat := congrArg BitVec.toNat heq
  rw [BitVec.toNat_ofNat, BitVec.toNat_ofNat, Nat.mod_eq_of_lt (by omega),
    Nat.mod_eq_of_lt (by omega)] at hnat
  simp only [Clear] at hclear
  omega

theorem same_stores (hclear : ∀ e ∈ xs.map extent, Clear (i, n) e ∧ e.1 + e.2 ≤ 2 ^ w)
    (hi : i + n ≤ 2 ^ w) : Same m (writeAll m (stores base xs)) (slot base i) n := by
  induction xs generalizing m with
  | nil => exact same_refl m _ n
  | cons x xs ih =>
    rw [List.map_cons, List.forall_mem_cons] at hclear
    obtain ⟨⟨hx, hroom⟩, hxs⟩ := hclear
    have hfirst : Same m (write m (slot base x.1) x.2) (slot base i) n := same_write hx hi hroom
    exact hfirst.trans (ih hxs)

theorem Same.readLE (h : Same m m' p n) : readLE m' p n = readLE m p n := by
  induction n generalizing p with
  | zero => rfl
  | succ n ih =>
    have hfirst := h 0 (Nat.succ_pos n)
    rw [BitVec.add_zero] at hfirst
    have hrest : Same m m' (p + 1) n := by
      intro i hi
      rw [add_ofNat_succ]
      exact h (i + 1) (Nat.succ_lt_succ hi)
    rw [Memory.readLE, Memory.readLE, hfirst, ih hrest]

theorem Same.readWord (h : Same m m' p (w / 8)) : readWord m' p = readWord m p := by
  rw [Memory.readWord, Memory.readWord, h.readLE]

theorem Same.read128 (h : Same m m' p 16) : read128 m' p = read128 m p := by
  rw [Memory.read128, Memory.read128, h.readLE]

end Vcrtl.Lib.Parts

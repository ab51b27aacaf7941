import Mathlib.Algebra.Ring.Int.Defs
import Mathlib.Algebra.Ring.Nat

namespace Vcrtl.Lib.Memory

variable {w : Nat}

abbrev Byte := BitVec 8

/-- A flat memory of bytes over `w`-bit addresses. Every address is readable. -/
abbrev Mem (w : Nat) := BitVec w → Byte

def readLE (m : Mem w) (p : BitVec w) : Nat → Nat
  | 0 => 0
  | n + 1 => (m p).toNat + 256 * readLE m (p + 1) n

def read16 (m : Mem w) (p : BitVec w) : BitVec 16 := .ofNat 16 (readLE m p 2)

def read32 (m : Mem w) (p : BitVec w) : BitVec 32 := .ofNat 32 (readLE m p 4)

def read128 (m : Mem w) (p : BitVec w) : BitVec 128 := .ofNat 128 (readLE m p 16)

def readWord (m : Mem w) (p : BitVec w) : BitVec w := .ofNat w (readLE m p (w / 8))

def bytesLE : Nat → Nat → List Byte
  | 0, _ => []
  | n + 1, v => .ofNat 8 v :: bytesLE n (v / 256)

def valueLE : List Byte → Nat
  | [] => 0
  | b :: bs => b.toNat + 256 * valueLE bs

def write (m : Mem w) (p : BitVec w) (bs : List Byte) : Mem w :=
  fun a => bs.getD (a - p).toNat (m a)

def writeWord (m : Mem w) (p v : BitVec w) : Mem w := write m p (bytesLE (w / 8) v.toNat)

def readBytes (m : Mem w) (p : BitVec w) : Nat → List Byte
  | 0 => []
  | n + 1 => m p :: readBytes m (p + 1) n

def Holds (m : Mem w) (p : BitVec w) : List Byte → Prop
  | [] => True
  | b :: bs => m p = b ∧ Holds m (p + 1) bs

abbrev Store (w : Nat) := BitVec w × List Byte

def writeAll (m : Mem w) (xs : List (Store w)) : Mem w := xs.foldl (fun m x => write m x.1 x.2) m

def Untouched (m : Mem w) (xs : List (Store w)) : Prop := ∀ x ∈ xs, Holds m x.1 x.2

def Apart (x y : Store w) : Prop :=
  ∀ i < x.2.length, ∀ j < y.2.length, x.1 + .ofNat w i ≠ y.1 + .ofNat w j

instance (x y : Store w) : Decidable (Apart x y) :=
  inferInstanceAs (Decidable (∀ i < x.2.length, ∀ j < y.2.length, _))

instance decidableHolds (m : Mem w) : (p : BitVec w) → (bs : List Byte) → Decidable (Holds m p bs)
  | _, [] => inferInstanceAs (Decidable True)
  | p, _ :: bs => @instDecidableAnd _ _ _ (decidableHolds m (p + 1) bs)

@[simp] theorem holds_nil (m : Mem w) (p : BitVec w) : Holds m p [] := trivial

theorem add_ofNat_succ (p : BitVec w) (n : Nat) : p + 1 + .ofNat w n = p + .ofNat w (n + 1) := by
  rw [Nat.add_comm n 1, BitVec.ofNat_add, BitVec.add_assoc]
  rfl

theorem add_ofNat_add (p : BitVec w) (a b : Nat) :
    p + .ofNat w a + .ofNat w b = p + .ofNat w (a + b) := by
  rw [BitVec.ofNat_add, BitVec.add_assoc]

theorem holds_append (m : Mem w) (p : BitVec w) (as bs : List Byte) :
    Holds m p (as ++ bs) ↔ Holds m p as ∧ Holds m (p + .ofNat w as.length) bs := by
  induction as generalizing p with
  | nil => simp
  | cons a as ih =>
    simp only [List.cons_append, Holds, ih, add_ofNat_succ, List.length_cons, and_assoc]

theorem readLE_holds {m : Mem w} {p : BitVec w} {bs : List Byte} (h : Holds m p bs) :
    readLE m p bs.length = valueLE bs := by
  induction bs generalizing p with
  | nil => rfl
  | cons b bs ih => simp only [List.length_cons, readLE, valueLE, h.1, ih h.2]

theorem readLE_lt (m : Mem w) (p : BitVec w) (n : Nat) : readLE m p n < 256 ^ n := by
  induction n generalizing p with
  | zero => simp [readLE]
  | succ n ih =>
    have h := ih (p + 1)
    have hb := (m p).isLt
    simp only [readLE, Nat.pow_succ]
    omega

theorem toNat_read32 (m : Mem w) (p : BitVec w) : (read32 m p).toNat = readLE m p 4 := by
  rw [read32, BitVec.toNat_ofNat]
  exact Nat.mod_eq_of_lt (readLE_lt m p 4)

theorem readLE_add (m : Mem w) (p : BitVec w) (a b : Nat) :
    readLE m p (a + b) = readLE m p a + 256 ^ a * readLE m (p + .ofNat w a) b := by
  induction a generalizing p with
  | zero => simp [readLE]
  | succ a ih =>
    rw [Nat.add_right_comm]
    simp only [readLE, ih, add_ofNat_succ, Nat.pow_succ']
    rw [Nat.mul_add, Nat.add_assoc, Nat.mul_assoc]

@[simp] theorem length_bytesLE (n v : Nat) : (bytesLE n v).length = n := by
  induction n generalizing v with
  | zero => rfl
  | succ n ih => simp [bytesLE, ih]

theorem valueLE_bytesLE (n v : Nat) : valueLE (bytesLE n v) = v % 256 ^ n := by
  induction n generalizing v with
  | zero => simp [bytesLE, valueLE, Nat.mod_one]
  | succ n ih =>
    have hb : (BitVec.ofNat 8 v).toNat = v % 256 := BitVec.toNat_ofNat v 8
    rw [bytesLE, valueLE, ih, hb, Nat.pow_succ', Nat.mod_mul]

theorem readLE_bytesLE {m : Mem w} {p : BitVec w} {n v : Nat} (h : Holds m p (bytesLE n v)) :
    readLE m p n = v % 256 ^ n := by
  rw [← valueLE_bytesLE, ← readLE_holds h, length_bytesLE]

theorem read32_bytesLE {m : Mem w} {p : BitVec w} {v : BitVec 32}
    (h : Holds m p (bytesLE 4 v.toNat)) : read32 m p = v := by
  apply BitVec.eq_of_toNat_eq
  rw [toNat_read32, readLE_bytesLE h]
  exact Nat.mod_eq_of_lt v.isLt

theorem holds_readBytes (m : Mem w) (p : BitVec w) (n : Nat) : Holds m p (readBytes m p n) := by
  induction n generalizing p with
  | zero => trivial
  | succ n ih => exact ⟨rfl, ih (p + 1)⟩

theorem bytesLE_readLE (m : Mem w) (p : BitVec w) (n : Nat) :
    bytesLE n (readLE m p n) = readBytes m p n := by
  induction n generalizing p with
  | zero => rfl
  | succ n ih =>
    have hbyte : BitVec.ofNat 8 ((m p).toNat + 256 * readLE m (p + 1) n) = m p := by
      apply BitVec.eq_of_toNat_eq
      have := (m p).isLt
      rw [BitVec.toNat_ofNat]
      omega
    have hrest : ((m p).toNat + 256 * readLE m (p + 1) n) / 256 = readLE m (p + 1) n := by
      have := (m p).isLt
      omega
    rw [readLE, bytesLE, hbyte, hrest, ih, readBytes]

theorem holds_congr {m m' : Mem w} {p : BitVec w} {bs : List Byte}
    (hm : ∀ i < bs.length, m' (p + .ofNat w i) = m (p + .ofNat w i)) (h : Holds m p bs) :
    Holds m' p bs := by
  induction bs generalizing p with
  | nil => trivial
  | cons b bs ih =>
    refine ⟨?_, ih (fun i hi => ?_) h.2⟩
    · have h0 := hm 0 (by simp)
      rw [BitVec.add_zero] at h0
      rw [h0, h.1]
    · rw [add_ofNat_succ]
      exact hm (i + 1) (by simpa using hi)

theorem write_other {m : Mem w} {p a : BitVec w} {bs : List Byte}
    (h : ∀ j < bs.length, a ≠ p + .ofNat w j) : write m p bs a = m a := by
  have hle : bs.length ≤ (a - p).toNat := by
    by_contra hlt
    apply h (a - p).toNat (by omega)
    rw [BitVec.ofNat_toNat, BitVec.setWidth_eq, BitVec.add_comm, BitVec.sub_add_cancel]
  rw [write, List.getD_eq_getElem?_getD, List.getElem?_eq_none hle, Option.getD_none]

theorem holds_of_forall {m : Mem w} {p : BitVec w} {bs : List Byte}
    (h : ∀ (i : Nat) (hi : i < bs.length), m (p + .ofNat w i) = bs[i]) : Holds m p bs := by
  induction bs generalizing p with
  | nil => trivial
  | cons b bs ih =>
    refine ⟨?_, ih fun i hi => ?_⟩
    · have h0 := h 0 (by simp)
      rwa [BitVec.add_zero] at h0
    · rw [add_ofNat_succ]
      exact h (i + 1) (by simpa using hi)

theorem holds_write {m : Mem w} {p : BitVec w} {bs : List Byte} (h : bs.length ≤ 2 ^ w) :
    Holds (write m p bs) p bs := by
  apply holds_of_forall
  intro i hi
  have hsub : (p + .ofNat w i - p).toNat = i := by
    rw [BitVec.add_comm, BitVec.add_sub_cancel, BitVec.toNat_ofNat, Nat.mod_eq_of_lt (by omega)]
  rw [write, hsub, List.getD_eq_getElem?_getD, List.getElem?_eq_getElem hi, Option.getD_some]

theorem readWord_bytesLE {m : Mem w} {p v : BitVec w} (hw : 8 ∣ w)
    (h : Holds m p (bytesLE (w / 8) v.toNat)) : readWord m p = v := by
  obtain ⟨k, rfl⟩ := hw
  have hpow : 256 ^ (8 * k / 8) = 2 ^ (8 * k) := by
    rw [Nat.mul_div_cancel_left k (by decide), Nat.pow_mul]
  rw [readWord, readLE_bytesLE h, hpow, Nat.mod_eq_of_lt v.isLt, BitVec.ofNat_toNat,
    BitVec.setWidth_eq]

theorem read128_bytesLE {m : Mem w} {p : BitVec w} {v : BitVec 128}
    (h : Holds m p (bytesLE 16 v.toNat)) : read128 m p = v := by
  have hv := v.isLt
  rw [read128, readLE_bytesLE h, Nat.mod_eq_of_lt (by omega), BitVec.ofNat_toNat,
    BitVec.setWidth_eq]

theorem readWord_writeWord {m : Mem w} {p v : BitVec w} (h : 8 ∣ w) :
    readWord (writeWord m p v) p = v := by
  have hlen : (bytesLE (w / 8) v.toNat).length ≤ 2 ^ w := by
    have := Nat.lt_two_pow_self (n := w)
    rw [length_bytesLE]
    omega
  exact readWord_bytesLE h (holds_write hlen)

theorem Apart.symm {x y : Store w} (h : Apart x y) : Apart y x :=
  fun i hi j hj => (h j hj i hi).symm

theorem holds_writeAll {m : Mem w} {x : Store w} {ys : List (Store w)} (h : Holds m x.1 x.2)
    (hy : ∀ y ∈ ys, Apart x y) : Holds (writeAll m ys) x.1 x.2 := by
  induction ys generalizing m with
  | nil => exact h
  | cons y ys ih =>
    refine ih (holds_congr (fun i hi => ?_) h) fun z hz => hy z (List.mem_cons_of_mem _ hz)
    exact write_other (hy y List.mem_cons_self i hi)

/-- Stores that do not overlap can all be read back. -/
theorem untouched_writeAll {m : Mem w} {xs : List (Store w)} (h : xs.Pairwise Apart)
    (hlen : ∀ x ∈ xs, x.2.length ≤ 2 ^ w) : Untouched (writeAll m xs) xs := by
  induction xs generalizing m with
  | nil => simp [Untouched]
  | cons x xs ih =>
    obtain ⟨hx, hxs⟩ := List.pairwise_cons.mp h
    obtain ⟨hxl, hxsl⟩ := List.forall_mem_cons.mp hlen
    have hfirst : Holds (write m x.1 x.2) x.1 x.2 := holds_write hxl
    have hkept : Holds (writeAll (write m x.1 x.2) xs) x.1 x.2 := holds_writeAll hfirst hx
    exact List.forall_mem_cons.mpr ⟨hkept, ih hxs hxsl⟩

end Vcrtl.Lib.Memory

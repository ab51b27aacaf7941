import Vcrtl.Lib.Memory
import Vcrtl.X64.EhStructs

namespace Vcrtl.X64.Compressed

open Lib.Memory EhStructs

def lengths : List Nat := [1, 2, 1, 3, 1, 2, 1, 4, 1, 2, 1, 3, 1, 2, 1, 5]

def shifts : List Nat :=
  [0x19, 0x12, 0x19, 0x0b, 0x19, 0x12, 0x19, 0x04, 0x19, 0x12, 0x19, 0x0b, 0x19, 0x12, 0x19, 0x00]

/-- `read_unsigned`: the number at an address, and the address behind it. -/
def readUnsigned (m : Mem 64) (data : Ptr) : BitVec 32 × Ptr :=
  let encType := (m data &&& 0xf).toNat
  let length := lengths.getD encType 0
  let r := read32 m (data + .ofNat 64 length - 4)
  (r >>> shifts.getD encType 0, data + .ofNat 64 length)

def readInt (m : Mem 64) (data : Ptr) : BitVec 32 × Ptr := (read32 m data, data + 4)

def readRva (m : Mem 64) (data : Ptr) : Rva × Ptr := readInt m data

/-- The bytes are one of the up to five forms of the number. -/
def Encodes (v : BitVec 32) (bs : List Byte) : Prop :=
  (∃ n, 1 ≤ n ∧ n ≤ 4 ∧ v.toNat < 2 ^ (7 * n) ∧
      bs = bytesLE n (v.toNat * 2 ^ n + (2 ^ (n - 1) - 1))) ∨
    ∃ b : Byte, b.toNat % 16 = 15 ∧ bs = b :: bytesLE 4 v.toNat

theorem Encodes.ne_nil {v : BitVec 32} {bs : List Byte} (h : Encodes v bs) : 0 < bs.length := by
  obtain ⟨n, hn, -, -, rfl⟩ | ⟨b, -, rfl⟩ := h
  · rw [length_bytesLE]
    omega
  · exact Nat.succ_pos _

theorem Encodes.length_le {v : BitVec 32} {bs : List Byte} (h : Encodes v bs) : bs.length ≤ 5 := by
  obtain ⟨n, -, hn, -, rfl⟩ | ⟨b, -, rfl⟩ := h
  · rw [length_bytesLE]
    omega
  · simp

theorem toNat_nibble (b : Byte) : (b &&& 0xf).toNat = b.toNat % 16 := by
  rw [BitVec.toNat_and]
  exact Nat.and_two_pow_sub_one_eq_mod b.toNat 4

theorem tables_short : ∀ n < 5, 1 ≤ n → ∀ x < 16, x % 2 ^ n = 2 ^ (n - 1) - 1 →
    lengths.getD x 0 = n ∧ shifts.getD x 0 = 32 - 7 * n := by
  decide

theorem shift_low {low v c a n : Nat} (hlow : low < 2 ^ a) (hc : c < 2 ^ n) :
    (low + 2 ^ a * (v * 2 ^ n + c)) / 2 ^ (a + n) = v := by
  rw [Nat.pow_add, ← Nat.div_div_eq_div_mul, Nat.add_mul_div_left _ _ (Nat.two_pow_pos a),
    Nat.div_eq_of_lt hlow, Nat.zero_add, Nat.mul_comm v, Nat.mul_add_div (Nat.two_pow_pos n),
    Nat.div_eq_of_lt hc, Nat.add_zero]

theorem load_start (p : Ptr) {n : Nat} (hn : n ≤ 4) :
    p + .ofNat 64 n - 4 + .ofNat 64 (4 - n) = p := by
  have h4 : BitVec.ofNat 64 n + BitVec.ofNat 64 (4 - n) = 4 := by
    rw [← BitVec.ofNat_add, Nat.add_sub_cancel' hn]
    rfl
  rw [BitVec.sub_eq_add_neg, BitVec.add_assoc, BitVec.add_assoc, BitVec.add_comm (-4),
    ← BitVec.add_assoc _ _ (-4), h4]
  exact BitVec.add_zero p

theorem nibble_short {m : Mem 64} {p : Ptr} {n v c : Nat} (hpos : 1 ≤ n) (hn : n ≤ 4)
    (hc : c < 2 ^ n) (hm : Holds m p (bytesLE n (v * 2 ^ n + c))) :
    (m p &&& 0xf).toNat % 2 ^ n = c := by
  obtain ⟨k, rfl⟩ := Nat.exists_eq_add_of_le' hpos
  have hdvd : 2 ^ (k + 1) ∣ 16 := Nat.pow_dvd_pow 2 hn
  have hdvd' : 2 ^ (k + 1) ∣ 256 := Nat.pow_dvd_pow 2 (show k + 1 ≤ 8 by omega)
  rw [toNat_nibble, hm.1, BitVec.toNat_ofNat]
  calc (v * 2 ^ (k + 1) + c) % 256 % 16 % 2 ^ (k + 1)
      = (v * 2 ^ (k + 1) + c) % 256 % 2 ^ (k + 1) := Nat.mod_mod_of_dvd _ hdvd
    _ = (v * 2 ^ (k + 1) + c) % 2 ^ (k + 1) := Nat.mod_mod_of_dvd _ hdvd'
    _ = c := by rw [Nat.add_comm, Nat.add_mul_mod_self_right, Nat.mod_eq_of_lt hc]

theorem read_short {m : Mem 64} {p : Ptr} {n v c : Nat} (hn : n ≤ 4) (hc : c < 2 ^ n)
    (hv : v < 2 ^ (7 * n)) (hm : Holds m p (bytesLE n (v * 2 ^ n + c))) :
    (read32 m (p + .ofNat 64 n - 4)).toNat / 2 ^ (32 - 7 * n) = v := by
  have hx : v * 2 ^ n + c < 256 ^ n := by
    have hle : (v + 1) * 2 ^ n ≤ 2 ^ (7 * n) * 2 ^ n := Nat.mul_le_mul_right _ hv
    have hpow : 2 ^ (7 * n) * 2 ^ n = 256 ^ n := by
      rw [← Nat.pow_add, ← Nat.succ_mul, Nat.pow_mul]
    rw [Nat.add_mul, Nat.one_mul, hpow] at hle
    omega
  have hlow := readLE_lt m (p + .ofNat 64 n - 4) (4 - n)
  have hload := readLE_add m (p + .ofNat 64 n - 4) (4 - n) n
  rw [load_start p hn, readLE_bytesLE hm, Nat.mod_eq_of_lt hx, Nat.sub_add_cancel hn] at hload
  have hpow : 256 ^ (4 - n) = 2 ^ (32 - 8 * n) := by
    have hmul : 32 - 8 * n = 8 * (4 - n) := by omega
    rw [hmul, Nat.pow_mul]
  have hshift : 32 - 7 * n = 32 - 8 * n + n := by omega
  rw [toNat_read32, hload, hpow, hshift]
  exact shift_low (hpow ▸ hlow) hc

/-- Whatever lies before a number, its own bytes decide what is read. -/
theorem readUnsigned_encodes {m : Mem 64} {p : Ptr} {v : BitVec 32} {bs : List Byte}
    (h : Encodes v bs) (hm : Holds m p bs) : readUnsigned m p = (v, p + .ofNat 64 bs.length) := by
  obtain ⟨n, hpos, hn, hv, rfl⟩ | ⟨b, hb, rfl⟩ := h
  · have hc : 2 ^ (n - 1) - 1 < 2 ^ n := by
      have := Nat.pow_le_pow_right (n := 2) (by decide) (Nat.sub_le n 1)
      have := Nat.two_pow_pos (n - 1)
      omega
    have hnibble := nibble_short hpos hn hc hm
    have hlt : (m p &&& 0xf).toNat < 16 := by
      rw [toNat_nibble]
      omega
    obtain ⟨hlength, hshift⟩ := tables_short n (by omega) hpos _ hlt hnibble
    rw [readUnsigned, hlength, hshift, length_bytesLE]
    apply Prod.ext
    · apply BitVec.eq_of_toNat_eq
      rw [BitVec.toNat_ushiftRight, Nat.shiftRight_eq_div_pow]
      exact read_short hn hc hv hm
    · rfl
  · have hnibble : (m p &&& 0xf).toNat = 15 := by rw [toNat_nibble, hm.1, hb]
    have hstart : p + .ofNat 64 5 - 4 = p + 1 := by
      rw [BitVec.sub_eq_add_neg, BitVec.add_assoc]
      rfl
    rw [readUnsigned, hnibble, List.length_cons, length_bytesLE]
    apply Prod.ext
    · change read32 m (p + .ofNat 64 5 - 4) >>> 0 = v
      rw [BitVec.ushiftRight_zero, hstart, read32_bytesLE hm.2]
    · rfl

theorem readRva_holds {m : Mem 64} {p : Ptr} {r : Rva} (hm : Holds m p (bytesLE 4 r.toNat)) :
    readRva m p = (r, p + 4) := by
  rw [readRva, readInt, read32_bytesLE hm]

def readList (m : Mem 64) : Nat → Ptr → List (BitVec 32) × Ptr
  | 0, p => ([], p)
  | count + 1, p =>
    let (v, p) := readUnsigned m p
    let (vs, p) := readList m count p
    (v :: vs, p)

/-- The number is shifted over its tag, whose ones tell the length of the form. -/
def shortForm (n v : Nat) : List Byte := bytesLE n (v <<< n ||| (2 ^ (n - 1) - 1))

def longForm (b : Byte) (v : Nat) : List Byte := b :: bytesLE 4 v

def IsForm (v : BitVec 32) (bs : List Byte) : Prop :=
  (∃ n, 1 ≤ n ∧ n ≤ 4 ∧ v.toNat < 2 ^ (7 * n) ∧ bs = shortForm n v.toNat) ∨
    ∃ b : Byte, b &&& 0xf = 0xf ∧ bs = longForm b v.toNat

theorem IsForm.encodes {v : BitVec 32} {bs : List Byte} (h : IsForm v bs) : Encodes v bs := by
  obtain ⟨n, hpos, hn, hv, rfl⟩ | ⟨b, hb, rfl⟩ := h
  · left
    have htag : 2 ^ (n - 1) - 1 < 2 ^ n := by
      have := Nat.pow_le_pow_right (n := 2) (by decide) (Nat.sub_le n 1)
      have := Nat.two_pow_pos n
      omega
    refine ⟨n, hpos, hn, hv, ?_⟩
    rw [shortForm, ← Nat.shiftLeft_add_eq_or_of_lt htag, Nat.shiftLeft_eq]
  · right
    refine ⟨b, ?_, rfl⟩
    rw [← toNat_nibble, hb]
    rfl

def EncodesList : List (BitVec 32) → List Byte → Prop
  | [], bs => bs = []
  | v :: vs, bs => ∃ first rest, bs = first ++ rest ∧ IsForm v first ∧ EncodesList vs rest

theorem readList_encodes {m : Mem 64} {p : Ptr} {vs : List (BitVec 32)} {bs : List Byte}
    (h : EncodesList vs bs) (hm : Holds m p bs) :
    readList m vs.length p = (vs, p + .ofNat 64 bs.length) := by
  induction vs generalizing bs p with
  | nil =>
    obtain rfl : bs = [] := h
    exact Prod.ext rfl (BitVec.add_zero p).symm
  | cons v vs ih =>
    obtain ⟨first, rest, rfl, hfirst, hrest⟩ := h
    rw [holds_append] at hm
    simp only [List.length_cons, readList, readUnsigned_encodes hfirst.encodes hm.1,
      ih hrest hm.2, add_ofNat_add, List.length_append]

/-- Whatever lies around the numbers, they are read, and the cursor comes to their end. -/
theorem readList_exact (m : Mem 64) (p : Ptr) (vs : List (BitVec 32))
    (before bs after : List Byte) (h : EncodesList vs bs)
    (hm : Holds m p (before ++ (bs ++ after))) :
    readList m vs.length (p + .ofNat 64 before.length) =
        (vs, p + .ofNat 64 (before ++ bs).length) ∧
      ∀ m', Holds m' (p + .ofNat 64 before.length) bs →
        readList m' vs.length (p + .ofNat 64 before.length) =
          readList m vs.length (p + .ofNat 64 before.length) := by
  rw [holds_append, holds_append] at hm
  have hread := readList_encodes h hm.2.1
  refine ⟨?_, ?_⟩
  · rw [hread, List.length_append, add_ofNat_add]
  · intro m' hm'
    rw [hread, readList_encodes h hm']

/-- A number in its longest form behind one in its shortest, in bytes that are not 0. -/
theorem readList_two : readList (write (fun _ => 0xff) 0x1000 [0x0a, 0x1f, 0x78, 0x56, 0x34, 0x12])
    2 0x1000 = ([5, 0x12345678], 0x1006) := by
  have hforms : EncodesList [5, 0x12345678] [0x0a, 0x1f, 0x78, 0x56, 0x34, 0x12] := by
    refine ⟨[0x0a], _, rfl, .inl ⟨1, by decide, by decide, by decide, by decide⟩, ?_⟩
    exact ⟨[0x1f, 0x78, 0x56, 0x34, 0x12], [], rfl, .inr ⟨0x1f, by decide, by decide⟩, rfl⟩
  exact (readList_exact _ 0x1000 [5, 0x12345678] [] _ [] hforms (by decide)).1

end Vcrtl.X64.Compressed

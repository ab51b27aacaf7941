import Vcrtl.Lib.Memory

namespace Vcrtl.Lib.Layout

open Memory

def start (parts : List (List Byte)) (i : Nat) : Nat := (parts.take i).flatten.length

variable {parts : List (List Byte)}

theorem start_succ {i : Nat} (h : i < parts.length) :
    start parts (i + 1) = start parts i + parts[i].length := by
  rw [start, List.take_succ_eq_append_getElem h, List.flatten_append, List.length_append,
    List.flatten_singleton, start]

theorem start_lt (hne : ∀ x ∈ parts, 0 < x.length) {i j : Nat} (hij : i < j)
    (hj : j ≤ parts.length) : start parts i < start parts j := by
  induction j with
  | zero => omega
  | succ j ih =>
    have hpos := hne _ (List.getElem_mem (show j < parts.length by omega))
    rw [start_succ (by omega)]
    obtain rfl | h : i = j ∨ i < j := by omega
    · omega
    · have := ih h (by omega)
      omega

theorem start_le {n : Nat} (hlen : ∀ x ∈ parts, x.length ≤ n) (i : Nat) :
    start parts i ≤ n * i := by
  induction i with
  | zero => exact Nat.le_refl _
  | succ i ih =>
    by_cases h : i < parts.length
    · have := hlen _ (List.getElem_mem h)
      rw [start_succ h, Nat.mul_succ]
      omega
    · rw [start, List.take_of_length_le (by omega)] at ih ⊢
      rw [Nat.mul_succ]
      omega

variable {w : Nat} {m : Mem w} {p : BitVec w}

theorem holds_part (h : Holds m p parts.flatten) {i : Nat} (hi : i < parts.length) :
    Holds m (p + .ofNat w (start parts i)) parts[i] := by
  have hsplit : parts.flatten =
      (parts.take i).flatten ++ (parts[i] ++ (parts.drop (i + 1)).flatten) := by
    rw [← List.flatten_cons, List.getElem_cons_drop, ← List.flatten_append, List.take_append_drop]
  rw [hsplit, holds_append, holds_append] at h
  exact h.2.1

end Vcrtl.Lib.Layout

import Mathlib.Data.List.Basic

namespace Vcrtl.Lib.Descent

/-- Numbered nodes, each below one of a smaller number. A negative number stands
for none. -/
structure Forest where
  next : Nat → Int
  next_lt : ∀ i : Nat, next i < i

variable (g : Forest)

/-- A node and those above it, up to the root. -/
def chain (s : Int) : List Nat :=
  if 0 ≤ s then s.toNat :: chain (g.next s.toNat) else []
termination_by (s + 1).toNat
decreasing_by
  have h := g.next_lt s.toNat
  omega

/-- The part of a chain with larger numbers than the target. -/
def above (target s : Int) : List Nat := (chain g s).filter fun i => target < i

variable {g} {s target : Int}

theorem chain_nonneg (h : 0 ≤ s) : chain g s = s.toNat :: chain g (g.next s.toNat) := by
  rw [chain, if_pos h]

theorem chain_node (i : Nat) : chain g i = i :: chain g (g.next i) := by
  rw [chain_nonneg (by omega), Int.toNat_natCast]

theorem le_of_mem_chain {i : Nat} (h : i ∈ chain g s) : (i : Int) ≤ s := by
  fun_induction chain g s with
  | case1 s hs ih =>
    have hnext := g.next_lt s.toNat
    obtain rfl | hi := List.mem_cons.mp h
    · omega
    · have := ih hi
      omega
  | case2 s hs => simp at h

theorem above_done (h : s ≤ target) : above g target s = [] := by
  rw [above, List.filter_eq_nil_iff]
  intro i hi
  have := le_of_mem_chain hi
  simp only [decide_eq_true_eq]
  omega

theorem above_step (h : target < s) (hs : 0 ≤ s) :
    above g target s = s.toNat :: above g target (g.next s.toNat) := by
  rw [above, chain_nonneg hs, List.filter_cons_of_pos (by simp only [decide_eq_true_eq]; omega)]
  rfl

theorem above_pred (i : Nat) :
    above g (i - 1) s = above g i s ++ if i ∈ chain g s then [i] else [] := by
  fun_induction chain g s with
  | case1 s hs ih =>
    have hnext := g.next_lt s.toNat
    by_cases hlt : (i : Int) < s
    · rw [above_step (by omega) hs, above_step hlt hs, ih]
      have hne : i ≠ s.toNat := by omega
      simp [hne]
    · have hdone : above g i s = [] := above_done (by omega)
      rw [hdone, List.nil_append]
      by_cases hi : i = s.toNat
      · subst hi
        rw [above_step (by omega) hs, above_done (by omega), if_pos List.mem_cons_self]
      · rw [above_done (by omega), if_neg]
        rw [← chain_nonneg hs]
        intro hmem
        have := le_of_mem_chain hmem
        omega
  | case2 s hs =>
    rw [above_done (by omega), above_done (by omega)]
    simp

theorem chain_split {i : Nat} (h : i ∈ chain g s) : chain g s = above g i s ++ chain g i := by
  fun_induction chain g s with
  | case1 s hs ih =>
    by_cases hlt : (i : Int) < s
    · have hmem : i ∈ chain g (g.next s.toNat) := by
        obtain rfl | hmem := List.mem_cons.mp h
        · omega
        · exact hmem
      rw [above_step hlt hs, ih hmem, List.cons_append]
    · have hle := le_of_mem_chain (chain_nonneg hs ▸ h)
      have hi : s = i := by omega
      subst hi
      rw [above_done (by omega), chain_nonneg hs]
      rfl
  | case2 s hs => simp at h

theorem lt_of_mem_above {i : Nat} (h : i ∈ above g target s) : target < i := by
  have := (List.mem_filter.mp h).2
  simpa using this

theorem above_of_split {inner outer : List Nat} (h : chain g s = inner ++ outer)
    (hinner : ∀ i ∈ inner, target < i) (houter : ∀ i ∈ outer, (i : Int) ≤ target) :
    above g target s = inner := by
  rw [above, h, List.filter_append, List.filter_eq_self.mpr, List.filter_eq_nil_iff.mpr,
    List.append_nil]
  · intro i hi
    have := houter i hi
    simpa using this
  · intro i hi
    simpa using hinner i hi

end Vcrtl.Lib.Descent

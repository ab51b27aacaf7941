import Mathlib.Order.RelClasses

namespace Vcrtl.Lib.Bisect

/-- Halve the positions from `l` on and below `r`. `cmp` tells on which side of a
position lies what is looked for. -/
def bisect (cmp : Nat → Ordering) (l r : Nat) : Option Nat :=
  if l < r then
    let mid := l + (r - l) / 2
    match cmp mid with
    | .lt => bisect cmp l mid
    | .gt => bisect cmp (mid + 1) r
    | .eq => some mid
  else
    none
termination_by r - l

structure Ordered (cmp : Nat → Ordering) (n : Nat) : Prop where
  before : ∀ i j, i ≤ j → j < n → cmp i = .lt → cmp j = .lt
  behind : ∀ i j, i ≤ j → j < n → cmp j = .gt → cmp i = .gt

variable {cmp : Nat → Ordering} {l r n i : Nat}

theorem bisect_found (h : bisect cmp l r = some i) : l ≤ i ∧ i < r ∧ cmp i = .eq := by
  fun_induction bisect cmp l r with
  | case1 l r hlt mid hcmp ih =>
    obtain ⟨hl, hr, hi⟩ := ih h
    exact ⟨hl, by omega, hi⟩
  | case2 l r hlt mid hcmp ih =>
    obtain ⟨hl, hr, hi⟩ := ih h
    exact ⟨by omega, hr, hi⟩
  | case3 l r hlt mid hcmp =>
    obtain rfl := Option.some.inj h
    exact ⟨by omega, by omega, hcmp⟩
  | case4 l r hlt => cases h

theorem bisect_none (hcmp : Ordered cmp n) (hr : r ≤ n) (h : bisect cmp l r = none) :
    ∀ i, l ≤ i → i < r → cmp i ≠ .eq := by
  fun_induction bisect cmp l r with
  | case1 l r hlt mid hmid ih =>
    intro i hl hi heq
    by_cases hleft : i < mid
    · exact ih (by omega) h i hl hleft heq
    · have hbefore := hcmp.before mid i (Nat.le_of_not_lt hleft) (by omega) hmid
      rw [hbefore] at heq
      cases heq
  | case2 l r hlt mid hmid ih =>
    intro i hl hi heq
    by_cases hright : mid < i
    · exact ih hr h i hright hi heq
    · have hbehind := hcmp.behind i mid (Nat.le_of_not_lt hright) (by omega) hmid
      rw [hbehind] at heq
      cases heq
  | case3 => cases h
  | case4 l r hlt =>
    intro i hl hi
    omega

theorem bisect_isSome_iff (hcmp : Ordered cmp n) :
    (bisect cmp 0 n).isSome ↔ ∃ i < n, cmp i = .eq := by
  cases h : bisect cmp 0 n with
  | some i =>
    obtain ⟨-, hi, heq⟩ := bisect_found h
    exact iff_of_true rfl ⟨i, hi, heq⟩
  | none =>
    apply iff_of_false Bool.false_ne_true
    rintro ⟨i, hi, heq⟩
    exact bisect_none hcmp (Nat.le_refl n) h i (Nat.zero_le i) hi heq

theorem bisect_eq_some_iff (hcmp : Ordered cmp n)
    (hone : ∀ i j, i < n → j < n → cmp i = .eq → cmp j = .eq → i = j) :
    bisect cmp 0 n = some i ↔ i < n ∧ cmp i = .eq := by
  refine ⟨?_, ?_⟩
  · intro h
    exact (bisect_found h).2
  · rintro ⟨hi, heq⟩
    obtain ⟨j, hj⟩ := Option.isSome_iff_exists.mp ((bisect_isSome_iff hcmp).mpr ⟨i, hi, heq⟩)
    obtain ⟨-, hjn, hjeq⟩ := bisect_found hj
    rw [hj, hone i j hi hjn heq hjeq]

theorem bisect_shift {cmp' : Nat → Ordering} {k : Nat}
    (h : ∀ i, l ≤ i → i < r → cmp' (k + i) = cmp i) :
    bisect cmp' (k + l) (k + r) = (bisect cmp l r).map (k + ·) := by
  have hmid : ∀ l r, k + l + (k + r - (k + l)) / 2 = k + (l + (r - l) / 2) := by
    intro l r
    rw [Nat.add_sub_add_left, Nat.add_assoc]
  fun_induction bisect cmp l r with
  | case1 l r hlt mid hcmp ih =>
    have hside : cmp' (k + (l + (r - l) / 2)) = .lt := (h mid (by omega) (by omega)).trans hcmp
    rw [bisect, if_pos (Nat.add_lt_add_left hlt k)]
    simp only [hmid, hside]
    exact ih fun i hl hi => h i hl (by omega)
  | case2 l r hlt mid hcmp ih =>
    have hside : cmp' (k + (l + (r - l) / 2)) = .gt := (h mid (by omega) (by omega)).trans hcmp
    rw [bisect, if_pos (Nat.add_lt_add_left hlt k)]
    simp only [hmid, hside]
    exact ih fun i hl hi => h i (by omega) hi
  | case3 l r hlt mid hcmp =>
    have hside : cmp' (k + (l + (r - l) / 2)) = .eq := (h mid (by omega) (by omega)).trans hcmp
    rw [bisect, if_pos (Nat.add_lt_add_left hlt k)]
    simp only [hmid, hside]
    rfl
  | case4 l r hlt =>
    rw [bisect, if_neg (by omega)]
    rfl

theorem orderConnected {α : Type} (lt : α → α → Prop) [IsStrictWeakOrder α lt] :
    IsOrderConnected α lt := by
  refine ⟨?_⟩
  intro a b c hac
  by_contra hnot
  obtain ⟨hab, hbc⟩ := not_or.mp hnot
  -- where `b` is below `a` or above `c`, the order of these two leads to the other half
  have hba : ¬ lt b a := fun hba => hbc (IsTrans.trans b a c hba hac)
  have hcb : ¬ lt c b := fun hcb => hab (IsTrans.trans a c b hac hcb)
  exact (IsStrictWeakOrder.incomp_trans a b c ⟨hab, hba⟩ ⟨hbc, hcb⟩).1 hac

end Vcrtl.Lib.Bisect

import Mathlib.Data.List.Basic

namespace Vcrtl.Lib.Nesting

/-- A range of numbers, and behind it the rest of a wider range: those of a block, and
those of what handles it. -/
structure Range where
  low : Int
  high : Int
  top : Int

def InTry (s : Int) (r : Range) : Prop := r.low ≤ s ∧ s ≤ r.high

def InCatch (s : Int) (r : Range) : Prop := r.high < s ∧ s ≤ r.top

def InsideTry (a b : Range) : Prop := b.low < a.low ∧ a.top ≤ b.high

def InsideCatch (a b : Range) : Prop := b.high + 1 < a.low ∧ a.top ≤ b.top

def Disjoint (a b : Range) : Prop := a.top < b.low ∨ b.top < a.low

instance (s : Int) (r : Range) : Decidable (InTry s r) := inferInstanceAs (Decidable (_ ∧ _))

instance (s : Int) (r : Range) : Decidable (InCatch s r) := inferInstanceAs (Decidable (_ ∧ _))

instance (a b : Range) : Decidable (InsideTry a b) := inferInstanceAs (Decidable (_ ∧ _))

instance (a b : Range) : Decidable (InsideCatch a b) := inferInstanceAs (Decidable (_ ∧ _))

instance (a b : Range) : Decidable (Disjoint a b) := inferInstanceAs (Decidable (_ ∨ _))

variable {α : Type} (range : α → Range)

/-- A table of blocks. What lies in a block comes before it, and what lies in that
which handles it comes after it. -/
structure Nested (xs : List α) : Prop where
  proper : ∀ x ∈ xs, 0 ≤ (range x).low ∧ (range x).low ≤ (range x).high ∧
    (range x).high < (range x).top
  ordered : xs.Pairwise fun x y => Disjoint (range x) (range y) ∨
    InsideTry (range x) (range y) ∨ InsideCatch (range y) (range x)

/-- The blocks around a number that lie in what handles a given block, if any is given. -/
def around (xs : List α) (s : Int) (home : Option α) : List α :=
  xs.filter fun x => InTry s (range x) ∧ ∀ h ∈ home, InsideCatch (range x) (range h)

variable {range} {xs before after : List α} {x y home : α} {s : Int}

theorem Nested.insideTry (h : Nested range (x :: xs)) (hy : y ∈ xs) (hx : InTry s (range x))
    (hys : InTry s (range y)) : InsideTry (range x) (range y) := by
  have hpx := h.proper x List.mem_cons_self
  have hpy := h.proper y (List.mem_cons_of_mem _ hy)
  obtain hdisjoint | htry | hcatch := (List.pairwise_cons.mp h.ordered).1 y hy
  · simp only [Disjoint, InTry] at *
    omega
  · exact htry
  · simp only [InsideCatch, InTry] at *
    omega

theorem Nested.tail (h : Nested range (x :: xs)) : Nested range xs :=
  ⟨fun y hy => h.proper y (List.mem_cons_of_mem _ hy), (List.pairwise_cons.mp h.ordered).2⟩

theorem Nested.filter_insideTry (h : Nested range xs) (p : α → Bool)
    (hp : ∀ x, p x → InTry s (range x)) :
    (xs.filter p).Pairwise fun x y => InsideTry (range x) (range y) := by
  induction xs with
  | nil => exact List.Pairwise.nil
  | cons x xs ih =>
    by_cases hx : p x
    · rw [List.filter_cons_of_pos hx]
      refine List.pairwise_cons.mpr ⟨fun y hy => ?_, ih h.tail⟩
      obtain ⟨hy, hpy⟩ := List.mem_filter.mp hy
      exact h.insideTry hy (hp x hx) (hp y hpy)
    · rw [List.filter_cons_of_neg hx]
      exact ih h.tail

theorem Nested.around_insideTry (h : Nested range xs) (home : Option α) :
    (around range xs s home).Pairwise fun x y => InsideTry (range x) (range y) := by
  refine h.filter_insideTry (s := s) _ fun x hx => ?_
  exact (of_decide_eq_true hx).1

theorem Nested.before_home (h : Nested range (before ++ home :: after))
    (hs : InCatch s (range home)) (hx : x ∈ before) : ¬ InTry s (range x) := by
  intro hxs
  have hpx := h.proper x (List.mem_append_left _ hx)
  have hph := h.proper home (List.mem_append_right _ List.mem_cons_self)
  have hpair := (List.pairwise_append.mp h.ordered).2.2 x hx home List.mem_cons_self
  obtain hdisjoint | htry | hcatch := hpair
  · simp only [Disjoint, InTry, InCatch] at *
    omega
  · simp only [InsideTry, InTry, InCatch] at *
    omega
  · simp only [InsideCatch, InTry, InCatch] at *
    omega

theorem Nested.after_home (h : Nested range (before ++ home :: after))
    (hs : InCatch s (range home)) (hx : x ∈ after) (hxs : InTry s (range x)) :
    InsideCatch (range x) (range home) ↔ (range home).low ≤ (range x).low := by
  have hpx := h.proper x (List.mem_append_right _ (List.mem_cons_of_mem _ hx))
  have hph := h.proper home (List.mem_append_right _ List.mem_cons_self)
  have hcons := (List.pairwise_append.mp h.ordered).2.1
  obtain hdisjoint | htry | hcatch := (List.pairwise_cons.mp hcons).1 x hx
  · simp only [Disjoint, InTry, InCatch] at *
    omega
  · simp only [InsideTry, InsideCatch, InTry, InCatch] at *
    omega
  · simp only [InsideCatch, InTry, InCatch] at *
    omega

theorem Nested.inside_iff (h : Nested range xs) (hhome : home ∈ xs) (hs : InCatch s (range home))
    (hx : x ∈ xs) (hxs : InTry s (range x)) :
    InsideCatch (range x) (range home) ↔ (range home).low ≤ (range x).low := by
  obtain ⟨before, after, rfl⟩ := List.append_of_mem hhome
  obtain hx | hx := List.mem_append.mp hx
  · exact absurd hxs (h.before_home hs hx)
  · obtain rfl | hx := List.mem_cons.mp hx
    · simp only [InTry, InCatch] at *
      omega
    · exact h.after_home hs hx hxs

end Vcrtl.Lib.Nesting

import Mathlib.Data.List.Basic
import Vcrtl.Lib.Runs

namespace Vcrtl.Lib.Lifetimes

open Runs

variable {α τ : Type}

/-- The scopes that are live, from the innermost one on, and the handlers that run, each
with the scopes around the block it belongs to. -/
structure Scopes (α τ : Type) where
  live : List α
  running : List (τ × List α)

inductive Event (α τ : Type)
  | caught (handler : τ) (low base : α)
  | entered (scope : α)
  | escaped
  | completed
  | left

/-- What becomes of the scopes, and which of them an exception leaves. A handler has a
scope of its own in the place of its block's. -/
inductive Life : Scopes α τ → Event α τ × List α → Scopes α τ → Prop
  | caught {inner outer running handler low base} (hlow : low ∉ inner) :
      Life ⟨inner ++ low :: outer, running⟩ (.caught handler low base, inner ++ [low])
        ⟨base :: outer, (handler, outer) :: running⟩
  | entered {live running scope} :
      Life ⟨live, running⟩ (.entered scope, []) ⟨scope :: live, running⟩
  | escaped {inner outer running handler} :
      Life ⟨inner ++ outer, (handler, outer) :: running⟩ (.escaped, inner) ⟨outer, running⟩
  | completed {inner outer running handler} :
      Life ⟨inner ++ outer, (handler, outer) :: running⟩ (.completed, []) ⟨outer, running⟩
  | left {live} : Life ⟨live, []⟩ (.left, live) ⟨[], []⟩

def Event.enters : Event α τ → List α
  | caught _ _ base => [base]
  | entered scope => [scope]
  | escaped | completed | left => []

theorem Life.count_le [DecidableEq α] {s t : Scopes α τ} {x : Event α τ × List α} (h : Life s x t)
    (a : α) : x.2.count a + t.live.count a ≤ s.live.count a + x.1.enters.count a := by
  cases h with
  | @caught inner outer _ _ low base _ =>
    simp only [Event.enters, List.count_append, List.count_cons, List.count_nil]
    omega
  | entered =>
    simp only [Event.enters, List.count_cons, List.count_nil]
    omega
  | escaped =>
    simp only [Event.enters, List.count_append, List.count_nil]
    omega
  | completed =>
    simp only [Event.enters, List.count_append, List.count_nil]
    omega
  | left =>
    simp only [Event.enters, List.count_nil]
    omega

theorem run_count_le [DecidableEq α] {s t : Scopes α τ}
    {tr : List (Scopes α τ × (Event α τ × List α))} (h : Run Life s tr t) (a : α) :
    (tr.flatMap fun p => p.2.2).count a + t.live.count a ≤
      s.live.count a + (tr.flatMap fun p => p.2.1.enters).count a := by
  induction h with
  | nil => simp
  | @snoc tr t x u _ hstep ih =>
    have hle := hstep.count_le a
    simp only [List.flatMap_append, List.flatMap_cons, List.flatMap_nil, List.append_nil,
      List.count_append]
    omega

end Vcrtl.Lib.Lifetimes

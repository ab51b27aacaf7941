import Vcrtl.Lib.Nesting
import Vcrtl.Matching

namespace Vcrtl.X64.FuncletSearch

open Lib.Memory Lib.Nesting BugCheck EhFlags EhStructs Throw CatchFrame CatchVariable
  DispatcherContext Fh3

def range (t : TryBlock) : Range := ⟨t.tryLow, t.tryHigh, t.catchHigh⟩

structure WellFormed (tryBlocks : List TryBlock) : Prop where
  nested : Nested range tryBlocks
  length_lt : tryBlocks.length < 2 ^ 31
  state_lt : ∀ t ∈ tryBlocks, t.catchHigh < 2 ^ 31

/-- The entry of a frame that runs the handlers of a block, or none. -/
def entryOf (primaryFramePtr : Ptr) (state home : Int) (block : Option TryBlock) : Entry :=
  ⟨primaryFramePtr, state, home, (block.map TryBlock.tryLow).getD (-1)⟩

section

variable (env : Env) (frames : List Frame)

end

def handlersOf (ts : List TryBlock) : List (TryBlock × CatchHandler) :=
  ts.flatMap fun t => t.catchHandlers.map (Prod.mk t)

variable {env : Env} {frames : List Frame} {tryBlocks : List TryBlock} {state : Int}
  {primaryFramePtr : Ptr}

/-- The scan down stops at the last block whose handlers contain the state. -/
theorem findHomeBlock_last {n : Nat} (hn : n ≤ tryBlocks.length) :
    (∃ before home after, tryBlocks.take n = before ++ home :: after ∧ InCatchRange state home ∧
      (∀ t ∈ after, ¬ InCatchRange state t) ∧
      findHomeBlock tryBlocks state n (n - 1) = .ok (before.length, some home)) ∨
    (∀ t ∈ tryBlocks.take n, ¬ InCatchRange state t) ∧
      findHomeBlock tryBlocks state n (n - 1) = .ok (-1, none) := by
  induction n with
  | zero => exact .inr ⟨by simp, rfl⟩
  | succ n ih =>
    have hcast : ((n + 1 : Nat) : Int) - 1 = n := by omega
    rw [findHomeBlock, hcast, if_pos (by omega), Algorithm.elementAt_natCast (by omega),
      List.take_succ_eq_append_getElem (by omega)]
    simp only [bind, Except.bind]
    by_cases hrange : InCatchRange state tryBlocks[n]
    · left
      refine ⟨tryBlocks.take n, tryBlocks[n], [], rfl, hrange, by simp, ?_⟩
      rw [if_pos hrange, List.length_take, Nat.min_eq_left (by omega)]
      rfl
    · rw [if_neg hrange]
      obtain ⟨before, home, after, htake, hhome, hafter, hfind⟩ | ⟨hnone, hfind⟩ := ih (by omega)
      · left
        refine ⟨before, home, after ++ [tryBlocks[n]], by rw [htake]; simp, hhome, ?_, hfind⟩
        intro t ht
        obtain ht | ht := List.mem_append.mp ht
        · exact hafter t ht
        · rwa [List.mem_singleton.mp ht]
      · right
        refine ⟨fun t ht => ?_, hfind⟩
        obtain ht | ht := List.mem_append.mp ht
        · exact hnone t ht
        · rwa [List.mem_singleton.mp ht]

inductive HomeOf (tryBlocks : List TryBlock) (state : Int) : Int → Option TryBlock → Prop
  | block {before t after} (hsplit : tryBlocks = before ++ t :: after)
      (hrange : InCatchRange state t) (hafter : ∀ t ∈ after, ¬ InCatchRange state t) :
      HomeOf tryBlocks state before.length (some t)
  | none (hnone : ∀ t ∈ tryBlocks, ¬ InCatchRange state t) : HomeOf tryBlocks state (-1) none

theorem findHomeBlock_home (tryBlocks : List TryBlock) (state : Int) : ∃ home block,
    findHomeBlock tryBlocks state tryBlocks.length (tryBlocks.length - 1) = .ok (home, block) ∧
      HomeOf tryBlocks state home block := by
  obtain ⟨before, t, after, htake, hrange, hafter, hfind⟩ | ⟨hnone, hfind⟩ :=
    findHomeBlock_last (Nat.le_refl _)
  · rw [List.take_length] at htake
    exact ⟨_, _, hfind, .block htake hrange hafter⟩
  · rw [List.take_length] at hnone
    exact ⟨_, _, hfind, .none hnone⟩

variable {home : Int} {block : Option TryBlock} {ehInfo : FunctionEhInfo} {d : Dispatch}

end Vcrtl.X64.FuncletSearch

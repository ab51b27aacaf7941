import Vcrtl.Lib.Descent
import Vcrtl.X86.Handler

namespace Vcrtl.X86.UnwindFrame

open Lib.Memory Lib.Descent BugCheck EhStructs CatchVariable Handler

def nextState (graph : List UnwindGraphEdge) (i : Nat) : Int :=
  match graph[i]? with
  | some edge => edge.next
  | none => -1

def cleanupOf (graph : List UnwindGraphEdge) (i : Nat) : Option Ptr :=
  match graph[i]? with
  | some edge => if edge.cleanupHandler ≠ null then some edge.cleanupHandler else none
  | none => none

/-- The edges lead to smaller states, and there are no more of them than an `int32_t` counts. -/
structure Descends (graph : List UnwindGraphEdge) : Prop where
  lower : ∀ (i : Nat) (h : i < graph.length), -1 ≤ graph[i].next ∧ graph[i].next < i
  size : graph.length < 2 ^ 31

section

variable {graph : List UnwindGraphEdge}

theorem nextState_lt (h : Descends graph) (i : Nat) : nextState graph i < i := by
  by_cases hi : i < graph.length
  · rw [nextState, List.getElem?_eq_getElem hi]
    exact (h.lower i hi).2
  · rw [nextState, List.getElem?_eq_none (by omega)]
    exact Int.lt_of_lt_of_le (by decide) (Int.natCast_nonneg i)

theorem neg_one_le_nextState (h : Descends graph) (i : Nat) : -1 ≤ nextState graph i := by
  by_cases hi : i < graph.length
  · rw [nextState, List.getElem?_eq_getElem hi]
    exact (h.lower i hi).1
  · have hnone : nextState graph i = -1 := by rw [nextState, List.getElem?_eq_none (by omega)]
    exact Int.le_of_eq hnone.symm

def Descends.forest (h : Descends graph) : Forest := ⟨nextState graph, nextState_lt h⟩

end

section

variable {code : Code 32} {frameBase : Ptr} {s : World 32}

theorem frameState_setFrameState {state : Int} (hlow : -2 ^ 31 ≤ state) (hhigh : state < 2 ^ 31) :
    frameState (setFrameState frameBase state s).mem frameBase = state := by
  have hheld : Holds (setFrameState frameBase state s).mem (frameBase - 4)
      (bytesLE 4 (BitVec.ofInt 32 state).toNat) := holds_write (by simp)
  rw [frameState, read32_bytesLE hheld]
  exact BitVec.toInt_ofInt_eq_self (by decide) hlow hhigh

def KeepState (code : Code 32) (frameBase : Ptr) (fns : List Ptr) : Prop :=
  ∀ fn ∈ fns, ∀ m, frameState (code (.funclet fn frameBase) m) frameBase = frameState m frameBase

theorem unwindEdge_trace (code : Code 32) (frameBase : Ptr) (s : World 32)
    {graph : List UnwindGraphEdge} {i : Nat} (hi : i < graph.length) :
    (unwindEdge code frameBase graph[i] s).trace =
      s.trace ++ (cleanupOf graph i).toList.map (.funclet · frameBase) := by
  rw [cleanupOf, List.getElem?_eq_getElem hi, unwindEdge]
  simp only []
  by_cases hcleanup : graph[i].cleanupHandler ≠ null
  · rw [if_pos hcleanup, if_pos hcleanup]
    rfl
  · rw [if_neg hcleanup, if_neg hcleanup]
    exact (List.append_nil _).symm

/-- An edge is taken with its state set before its cleanup is called. -/
theorem unwindEdge_state {graph : List UnwindGraphEdge} (hgraph : Descends graph) {i : Nat}
    (hi : i < graph.length) (hkeep : KeepState code frameBase (cleanupOf graph i).toList) :
    frameState (unwindEdge code frameBase graph[i] s).mem frameBase = graph[i].next := by
  have hsize := hgraph.size
  have hlower := hgraph.lower i hi
  have hstate : frameState (setFrameState frameBase graph[i].next s).mem frameBase =
      graph[i].next := frameState_setFrameState (by omega) (by omega)
  rw [cleanupOf, List.getElem?_eq_getElem hi] at hkeep
  rw [unwindEdge]
  simp only [] at hkeep ⊢
  by_cases hcleanup : graph[i].cleanupHandler ≠ null
  · rw [if_pos hcleanup] at hkeep ⊢
    exact (hkeep _ (by simp) _).trans hstate
  · rw [if_neg hcleanup]
    exact hstate

theorem cleanups_step {graph : List UnwindGraphEdge} (hgraph : Descends graph)
    {target state : Int} (htarget : -1 ≤ target) (hstate : target < state) :
    (above hgraph.forest target state).filterMap (cleanupOf graph) =
      (cleanupOf graph state.toNat).toList ++
        (above hgraph.forest target (nextState graph state.toNat)).filterMap (cleanupOf graph) := by
  rw [above_step (by omega) (by omega)]
  change List.filterMap _ (_ :: above hgraph.forest target (nextState graph state.toNat)) = _
  cases hcleanup : cleanupOf graph state.toNat <;> simp [hcleanup]

/-- `_unwind_frame` calls the cleanups of the states of the chain above the target, from the
innermost one on. -/
theorem unwindFrom_trace {graph : List UnwindGraphEdge} (hgraph : Descends graph)
    {target state : Int} {fuel : Nat} (htarget : -1 ≤ target) (hlt : state < graph.length)
    (hfuel : state < fuel) :
    ∃ s', unwindFrom code graph frameBase target fuel state s = .ok s' ∧
      s'.trace = s.trace ++ ((above hgraph.forest target state).filterMap (cleanupOf graph)).map
        (.funclet · frameBase) := by
  induction fuel generalizing state s with
  | zero =>
    rw [unwindFrom, if_pos (by omega), above_done (by omega)]
    exact ⟨s, rfl, (List.append_nil _).symm⟩
  | succ fuel ih =>
    by_cases hdone : state ≤ target
    · rw [unwindFrom, if_pos hdone, above_done hdone]
      exact ⟨s, rfl, (List.append_nil _).symm⟩
    · have hi : state.toNat < graph.length := by omega
      have hedge := List.getElem?_eq_getElem hi
      have hnext : nextState graph state.toNat = graph[state.toNat].next := by
        rw [nextState, hedge]
      have hlower := hgraph.lower _ hi
      have hlt' : graph[state.toNat].next < graph.length := by omega
      have hfuel' : graph[state.toNat].next < fuel := by omega
      obtain ⟨s', hunwind, htrace⟩ :=
        ih (s := unwindEdge code frameBase graph[state.toNat] s) hlt' hfuel'
      refine ⟨s', ?_, ?_⟩
      · rw [unwindFrom, if_neg hdone, Algorithm.elementAt_eq_ok.mpr ⟨by omega, hedge⟩]
        exact hunwind
      · rw [htrace, unwindEdge_trace code frameBase s hi,
          cleanups_step hgraph htarget (Int.not_le.mp hdone), hnext, List.append_assoc,
          ← List.map_append]

/-- And it leaves the frame in the first state that stays. -/
theorem unwindFrom_state {graph : List UnwindGraphEdge} (hgraph : Descends graph)
    {target state : Int} {fuel : Nat} {s' : World 32} (htarget : -1 ≤ target)
    (hlow : -1 ≤ state) (hlt : state < graph.length)
    (h : unwindFrom code graph frameBase target fuel state s = .ok s')
    (hframe : frameState s.mem frameBase = state) (hkeep : KeepState code frameBase
      ((above hgraph.forest target state).filterMap (cleanupOf graph))) :
    chain hgraph.forest state =
        above hgraph.forest target state ++ chain hgraph.forest (frameState s'.mem frameBase) ∧
      -1 ≤ frameState s'.mem frameBase ∧ frameState s'.mem frameBase < graph.length := by
  induction fuel generalizing state s with
  | zero =>
    rw [unwindFrom] at h
    split at h
    · rename_i hdone
      cases h
      rw [above_done hdone, hframe]
      exact ⟨rfl, hlow, hlt⟩
    · cases h
  | succ fuel ih =>
    rw [unwindFrom] at h
    split at h
    · rename_i hdone
      cases h
      rw [above_done hdone, hframe]
      exact ⟨rfl, hlow, hlt⟩
    · obtain ⟨edge, hedge, h⟩ := bind_ok.mp h
      obtain ⟨hnonneg, hget⟩ := Algorithm.elementAt_eq_ok.mp hedge
      obtain ⟨hi, rfl⟩ := List.getElem?_eq_some_iff.mp hget
      have hlower := hgraph.lower _ hi
      have hnext : nextState graph state.toNat = graph[state.toNat].next := by
        rw [nextState, hget]
      rw [cleanups_step hgraph htarget (by omega), hnext] at hkeep
      have hstate := unwindEdge_state (s := s) hgraph hi
        fun fn hfn => hkeep fn (List.mem_append_left _ hfn)
      obtain ⟨hchain, hbounds⟩ := ih (by omega) (by omega) h hstate
        fun fn hfn => hkeep fn (List.mem_append_right _ hfn)
      refine ⟨?_, hbounds⟩
      have habove : above hgraph.forest target state =
          state.toNat :: above hgraph.forest target (nextState graph state.toNat) :=
        above_step (by omega) (by omega)
      have hnode : chain hgraph.forest state =
          state.toNat :: chain hgraph.forest (nextState graph state.toNat) :=
        chain_nonneg (by omega)
      rw [hnode, habove, hnext, hchain]
      rfl

end

end Vcrtl.X86.UnwindFrame

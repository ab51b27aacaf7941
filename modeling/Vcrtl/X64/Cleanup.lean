import Vcrtl.Algorithm
import Vcrtl.CatchVariable
import Vcrtl.Lib.Descent
import Vcrtl.X64.EhStructs

namespace Vcrtl.X64.Cleanup

open Lib.Memory Lib.Descent BugCheck EhStructs CatchVariable

/-- What a function's tables tell to do when a state is left. The address of an
object, or of a pointer to one, is given relative to a frame. -/
inductive Action
  | object (destroyFn : Ptr) (offset : Rva)
  | objectPtr (destroyFn : Ptr) (offset : Rva)
  | funclet (fn : Ptr)
  deriving DecidableEq

def Action.address (framePtr : Ptr) : Action → Ptr
  | .object _ offset | .objectPtr _ offset => displace framePtr offset
  | .funclet _ => framePtr

def Action.effect (framePtr : Ptr) (m : Mem 64) : Action → Effect 64
  | .object fn offset => .destroy fn (displace framePtr offset)
  | .objectPtr fn offset =>
    let slot := displace framePtr offset
    .destroyThrough fn slot (readWord m slot)
  | .funclet fn => .funclet fn framePtr

def Action.run (code : Code 64) (framePtr : Ptr) (a : Action) (s : World 64) : World 64 :=
  s.perform code (a.effect framePtr s.mem)

def runOption (code : Code 64) (framePtr : Ptr) (a : Option Action) (s : World 64) : World 64 :=
  match a with
  | some a => a.run code framePtr s
  | none => s

def runAll (code : Code 64) (framePtr : Ptr) (as : List Action) (s : World 64) : World 64 :=
  as.foldl (fun s a => a.run code framePtr s) s

def cleanupAddress : Effect 64 → Option Ptr
  | .funclet _ frame => some frame
  | .destroy _ object => some object
  | .destroyThrough _ slot _ => some slot
  | .reference _ _ | .memcpy _ _ _ | .copy _ _ _ | .copyVb _ _ _ => none

structure Edge where
  next : Int
  action : Option Action
  deriving DecidableEq

/-- The states of a function, each with the next outer one. -/
structure UnwindGraph where
  edges : List Edge
  descends : ∀ (i : Nat) (h : i < edges.length), -1 ≤ edges[i].next ∧ edges[i].next < i

def UnwindGraph.next (g : UnwindGraph) (i : Nat) : Int :=
  match g.edges[i]? with
  | some e => e.next
  | none => -1

def UnwindGraph.action (g : UnwindGraph) (i : Nat) : Option Action := g.edges[i]?.bind Edge.action

theorem UnwindGraph.next_lt (g : UnwindGraph) (i : Nat) : g.next i < i := by
  by_cases h : i < g.edges.length
  · rw [next, List.getElem?_eq_getElem h]
    exact (g.descends i h).2
  · rw [next, List.getElem?_eq_none (by omega)]
    exact Int.lt_of_lt_of_le (by decide) (Int.natCast_nonneg i)

def UnwindGraph.forest (g : UnwindGraph) : Forest := ⟨g.next, g.next_lt⟩

/-- The actions of a state and of the outer ones down to a target, which stays. -/
def UnwindGraph.actions (g : UnwindGraph) (target state : Int) : List Action :=
  (above g.forest target state).filterMap g.action

/-- The actions of the states that a walk along the edges leaves. -/
def descend (edges : List Edge) (target : Int) : Nat → Int → Exec (List Action)
  | 0, state => if state ≤ target then .ok [] else .error .hang
  | fuel + 1, state =>
    if state ≤ target then
      .ok []
    else do
      let edge ← Algorithm.elementAt edges state
      let rest ← descend edges target fuel edge.next
      return edge.action.toList ++ rest

section

variable {code : Code 64} {framePtr : Ptr} {s : World 64}

theorem trace_run (a : Action) :
    (a.run code framePtr s).trace = s.trace ++ [a.effect framePtr s.mem] := rfl

theorem cleanupAddress_effect (a : Action) (m : Mem 64) :
    cleanupAddress (a.effect framePtr m) = some (a.address framePtr) := by
  cases a <;> rfl

theorem trace_runAll (as : List Action) :
    ∃ effects, (runAll code framePtr as s).trace = s.trace ++ effects ∧
    effects.map cleanupAddress = as.map fun a => some (a.address framePtr) := by
  induction as generalizing s with
  | nil => exact ⟨[], (List.append_nil _).symm, rfl⟩
  | cons a as ih =>
    obtain ⟨effects, htrace, haddress⟩ := ih (s := a.run code framePtr s)
    refine ⟨a.effect framePtr s.mem :: effects, ?_, ?_⟩
    · rw [trace_run, List.append_assoc] at htrace
      exact htrace
    · simp only [List.map_cons, haddress, cleanupAddress_effect]

theorem length_trace_runAll (as : List Action) :
    (runAll code framePtr as s).trace.length = s.trace.length + as.length := by
  obtain ⟨effects, htrace, haddress⟩ := @trace_runAll code framePtr s as
  have hlen := congrArg List.length haddress
  simp only [List.length_map] at hlen
  rw [htrace, List.length_append, hlen]

theorem length_of_runAll {as bs : List Action} {p : Ptr}
    (h : runAll code framePtr as s = runAll code p bs s) : as.length = bs.length := by
  have hlen := congrArg (fun t : World 64 => t.trace.length) h
  simp only [length_trace_runAll] at hlen
  omega

theorem runAll_toList (a : Option Action) :
    runAll code framePtr a.toList s = runOption code framePtr a s := by
  cases a <;> rfl

theorem runAll_toList_append (a : Option Action) (as : List Action) :
    runAll code framePtr (a.toList ++ as) s =
      runAll code framePtr as (runOption code framePtr a s) := by
  cases a <;> rfl

theorem address_inj {a : Action} {p q : Ptr} (h : a.address p = a.address q) : p = q := by
  cases a with
  | object fn offset => exact (BitVec.add_left_inj _).mp h
  | objectPtr fn offset => exact (BitVec.add_left_inj _).mp h
  | funclet fn => exact h

end

section

variable {g : UnwindGraph} {target state : Int}

theorem actions_done (h : state ≤ target) : g.actions target state = [] := by
  rw [UnwindGraph.actions, above_done h, List.filterMap_nil]

theorem actions_step {e : Edge} (h : target < state) (hs : 0 ≤ state)
    (he : g.edges[state.toNat]? = some e) :
    g.actions target state = e.action.toList ++ g.actions target e.next := by
  have hnext : g.forest.next state.toNat = e.next := by
    simp only [UnwindGraph.forest, UnwindGraph.next, he]
  rw [UnwindGraph.actions, above_step h hs, hnext]
  cases ha : e.action with
  | none => simp [UnwindGraph.action, UnwindGraph.actions, he, ha]
  | some a => simp [UnwindGraph.action, UnwindGraph.actions, he, ha]

theorem actions_sublist :
    (g.actions target state).Sublist ((chain g.forest state).filterMap g.action) :=
  List.filter_sublist.filterMap _

theorem actions_pred (i : Nat) : g.actions (i - 1) state =
    g.actions i state ++ if i ∈ chain g.forest state then (g.action i).toList else [] := by
  rw [UnwindGraph.actions, above_pred, List.filterMap_append]
  congr 1
  split
  · cases h : g.action i <;> simp [h]
  · rfl

theorem descend_done {edges : List Edge} (h : state ≤ target) (fuel : Nat) :
    descend edges target fuel state = .ok [] := by
  cases fuel with
  | zero => rw [descend, if_pos h]
  | succ fuel => rw [descend, if_pos h]

theorem descend_actions {fuel : Nat} (htarget : -1 ≤ target) (hstate : state < g.edges.length)
    (hfuel : state < fuel) : descend g.edges target fuel state = .ok (g.actions target state) := by
  induction fuel generalizing state with
  | zero => rw [descend_done (by omega), actions_done (by omega)]
  | succ fuel ih =>
    by_cases h : state ≤ target
    · rw [descend_done h, actions_done h]
    · have hi : state.toNat < g.edges.length := by omega
      have hdescends := g.descends _ hi
      have he := List.getElem?_eq_getElem hi
      rw [descend, if_neg h, Algorithm.elementAt_eq_ok.mpr ⟨by omega, he⟩,
        actions_step (by omega) (by omega) he]
      have hrest : descend g.edges target fuel g.edges[state.toNat].next = _ :=
        ih (by omega) (by omega)
      simp only [bind, Except.bind, hrest, pure, Except.pure]

end

end Vcrtl.X64.Cleanup

import Vcrtl.X64.Dispatch
import Vcrtl.X64.MapWalk

namespace Vcrtl.X64.UnwindStates

open Lib.Memory Lib.Descent BugCheck EhStructs Throw CatchFrame CatchVariable Cleanup
  DispatcherContext Dispatch MapWalk

/-- The function's states, well-formed in its own format. -/
def UnwindTable (env : Env) (f : FunctionFrame) (g : UnwindGraph) : Prop :=
  match f.ehData with
  | .none => False
  | .fh3 ehInfo => g.edges = Fh3.edges env.imageBase ehInfo.unwindGraph ∧ g.edges.length ≤ 2 ^ 31 ∧
      ∀ t ∈ ehInfo.tryBlocks, 0 ≤ t.tryLow ∧ t.tryLow < g.edges.length
  | .fh4 funcInfo => ∃ u : UnwindMap,
      u.At env.image (displace env.imageBase (Fh4.ehInfoOf env f funcInfo).unwindGraph) ∧
        g = u.graph env.imageBase

/-- The states that a function's handler leaves on its way from a state down to a target. The
walk back under `__CxxFrameHandler4` does not get to the one above the target, unless it
starts there. -/
def Leaves (ehData : EhData) (g : UnwindGraph) (target state : Int) (i : Nat) : Prop :=
  i ∈ chain g.forest state ∧ target < i ∧
    match ehData with
    | .none | .fh3 _ => True
    | .fh4 _ => target + 1 = i → target + 1 = state

def NothingToDo (ehData : EhData) (g : UnwindGraph) (target state : Int) : Prop :=
  ∀ i, Leaves ehData g target state i → g.action i = none

def lowest (ehData : EhData) (target state : Int) : Int :=
  match ehData with
  | .none | .fh3 _ => target
  | .fh4 _ => lastEntry state target - 1

variable {env : Env} {frames : List Frame} {f : FunctionFrame} {d : Dispatch} {g : UnwindGraph}
  {c : Selection} {actions : List Action}

theorem data_of_table (h : UnwindTable env f g) : f.ehData ≠ .none := by
  intro hf
  simp only [UnwindTable, hf] at h

theorem targetState_ge {c : Selection} {actions : List Action} (htable : UnwindTable env f g)
    (hselects : Selects env frames f d c actions) : -1 ≤ c.targetState := by
  cases hf : f.ehData with
  | none => simp only [UnwindTable, hf] at htable
  | fh3 ehInfo =>
    simp only [UnwindTable, Selects, hf] at htable hselects
    obtain ⟨-, -, hbounds⟩ := htable
    obtain ⟨entry, r, henter, -, -, htarget, rfl⟩ := Fh3.select_ok.mp hselects.1
    apply Int.le_trans _ htarget
    obtain h | ⟨t, ht, h⟩ := Fh3.enter_low henter
    · omega
    · have := (hbounds t ht).1
      omega
  | fh4 funcInfo =>
    simp only [Selects, hf] at hselects
    obtain ⟨primaryFramePtr, state, r, henter, hsearch, rfl⟩ := Fh4.select_ok.mp hselects.1
    change -1 ≤ r.targetState
    rw [Fh4.Search.targetState]
    split
    · rename_i t hfound
      have hle := (Fh4.search_found hsearch hfound).2
      have hstate := Fh4.enter_lt henter
      rw [Fh4.toInt_pred (by omega)]
      omega
    · exact Int.le_refl _

theorem leaves_iff {ehData : EhData} {target state : Int} {i : Nat} (htarget : -1 ≤ target) :
    Leaves ehData g target state i ↔
      i ∈ chain g.forest state ∧ lowest ehData target state < i := by
  apply and_congr_right
  intro hmem
  have hle := le_of_mem_chain hmem
  cases ehData with
  | none => exact and_iff_left trivial
  | fh3 ehInfo => exact and_iff_left trivial
  | fh4 funcInfo =>
    simp only [lowest, lastEntry]
    split <;> omega

theorem lt_length_of_descend {edges : List Edge} {target state : Int} {fuel : Nat}
    (hlt : target < state) (h : descend edges target fuel state = .ok actions) :
    state < edges.length := by
  cases fuel with
  | zero =>
    rw [descend, if_neg (by omega)] at h
    cases h
  | succ fuel =>
    rw [descend, if_neg (by omega)] at h
    obtain ⟨edge, hedge, -⟩ := bind_ok.mp h
    obtain ⟨hnonneg, hget⟩ := Algorithm.elementAt_eq_ok.mp hedge
    have hbound := (List.getElem?_eq_some_iff.mp hget).1
    omega

theorem lt_length_of_cleanup {u : UnwindMap} {unwindGraph : Rva} {target state : Int}
    (hat : u.At env.image (displace env.imageBase unwindGraph)) (hlt : target < state)
    (h : Fh4.cleanupActions env unwindGraph state target = .ok actions) :
    state < u.entries.length := by
  obtain ⟨hlen, count, hcount, hm⟩ := hat
  rw [holds_append] at hm
  have hread := Compressed.readUnsigned_encodes hcount hm.1
  rw [Fh4.cleanupActions, if_neg (by omega)] at h
  obtain ⟨range, hrange, -⟩ := bind_ok.mp h
  rw [Fh4.cleanupRange, hread] at hrange
  obtain ⟨u, hverify, -⟩ := bind_ok.mp hrange
  have hbounds := verify_ok.mp hverify
  rw [BitVec.toNat_ofNat, Nat.mod_eq_of_lt hlen] at hbounds
  omega

theorem selected_actions (htable : UnwindTable env f g)
    (hselects : Selects env frames f d c actions) (hlt : c.targetState < c.state) :
    actions = g.actions (lowest f.ehData c.targetState c.state) c.state := by
  have htarget := targetState_ge htable hselects
  cases hf : f.ehData with
  | none => exact absurd hf (data_of_table htable)
  | fh3 ehInfo =>
    simp only [UnwindTable, Selects, hf] at htable hselects
    obtain ⟨hedges, -, -⟩ := htable
    have hdescend := hselects.2
    have hlength : ehInfo.unwindGraph.length = g.edges.length := by
      rw [hedges, Fh3.edges, List.length_map]
    rw [← hedges, hlength] at hdescend
    have hstate := lt_length_of_descend hlt hdescend
    rw [descend_actions htarget hstate hstate] at hdescend
    exact (Except.ok.inj hdescend).symm
  | fh4 funcInfo =>
    simp only [UnwindTable, Selects, hf] at htable hselects
    obtain ⟨u, hat, rfl⟩ := htable
    have hactions := hselects.2
    have hstate := lt_length_of_cleanup hat hlt hactions
    rw [cleanupActions_at hat htarget hlt hstate] at hactions
    exact (Except.ok.inj hactions).symm

theorem nothing_selected (hdone : c.state ≤ c.targetState)
    (hselects : Selects env frames f d c actions) : actions = [] := by
  cases hf : f.ehData with
  | none => simp only [Selects, hf] at hselects
  | fh3 ehInfo =>
    simp only [Selects, hf] at hselects
    have hdescend := hselects.2
    rw [descend_done hdone] at hdescend
    exact (Except.ok.inj hdescend).symm
  | fh4 funcInfo =>
    simp only [Selects, hf] at hselects
    have hactions := hselects.2
    rw [Fh4.cleanupActions, if_pos hdone] at hactions
    exact (Except.ok.inj hactions).symm

theorem cleanup_sublist (htable : UnwindTable env f g)
    (hselects : Selects env frames f d c actions) :
    actions.Sublist ((chain g.forest c.state).filterMap g.action) := by
  by_cases hdone : c.state ≤ c.targetState
  · rw [nothing_selected hdone hselects]
    exact List.nil_sublist _
  · rw [selected_actions htable hselects (Int.not_le.mp hdone)]
    exact actions_sublist

theorem actions_eq_nil_iff (htable : UnwindTable env f g)
    (hselects : Selects env frames f d c actions) :
    actions = [] ↔ NothingToDo f.ehData g c.targetState c.state := by
  have htarget := targetState_ge htable hselects
  by_cases hdone : c.state ≤ c.targetState
  · apply iff_of_true (nothing_selected hdone hselects)
    rintro i ⟨hmem, hlt, -⟩
    have := le_of_mem_chain hmem
    omega
  · rw [selected_actions htable hselects (Int.not_le.mp hdone), UnwindGraph.actions, above,
      List.filterMap_eq_nil_iff]
    apply forall_congr'
    intro i
    rw [leaves_iff htarget, List.mem_filter, decide_eq_true_eq]

end Vcrtl.X64.UnwindStates

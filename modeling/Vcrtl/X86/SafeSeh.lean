import Vcrtl.X86.ChainWalk

namespace Vcrtl.X86.SafeSeh

open Lib.Bisect Lib.Memory Algorithm BugCheck EhStructs ThrowFrame ChainWalk

section

variable {v : SehVerifier} {reg : SehRegistration} {handler : Ptr}

theorem search_registered_iff
    (htable : Sorted (fun a b => decide (a < b)) v.safeSeHandlerTable) :
    binarySearch (fun a b => decide (a < b)) v.safeSeHandlerTable (handler - v.imageBase) =
      some true ↔ Registered v handler := by
  refine ⟨registered_of_search, ?_⟩
  intro hregistered
  exact (binarySearch_equivalent_iff htable).mpr ⟨_, hregistered, equivalent_iff_eq.mpr rfl⟩

/-- The verifier accepts a record if and only if it begins on the stack with a registered
handler. -/
theorem verify_ok_iff (htable : Sorted (fun a b => decide (a < b)) v.safeSeHandlerTable) :
    v.verifySehRegistration reg = .ok () ↔
      (v.stackLimit ≤ reg.addr ∧ reg.addr < v.stackBase) ∧ Registered v reg.handler := by
  rw [← search_registered_iff htable, SehVerifier.verifySehRegistration]
  by_cases hout : reg.addr < v.stackLimit ∨ v.stackBase ≤ reg.addr
  · rw [if_pos hout]
    apply iff_of_false
    · rintro ⟨⟩
    · rintro ⟨⟨hlimit, hbase⟩, -⟩
      obtain hlt | hle := hout
      · exact BitVec.not_lt.mpr hlimit hlt
      · exact BitVec.not_le.mpr hbase hle
  · rw [if_neg hout, and_iff_right (on_stack hout)]
    cases binarySearch (fun a b => decide (a < b)) v.safeSeHandlerTable
        (reg.handler - v.imageBase) with
    | none => simp
    | some accepted => cases accepted <;> simp [onBugCheck]

theorem verify_unregistered (hlimit : v.stackLimit ≤ reg.addr) (hbase : reg.addr < v.stackBase)
    (h : ¬ Registered v reg.handler) :
    v.verifySehRegistration reg = onBugCheck .sehHandlerNotInSafeseh := by
  have hin : ¬ (reg.addr < v.stackLimit ∨ v.stackBase ≤ reg.addr) := by
    rw [not_or, BitVec.not_lt, BitVec.not_le]
    exact ⟨hlimit, hbase⟩
  rw [SehVerifier.verifySehRegistration, if_neg hin]
  cases hsearch : binarySearch (fun a b => decide (a < b)) v.safeSeHandlerTable
      (reg.handler - v.imageBase) with
  | none =>
    rw [binarySearch_bisect] at hsearch
    cases hsearch
  | some accepted =>
    cases accepted with
    | false => rfl
    | true => exact absurd (registered_of_search hsearch) h

theorem visitRecord_called_iff {σ : Type} {w : Walker σ} {p : Ptr} {s : σ}
    (htable : Sorted (fun a b => decide (a < b)) v.safeSeHandlerTable)
    (hin : ¬ (p < v.stackLimit ∨ v.stackBase ≤ p)) :
    .call p (read32 (w.mem s) (p + 4)) ∈ (visitRecord v w p s).1 ↔
      Registered v (read32 (w.mem s) (p + 4)) := by
  refine ⟨?_, ?_⟩
  · intro hcall
    obtain ⟨hregistered, -⟩ | hvisit := visitRecord_cases (w := w) (s := s) hin
    · exact hregistered
    · rw [hvisit] at hcall
      simp at hcall
  · intro hregistered
    rw [visitRecord, if_neg hin]
    simp only [(search_registered_iff htable).mpr hregistered]
    exact List.mem_cons_of_mem _ List.mem_cons_self

end

/-- On a sorted range of any strict weak order the search is exact, and so is the check of a handler
against a sorted table. -/
theorem binary_search_exact {α : Type} (lt : α → α → Bool)
    [IsStrictWeakOrder α fun a b => lt a b = true] (range : List α) (value : α)
    (hsorted : Sorted lt range) (v : SehVerifier)
    (htable : Sorted (fun a b => decide (a < b)) v.safeSeHandlerTable) :
    (∃ found, (∀ before after, Searches lt (before ++ (range ++ after)) value before.length
        (before.length + range.length) found) ∧
      (found = true ↔ ∃ x ∈ range, Equivalent lt value x)) ∧
    (∀ reg : SehRegistration,
      (v.verifySehRegistration reg = .ok () ↔
        (v.stackLimit ≤ reg.addr ∧ reg.addr < v.stackBase) ∧ Registered v reg.handler) ∧
      (v.stackLimit ≤ reg.addr → reg.addr < v.stackBase → ¬ Registered v reg.handler →
        v.verifySehRegistration reg = onBugCheck .sehHandlerNotInSafeseh)) ∧
    ∀ (σ : Type) (w : Walker σ) (p : Ptr) (s : σ), ¬ (p < v.stackLimit ∨ v.stackBase ≤ p) →
      (.call p (read32 (w.mem s) (p + 4)) ∈ (visitRecord v w p s).1 ↔
        Registered v (read32 (w.mem s) (p + 4))) := by
  refine ⟨⟨(bisect (compareAt lt range value) 0 range.length).isSome, ?_, ?_⟩, ?_,
    fun σ w p s hin => visitRecord_called_iff htable hin⟩
  · intro before after
    exact searches_append before range after
  · exact bisect_equivalent_iff hsorted
  · intro reg
    exact ⟨verify_ok_iff htable, verify_unregistered⟩

def firstLt (a b : Nat × Nat) : Bool := decide (a.1 < b.1)

instance : IsStrictWeakOrder (Nat × Nat) fun a b => firstLt a b = true := byKey Prod.fst

def sortedHandlers : SehVerifier := ⟨0x9000, 0x8000, 0x400000, [0x10, 0x20]⟩

def recordOf (handler : Ptr) : SehRegistration :=
  ⟨0x8ffc, handler, .catchFrame 0x8ff0 ⟨none, 0, 0, 0, none⟩⟩

theorem binary_search_exact_pairs :
    (∀ before after, Searches firstLt (before ++ ([(1, 0), (2, 0), (2, 1), (4, 0)] ++ after)) (2, 7)
      before.length (before.length + 4) true) ∧
    sortedHandlers.verifySehRegistration (recordOf 0x400020) = .ok () ∧
    sortedHandlers.verifySehRegistration (recordOf 0x400018) =
      onBugCheck .sehHandlerNotInSafeseh := by
  obtain ⟨⟨found, hsearches, hfound⟩, hverify, -⟩ := binary_search_exact firstLt
    [(1, 0), (2, 0), (2, 1), (4, 0)] (2, 7) (by decide) sortedHandlers (by decide)
  have hequivalent : Equivalent firstLt (2, 7) (2, 1) := ⟨rfl, rfl⟩
  obtain rfl := hfound.mpr ⟨(2, 1), by decide, hequivalent⟩
  obtain ⟨haccepted, -⟩ := hverify (recordOf 0x400020)
  obtain ⟨-, hrefused⟩ := hverify (recordOf 0x400018)
  refine ⟨hsearches, haccepted.mpr ⟨⟨by decide, by decide⟩, ?_⟩,
    hrefused (by decide) (by decide) ?_⟩
  · change (0x400020 - 0x400000 : Ptr) ∈ [(0x10 : Ptr), 0x20]
    decide
  · change ¬ (0x400018 - 0x400000 : Ptr) ∈ [(0x10 : Ptr), 0x20]
    decide

end Vcrtl.X86.SafeSeh

import Mathlib.Data.List.TakeWhile
import Vcrtl.Lib.Nesting
import Vcrtl.X86.Handler

namespace Vcrtl.X86.NestedSearch

open Lib.Nesting BugCheck EhFlags EhStructs ThrowFrame Handler

def range (t : TryBlock) : Range := ⟨t.tryLow, t.tryHigh, t.catchHigh⟩

def handlersOf (ts : List TryBlock) : List (TryBlock × CatchHandler) :=
  ts.flatMap fun t => t.catchHandlers.map (Prod.mk t)

def firstHandler (ti : ThrowInfo) (ts : List TryBlock) : Option (TryBlock × CatchHandler) :=
  (handlersOf ts).find? fun x => takes ti x.2

/-- A block in the handlers of another one, around the state, with a handler for the throw. -/
def Candidate (ti : ThrowInfo) (state : Int) (t b : TryBlock) : Prop :=
  InTry state (range b) ∧ InsideCatch (range b) (range t) ∧
    ∃ h ∈ b.catchHandlers, takes ti h = true

instance (ti : ThrowInfo) (state : Int) (t b : TryBlock) : Decidable (Candidate ti state t b) :=
  inferInstanceAs (Decidable (_ ∧ _))

variable {v : SehVerifier} {regs : List SehRegistration} {frameAt : FrameAt} {tf : CxxThrowFrame}
  {ti : ThrowInfo} {state : Int}

/-- The blocks up to the first one that begins at or below the unwound state. -/
def searched (unwoundState state : Int) (ts : List TryBlock) : List TryBlock :=
  (ts.takeWhile fun t => unwoundState < t.tryLow).filter fun t => InTry state (range t)

theorem matchTryBlocks_find {unwoundState : Int} (ts : List TryBlock)
    (htf : Resolves v regs frameAt tf ti) :
    ∃ tf' found, matchTryBlocks v regs frameAt unwoundState state ts tf = .ok (tf', found) ∧
      found.map (fun x => (x.1, x.2.1)) = firstHandler ti (searched unwoundState state ts) := by
  induction ts generalizing tf with
  | nil => exact ⟨tf, none, rfl, rfl⟩
  | cons t ts ih =>
    rw [matchTryBlocks]
    by_cases hunwound : t.tryLow ≤ unwoundState
    · refine ⟨tf, none, if_pos hunwound, ?_⟩
      rw [searched, List.takeWhile_cons_of_neg (by simpa using hunwound)]
      rfl
    · rw [if_neg hunwound, searched, List.takeWhile_cons_of_pos (by simpa using hunwound)]
      by_cases hstate : t.tryLow > state ∨ state > t.tryHigh
      · have hout : ¬ InTry state (range t) := by
          simp only [InTry, range]
          omega
        rw [if_pos hstate, List.filter_cons_of_neg (by simpa using hout)]
        exact ih htf
      · have hin : InTry state (range t) := by
          simp only [InTry, range]
          omega
        obtain ⟨tf', found, hmatch, hfind, htf'⟩ := matchHandlers_find t.catchHandlers htf
        have hmap : (t.catchHandlers.map (Prod.mk t)).find? (fun x => takes ti x.2) =
            (found.map Prod.fst).map (Prod.mk t) := by
          rw [hfind, List.find?_map]
          rfl
        rw [if_neg hstate, hmatch, List.filter_cons_of_pos (by simpa using hin), firstHandler,
          handlersOf, List.flatMap_cons, List.find?_append, hmap]
        cases found with
        | none => exact ih htf'
        | some x => exact ⟨tf', some (t, x.1, x.2), rfl, rfl⟩

section

variable {α : Type} {xs : List α} {p q : α → Prop} [DecidablePred p] [DecidablePred q]

theorem exists_first (h : ∃ x ∈ xs, q x) :
    ∃ before x after, xs = before ++ x :: after ∧ q x ∧ ∀ y ∈ before, ¬ q y := by
  induction xs with
  | nil => simp at h
  | cons x xs ih =>
    by_cases hx : q x
    · exact ⟨[], x, xs, rfl, hx, by simp⟩
    · obtain ⟨y, hy, hqy⟩ := h
      have hys := (List.mem_cons.mp hy).resolve_left fun heq => hx (heq ▸ hqy)
      obtain ⟨before, z, after, rfl, hz, hbefore⟩ := ih ⟨y, hys, hqy⟩
      exact ⟨x :: before, z, after, rfl, hz, List.forall_mem_cons.mpr ⟨hx, hbefore⟩⟩

/-- A prefix that is cut where `p` ends has an element with `q`, if there is any, exactly
if nothing before the first of these is without `p`. -/
theorem takeWhile_first (hqp : ∀ x ∈ xs, q x → p x) :
    ((∃ x ∈ xs, q x) → ∃ x ∈ xs.takeWhile p, q x) ↔ ∀ before x after,
      xs = before ++ x :: after → q x → (∀ y ∈ before, ¬ q y) → ∀ y ∈ before, p y := by
  constructor
  · rintro h before x after rfl hx hbefore
    obtain ⟨z, hz, hqz⟩ := h ⟨x, by simp, hx⟩
    by_contra hnone
    obtain ⟨y, hy, hpy⟩ : ∃ y ∈ before, ¬ p y := by simpa using hnone
    rw [List.takeWhile_append] at hz
    split at hz
    · rename_i hlength
      have hall := (List.takeWhile_prefix (p ·)).eq_of_length hlength
      rw [← hall] at hy
      exact hpy (by simpa using List.mem_takeWhile_imp hy)
    · exact hbefore z ((List.takeWhile_sublist _).mem hz) hqz
  · intro hall h
    obtain ⟨before, x, after, rfl, hx, hbefore⟩ := exists_first h
    have hp := hall before x after rfl hx hbefore
    refine ⟨x, ?_, hx⟩
    rw [List.takeWhile_append_of_pos (by simpa using hp), List.takeWhile_cons_of_pos]
    · simp
    · simpa using hqp x (by simp) hx

end

theorem isSome_firstHandler {ts : List TryBlock} :
    (firstHandler ti ts).isSome ↔ ∃ b ∈ ts, ∃ h ∈ b.catchHandlers, takes ti h = true := by
  simp only [firstHandler, List.find?_isSome, handlersOf, List.mem_flatMap, List.mem_map]
  constructor
  · rintro ⟨_, ⟨b, hb, h, hh, rfl⟩, htakes⟩
    exact ⟨b, hb, h, hh, htakes⟩
  · rintro ⟨b, hb, h, hh, htakes⟩
    exact ⟨_, ⟨b, hb, h, hh, rfl⟩, htakes⟩

theorem firstHandler_append {ts us : List TryBlock} :
    firstHandler ti (ts ++ us) = (firstHandler ti ts).or (firstHandler ti us) := by
  rw [firstHandler, handlersOf, List.flatMap_append, List.find?_append]
  rfl

variable {tryBlocks : List TryBlock} {t : TryBlock}

theorem searched_around (hwf : Nested range tryBlocks) (ht : t ∈ tryBlocks)
    (hstate : InCatch state (range t)) : searched (t.tryLow - 1) state tryBlocks =
      around range (tryBlocks.takeWhile fun b => t.tryLow - 1 < b.tryLow) state (some t) := by
  apply List.filter_congr
  intro b hb
  have hlow : t.tryLow - 1 < b.tryLow := by simpa using List.mem_takeWhile_imp hb
  have hmem := (List.takeWhile_sublist _).mem hb
  apply decide_eq_decide.mpr
  simp only [Option.mem_some_iff, forall_eq']
  refine ⟨fun hin => ⟨hin, (hwf.inside_iff ht hstate hmem hin).mpr ?_⟩, And.left⟩
  simp only [range]
  omega

theorem around_searched (hwf : Nested range tryBlocks) (ht : t ∈ tryBlocks)
    (hstate : InCatch state (range t)) : around range tryBlocks state (some t) =
      searched (t.tryLow - 1) state tryBlocks ++
        around range (tryBlocks.dropWhile fun b => t.tryLow - 1 < b.tryLow) state (some t) := by
  rw [searched_around hwf ht hstate, around, around, around, ← List.filter_append,
    List.takeWhile_append_dropWhile]

theorem candidate_low (hwf : Nested range tryBlocks) (ht : t ∈ tryBlocks)
    (hstate : InCatch state (range t)) {b : TryBlock} (hb : b ∈ tryBlocks)
    (hcandidate : Candidate ti state t b) : t.tryLow - 1 < b.tryLow := by
  have hlow := (hwf.inside_iff ht hstate hb hcandidate.1).mp hcandidate.2.1
  simp only [range] at hlow
  omega

theorem isSome_around : (firstHandler ti (around range tryBlocks state (some t))).isSome ↔
    ∃ b ∈ tryBlocks, Candidate ti state t b := by
  rw [isSome_firstHandler]
  simp [around, Candidate, and_assoc]

theorem isSome_searched (hwf : Nested range tryBlocks) (ht : t ∈ tryBlocks)
    (hstate : InCatch state (range t)) :
    (firstHandler ti (searched (t.tryLow - 1) state tryBlocks)).isSome ↔
      ∃ b ∈ tryBlocks.takeWhile fun b => t.tryLow - 1 < b.tryLow, Candidate ti state t b := by
  rw [searched_around hwf ht hstate, isSome_around]

/-- In the handlers of `t` the search takes the first handler of the innermost block
around the state exactly if no block that begins below `t` comes before that one. -/
theorem nested_search_iff (hwf : Nested range tryBlocks) (ht : t ∈ tryBlocks)
    (hstate : InCatch state (range t)) (htf : Resolves v regs frameAt tf ti) :
    (around range tryBlocks state (some t)).Pairwise
      (fun a b => InsideTry (range a) (range b)) ∧
    ((∃ tf' found, matchTryBlocks v regs frameAt (t.tryLow - 1) state tryBlocks tf =
        .ok (tf', found) ∧ found.map (fun x => (x.1, x.2.1)) =
          firstHandler ti (around range tryBlocks state (some t))) ↔
    ∀ before b after, tryBlocks = before ++ b :: after → Candidate ti state t b →
      (∀ c ∈ before, ¬ Candidate ti state t c) → ∀ c ∈ before, t.tryLow - 1 < c.tryLow) := by
  refine ⟨hwf.around_insideTry _, ?_⟩
  obtain ⟨tf', found, hmatch, hfound⟩ :=
    matchTryBlocks_find tryBlocks htf
  have hlow : ∀ b ∈ tryBlocks, Candidate ti state t b → t.tryLow - 1 < b.tryLow :=
    fun b hb => candidate_low hwf ht hstate hb
  rw [← takeWhile_first hlow, ← isSome_around, ← isSome_searched hwf ht hstate, around_searched
    hwf ht hstate, firstHandler_append, hmatch]
  constructor
  · rintro ⟨_, _, heq, hsame⟩ hsome
    obtain ⟨rfl, rfl⟩ := Prod.mk.inj (Except.ok.inj heq)
    rwa [← hsame, hfound] at hsome
  · intro h
    refine ⟨tf', found, rfl, ?_⟩
    rw [hfound]
    cases hfirst : firstHandler ti (searched (t.tryLow - 1) state tryBlocks) with
    | some x => rfl
    | none =>
      rw [hfirst] at h
      cases hrest : firstHandler ti (around range
          (tryBlocks.dropWhile fun b => t.tryLow - 1 < b.tryLow) state (some t)) with
      | none => rfl
      | some x =>
        rw [hrest] at h
        exact absurd (h rfl) nofun

def ellipsisHandler (handler : Ptr) : CatchHandler := ⟨CatchFlag.isEllipsis, 0, 0, handler⟩

def outerBlock : TryBlock := ⟨2, 2, 5, [ellipsisHandler 0x401000]⟩

def innerBlock : TryBlock := ⟨4, 4, 5, [ellipsisHandler 0x402000]⟩

def thrown : CxxThrowFrame := ⟨none, 0, 0, 0x2000, some ⟨0, 0, []⟩⟩

theorem nested_search_first :
    (around range [outerBlock, innerBlock] 4 (some outerBlock)).Pairwise
      (fun a b => InsideTry (range a) (range b)) ∧
    ∃ tf' found, matchTryBlocks ⟨0, 0, 0, []⟩ [] (fun _ => none) (outerBlock.tryLow - 1) 4
        [outerBlock, innerBlock] thrown = .ok (tf', found) ∧ found.map (fun x => (x.1, x.2.1)) =
          firstHandler ⟨0, 0, []⟩ (around range [outerBlock, innerBlock] 4 (some outerBlock)) := by
  have hwf : Nested range [outerBlock, innerBlock] := ⟨by decide, by decide⟩
  have hstate : InCatch 4 (range outerBlock) := by decide
  have hthrown : Resolves ⟨0, 0, 0, []⟩ [] (fun _ => none) thrown ⟨0, 0, []⟩ := .found rfl
  obtain ⟨hpairwise, hsearch⟩ := nested_search_iff hwf List.mem_cons_self hstate hthrown
  refine ⟨hpairwise, hsearch.mpr fun before b after hsplit _ _ c hc => ?_⟩
  have hmem : c ∈ [outerBlock, innerBlock] := by rw [hsplit]; simp [hc]
  have hall : ∀ c ∈ [outerBlock, innerBlock], outerBlock.tryLow - 1 < c.tryLow := by decide
  exact hall c hmem

/-- A try block before it hides the one in the handler. -/
theorem sibling_hides_nested :
    let siblings : List TryBlock := [⟨0, 0, 1, []⟩, outerBlock, innerBlock]
    Nested range siblings ∧ outerBlock ∈ siblings ∧ InCatch 4 (range outerBlock) ∧
    firstHandler ⟨0, 0, []⟩ (around range siblings 4 (some outerBlock)) =
      some (innerBlock, ellipsisHandler 0x402000) ∧
    matchTryBlocks ⟨0, 0, 0, []⟩ [] (fun _ => none) (outerBlock.tryLow - 1) 4 siblings thrown =
      .ok (thrown, none) := by
  exact ⟨⟨by decide, by decide⟩, by decide, by decide, rfl, rfl⟩

end Vcrtl.X86.NestedSearch

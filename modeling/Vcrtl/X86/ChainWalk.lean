import Vcrtl.X64.CatchFrame
import Vcrtl.X86.Handler

namespace Vcrtl.X86.ChainWalk

open Lib.Memory BugCheck EhStructs ThrowFrame
open X64.CatchFrame (ExceptionDisposition)

/-- What a walk does with a record in memory: it reads the handler in its second
word, calls it, and reads its first word. -/
inductive Access
  | readHandler (p : Ptr)
  | call (p handler : Ptr)
  | readNext (p : Ptr)
  deriving DecidableEq

def Access.record : Access → Ptr
  | readHandler p | call p _ | readNext p => p

/-- The program around a walk: its memory, what its handlers do with a record,
and the word that the walk waits for. -/
structure Walker (σ : Type) where
  mem : σ → Mem 32
  handle : (handler p : Ptr) → σ → Exec (ExceptionDisposition × σ)
  setSehHead : Ptr → σ → σ
  found : σ → Ptr

section

variable {σ : Type} (v : SehVerifier) (w : Walker σ)

/-- What both walks do with a record: check it and call its handler. -/
def visitRecord (p : Ptr) (s : σ) : List Access × Exec σ :=
  if p < v.stackLimit ∨ v.stackBase ≤ p then
    ([], onBugCheck .corruptedExceptionRegistrationChain)
  else
    let handler := read32 (w.mem s) (p + 4)
    match Algorithm.binarySearch (fun a b => decide (a < b)) v.safeSeHandlerTable
        (handler - v.imageBase) with
    | some true => ([.readHandler p, .call p handler], do
        let (disposition, s) ← w.handle handler p s
        if disposition ≠ .cxxHandler then
          onBugCheck .unwindingNonCxxFrame
        else
          return s)
    | some false => ([.readHandler p], onBugCheck .sehHandlerNotInSafeseh)
    | none => ([.readHandler p], .error .fault)

abbrev Turn (σ : Type) := List Access × Exec (Option Ptr × σ)

/-- A turn of the loop of `__cxx_dispatch_exception`, which ends with a handler. -/
def dispatchTurn (p : Ptr) (s : σ) : Turn σ :=
  match visitRecord v w p s with
  | (log, .error e) => (log, .error e)
  | (log, .ok s) =>
    if w.found s ≠ null then
      (log, .ok (none, s))
    else
      let next := read32 (w.mem s) p
      (log ++ [.readNext p], .ok (some next, w.setSehHead next s))

/-- A turn of the loop of `_probe_for_exception_object`, which ends with a link. -/
def probeTurn (p : Ptr) (s : σ) : Turn σ :=
  if w.found s ≠ null then
    ([], .ok (none, s))
  else
    match visitRecord v w p s with
    | (log, .error e) => (log, .error e)
    | (log, .ok s) => (log ++ [.readNext p], .ok (some (read32 (w.mem s) p), s))

inductive Reaches (turn : Ptr → σ → Turn σ) : Ptr → σ → Ptr → σ → Prop
  | here (p s) : Reaches turn p s p s
  | next {p s p₁ s₁ q t} (hturn : (turn p s).2 = .ok (some p₁, s₁))
      (hrest : Reaches turn p₁ s₁ q t) : Reaches turn p s q t

/-- Both words of the record are on the stack. -/
def Whole (p : Ptr) : Prop := v.stackLimit ≤ p ∧ p.toNat + 8 ≤ v.stackBase.toNat

def Straddles (p : Ptr) : Prop :=
  v.stackLimit ≤ p ∧ p < v.stackBase ∧ v.stackBase.toNat < p.toNat + 8

def Registered (handler : Ptr) : Prop := handler - v.imageBase ∈ v.safeSeHandlerTable

/-- A turn stays within one record, and calls only a handler that is registered. It stops before it
reads anything of a record that is not on the stack, also behind the last one. -/
structure Checked (m : Mem 32) (p : Ptr) (turn : Turn σ) : Prop where
  record : ∀ a ∈ turn.1, a.record = p
  called : ∀ q handler, .call q handler ∈ turn.1 →
    handler = read32 m (p + 4) ∧ Registered v handler
  outside : ¬ Whole v p → turn.1 = [] ∧ BugChecks turn.2
  unregistered : ¬ Registered v (read32 m (p + 4)) → BugChecks turn.2
  ends : p = 0xffffffff → turn.1 = [] ∧ BugChecks turn.2

def Validated (turn : Ptr → σ → Turn σ) (visits : σ → Prop) (p : Ptr) (s : σ) : Prop :=
  ∀ q t, Reaches turn p s q t → visits t → Checked v (w.mem t) q (turn q t)

structure Continues (p : Ptr) (visited : List Access × Exec σ) (turn : Turn σ) : Prop where
  log : turn.1 = visited.1 ∨ turn.1 = visited.1 ++ [.readNext p]
  error : ∀ e, visited.2 = .error e → turn = (visited.1, .error e)

end

variable {σ : Type} {v : SehVerifier} {w : Walker σ} {p : Ptr} {s : σ}

theorem dispatchTurn_continues : Continues p (visitRecord v w p s) (dispatchTurn v w p s) := by
  rw [dispatchTurn]
  obtain ⟨log, e | s'⟩ := visitRecord v w p s
  · refine ⟨.inl rfl, ?_⟩
    rintro e' ⟨⟩
    rfl
  · refine ⟨?_, ?_⟩
    · simp only
      split
      · exact .inl rfl
      · exact .inr rfl
    · rintro e ⟨⟩

theorem probeTurn_continues (h : w.found s = null) :
    Continues p (visitRecord v w p s) (probeTurn v w p s) := by
  rw [probeTurn, if_neg (not_not.mpr h)]
  obtain ⟨log, e | s'⟩ := visitRecord v w p s
  · refine ⟨.inl rfl, ?_⟩
    rintro e' ⟨⟩
    rfl
  · refine ⟨.inr rfl, ?_⟩
    rintro e ⟨⟩

theorem visitRecord_outside (h : p < v.stackLimit ∨ v.stackBase ≤ p) :
    visitRecord v w p s = ([], onBugCheck .corruptedExceptionRegistrationChain) := by
  rw [visitRecord, if_pos h]

theorem registered_of_search {handler : Ptr} (h : Algorithm.binarySearch
      (fun a b => decide (a < b)) v.safeSeHandlerTable (handler - v.imageBase) = some true) :
    Registered v handler := by
  obtain ⟨x, hx, hequivalent⟩ := Algorithm.binarySearch_true h
  rw [Registered, Algorithm.equivalent_iff_eq.mp hequivalent]
  exact hx

theorem visitRecord_cases (h : ¬ (p < v.stackLimit ∨ v.stackBase ≤ p)) :
    (Registered v (read32 (w.mem s) (p + 4)) ∧
      (visitRecord v w p s).1 = [.readHandler p, .call p (read32 (w.mem s) (p + 4))]) ∨
    visitRecord v w p s = ([.readHandler p], onBugCheck .sehHandlerNotInSafeseh) := by
  rw [visitRecord, if_neg h]
  simp only
  cases hsearch : Algorithm.binarySearch (fun a b => decide (a < b)) v.safeSeHandlerTable
      (read32 (w.mem s) (p + 4) - v.imageBase) with
  | none =>
    rw [Algorithm.binarySearch_bisect] at hsearch
    cases hsearch
  | some accepted =>
    cases accepted with
    | false => exact .inr rfl
    | true => exact .inl ⟨registered_of_search hsearch, rfl⟩

theorem on_stack (h : ¬ (p < v.stackLimit ∨ v.stackBase ≤ p)) :
    v.stackLimit ≤ p ∧ p < v.stackBase := by
  rw [not_or, BitVec.not_lt, BitVec.not_le] at h
  exact h

theorem whole_or_straddles (h : ¬ (p < v.stackLimit ∨ v.stackBase ≤ p)) :
    Whole v p ∨ Straddles v p := by
  obtain ⟨hlimit, hbase⟩ := on_stack h
  by_cases hle : p.toNat + 8 ≤ v.stackBase.toNat
  · exact .inl ⟨hlimit, hle⟩
  · exact .inr ⟨hlimit, hbase, by omega⟩

theorem Whole.ne_last (h : Whole v p) : p ≠ 0xffffffff := by
  rintro rfl
  have hend : 0xffffffff + 8 ≤ v.stackBase.toNat := h.2
  have hbase := v.stackBase.isLt
  omega

variable {turn : Turn σ}

theorem log_ne_nil (h : Continues p (visitRecord v w p s) turn)
    (hin : ¬ (p < v.stackLimit ∨ v.stackBase ≤ p)) : turn.1 ≠ [] := by
  obtain ⟨-, hvisit⟩ | hvisit := visitRecord_cases (w := w) (s := s) hin
  · obtain hlog | hlog := h.log <;> simp [hlog, hvisit]
  · obtain hlog | hlog := h.log <;> simp [hlog, hvisit]

theorem checked_outside (h : Continues p (visitRecord v w p s) turn)
    (hout : p < v.stackLimit ∨ v.stackBase ≤ p) : Checked v (w.mem s) p turn := by
  have hvisit : visitRecord v w p s = _ := visitRecord_outside hout
  obtain rfl := h.error _ (congrArg Prod.snd hvisit)
  rw [hvisit]
  refine ⟨?_, ?_, ?_, ?_, ?_⟩
  · simp
  · simp
  · exact fun _ => ⟨rfl, _, rfl⟩
  · exact fun _ => ⟨_, rfl⟩
  · exact fun _ => ⟨rfl, _, rfl⟩

theorem checked_whole (h : Continues p (visitRecord v w p s) turn)
    (hin : ¬ (p < v.stackLimit ∨ v.stackBase ≤ p)) (hwhole : Whole v p) :
    Checked v (w.mem s) p turn := by
  obtain ⟨hregistered, hvisit⟩ | hvisit := visitRecord_cases (w := w) (s := s) hin
  · have hlog := h.log
    rw [hvisit] at hlog
    refine ⟨?_, ?_, absurd hwhole, absurd hregistered, fun hp => absurd hp hwhole.ne_last⟩
    · obtain hlog | hlog := hlog <;> simp [hlog, Access.record]
    · intro q handler hcall
      have hhandler : handler = read32 (w.mem s) (p + 4) := by
        obtain hlog | hlog := hlog
        · rw [hlog] at hcall
          simp only [List.mem_cons, Access.call.injEq, reduceCtorEq, List.not_mem_nil, false_or,
            or_false] at hcall
          exact hcall.2
        · rw [hlog] at hcall
          simp only [List.cons_append, List.nil_append, List.mem_cons, Access.call.injEq,
            reduceCtorEq, List.not_mem_nil, false_or, or_false] at hcall
          exact hcall.2
      rw [hhandler]
      exact ⟨rfl, hregistered⟩
  · obtain rfl := h.error _ (congrArg Prod.snd hvisit)
    rw [hvisit]
    refine ⟨?_, ?_, absurd hwhole, fun _ => ⟨_, rfl⟩, fun hp => absurd hp hwhole.ne_last⟩
    · simp [Access.record]
    · simp

/-- A turn on a record is checked exactly if the record does not begin on the stack and end behind
it. -/
theorem checked_iff (h : Continues p (visitRecord v w p s) turn) :
    Checked v (w.mem s) p turn ↔ ¬ Straddles v p := by
  refine ⟨?_, ?_⟩
  · rintro hchecked ⟨hlimit, hbase, hend⟩
    have hin : ¬ (p < v.stackLimit ∨ v.stackBase ≤ p) := by
      rw [not_or, BitVec.not_lt, BitVec.not_le]
      exact ⟨hlimit, hbase⟩
    have hnot : ¬ Whole v p := fun hwhole => absurd hwhole.2 (Nat.not_le.mpr hend)
    exact absurd (hchecked.outside hnot).1 (log_ne_nil h hin)
  · intro hnot
    by_cases hout : p < v.stackLimit ∨ v.stackBase ≤ p
    · exact checked_outside h hout
    · exact checked_whole h hout ((whole_or_straddles hout).resolve_right hnot)

/-- Both walks check every record they visit exactly if none of those begins on the stack and ends
behind it. -/
theorem chain_validated_iff {σ' : Type} (v : SehVerifier) (w : Walker σ) (w' : Walker σ')
    (p p' : Ptr) (s : σ) (s' : σ') :
    (Validated v w (dispatchTurn v w) (fun _ => True) p s ∧
      Validated v w' (probeTurn v w') (w'.found · = null) p' s') ↔
    (∀ q t, Reaches (dispatchTurn v w) p s q t → ¬ Straddles v q) ∧
      ∀ q t, Reaches (probeTurn v w') p' s' q t → w'.found t = null → ¬ Straddles v q := by
  apply and_congr
  · apply forall₃_congr
    intro q t _
    rw [true_implies, checked_iff dispatchTurn_continues]
  · apply forall₄_congr
    intro q t _ hlink
    exact checked_iff (probeTurn_continues hlink)

/-- The registrations lie in memory, each with the address of the next one. -/
def ChainAt (m : Mem 32) : List SehRegistration → Ptr → Prop
  | [], p => p = 0xffffffff
  | reg :: rest, p => p = reg.addr ∧ read32 m (p + 4) = reg.handler ∧ ChainAt m rest (read32 m p)

theorem visitRecord_verify {reg : SehRegistration}
    (hhandler : read32 (w.mem s) (reg.addr + 4) = reg.handler) :
    (visitRecord v w reg.addr s).2 = do
      v.verifySehRegistration reg
      let (disposition, s) ← w.handle reg.handler reg.addr s
      if disposition ≠ .cxxHandler then onBugCheck .unwindingNonCxxFrame else return s := by
  rw [visitRecord, SehVerifier.verifySehRegistration]
  split
  · rfl
  · simp only [hhandler]
    cases Algorithm.binarySearch (fun a b => decide (a < b)) v.safeSeHandlerTable
        (reg.handler - v.imageBase) with
    | none => rfl
    | some accepted => cases accepted <;> rfl

section

open Handler

variable (code : CatchVariable.Code 32) (v : SehVerifier) (frameAt : FrameAt)
  (regs : List SehRegistration)

/-- The handlers of the registrations, each called with those that are left of the chain. -/
def chainWalker : Walker Dispatch where
  mem d := d.world.mem
  handle _ p d :=
    match regs.dropWhile (fun reg => reg.addr != p) with
    | [] => .error .fault
    | reg :: rest =>
      (ExceptionDisposition.cxxHandler, ·) <$> visit code v (reg :: rest) frameAt reg d
  setSehHead _ d := d
  found d := d.handler

end

/-- A record 4 bytes below the stack base, whose handler is the word above it. -/
def lastWord : Mem 32 := write (fun _ => 0) 0x9000 [0x10, 0x00, 0x40, 0x00]

def oneHandler : SehVerifier := ⟨0x9000, 0x8000, 0x400000, [0x10]⟩

def quietWalker (found : Ptr) : Walker (Mem 32) :=
  ⟨id, fun _ _ m => .ok (.cxxHandler, m), fun _ m => m, fun _ => found⟩

/-- Both walks take the handler of a record from behind the stack and call it. -/
theorem chain_not_validated :
    (dispatchTurn oneHandler (quietWalker 0x401000) 0x8ffc lastWord).1 =
        [.readHandler 0x8ffc, .call 0x8ffc 0x400010] ∧
      ¬ Whole oneHandler 0x8ffc ∧
      ¬ Validated oneHandler (quietWalker 0x401000)
        (dispatchTurn oneHandler (quietWalker 0x401000)) (fun _ => True) 0x8ffc lastWord ∧
      ¬ Validated oneHandler (quietWalker null)
        (probeTurn oneHandler (quietWalker null)) ((quietWalker null).found · = null) 0x8ffc
        lastWord := by
  have hwhole : ¬ Whole oneHandler 0x8ffc := by
    rintro ⟨-, hend⟩
    exact absurd hend (by decide)
  refine ⟨rfl, hwhole, ?_, ?_⟩
  · intro h
    have hempty := (h _ _ (.here 0x8ffc lastWord) trivial).outside hwhole
    cases hempty.1
  · intro h
    have hempty := (h _ _ (.here 0x8ffc lastWord) rfl).outside hwhole
    cases hempty.1

end Vcrtl.X86.ChainWalk

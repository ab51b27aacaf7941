import Vcrtl.X86.Handler

namespace Vcrtl.X86.Noexcept

open Lib.Memory BugCheck EhFlags EhStructs ThrowFrame CatchVariable Handler

variable {code : Code 32} {v : SehVerifier} {frameAt : FrameAt}

/-- The dispatch gets from one record of the chain to a later one, in whatever
way the handlers in between change the program. -/
inductive Visits (code : Code 32) (v : SehVerifier) (frameAt : FrameAt) :
    List SehRegistration → Dispatch → List SehRegistration → Dispatch → Prop
  | here (regs d) : Visits code v frameAt regs d regs d
  | next {p rest d d₁ regs' d'} (hverify : v.verifySehRegistration p = .ok ())
      (hvisit : visit code v (p :: rest) frameAt p d = .ok d₁) (hhandler : d₁.handler = null)
      (hrest : Visits code v frameAt rest d₁ regs' d') :
      Visits code v frameAt (p :: rest) d regs' d'

theorem Visits.handler {regs regs' : List SehRegistration} {d d' : Dispatch}
    (h : Visits code v frameAt regs d regs' d') (hd : d.handler = null) : d'.handler = null := by
  induction h with
  | here => exact hd
  | next _ _ hhandler _ ih => exact ih hhandler

theorem Visits.dispatch {regs regs' : List SehRegistration} {d d' : Dispatch}
    (h : Visits code v frameAt regs d regs' d') :
    dispatch code v frameAt regs d = dispatch code v frameAt regs' d' := by
  induction h with
  | here => rfl
  | next hverify hvisit hhandler _ ih =>
    simp only [Handler.dispatch, hverify, hvisit, bind, Except.bind]
    rw [if_neg (not_not.mpr hhandler)]
    exact ih

def FindsNone (v : SehVerifier) (regs : List SehRegistration) (frameAt : FrameAt) (frameBase : Ptr)
    (ehInfo : FunctionEhInfo) (d : Dispatch) : Prop :=
  (∃ ti, d.throwFrame.getThrowInfo frameAt = .ok ti) ∧
    ∃ tf, matchTryBlocks v regs frameAt (-1) (frameState d.world.mem frameBase) ehInfo.tryBlocks
      d.throwFrame = .ok (tf, none)

theorem unwindFrom_no_bugCheck (graph : List UnwindGraphEdge) (frameBase : Ptr) (target state : Int)
    (fuel : Nat) (s : World 32) (reason : BugCheckReason) :
    unwindFrom code graph frameBase target fuel state s ≠ .error (.bugCheck reason) := by
  induction fuel generalizing state s with
  | zero =>
    rw [unwindFrom]
    split <;> simp
  | succ fuel ih =>
    rw [unwindFrom]
    split
    · simp
    · simp only [Algorithm.elementAt]
      split
      · split
        · apply ih
        · simp [bind, Except.bind]
      · simp [bind, Except.bind]

theorem unwindFrame_done {frameBase : Ptr} {ehInfo : FunctionEhInfo} {target : Int} {s : World 32}
    (h : frameState s.mem frameBase ≤ target) :
    unwindFrame code frameBase ehInfo target s = .ok s := by
  rw [unwindFrame]
  cases ehInfo.unwindGraph.length <;> rw [unwindFrom, if_pos h]

theorem fh3Handler_stops_iff {regs : List SehRegistration} {d : Dispatch} {ehInfo : FunctionEhInfo}
    {frameBase : Ptr} (hmagic : 0x19930522 ≤ ehInfo.magic)
    (hflag : hasAnyOf ehInfo.ehFlags EhFlag.isNoexcept = true) (hhandler : d.handler = null)
    (hnone : FindsNone v regs frameAt frameBase ehInfo d) :
    fh3Handler code v regs frameAt frameBase ehInfo (-1) d = .error (.bugCheck .noexceptViolation) ↔
      frameState d.world.mem frameBase = -1 ∧ ehInfo.esTypes = 0 := by
  obtain ⟨⟨ti, hti⟩, tf, hmatch⟩ := hnone
  rw [fh3Handler]
  by_cases hes : ehInfo.esTypes = 0
  · rw [if_neg (fun h => h.2 hes)]
    simp only [hti, hmatch, bind, Except.bind, hes, and_true]
    by_cases hstate : frameState d.world.mem frameBase = -1
    · rw [unwindFrame_done (by omega)]
      simp only [hstate, hflag, hhandler, and_self, and_true, true_and, iff_true]
      exact if_pos hmagic
    · constructor
      · intro h
        cases hu : unwindFrame code frameBase ehInfo (-1) d.world with
        | error e =>
          rw [hu] at h
          cases h
          exact (unwindFrom_no_bugCheck _ _ _ _ _ _ _ hu).elim
        | ok s =>
          rw [hu] at h
          simp [hstate, pure, Except.pure] at h
      · exact fun h => absurd h hstate
  · rw [if_pos ⟨by omega, hes⟩]
    exact ⟨fun h => (nomatch h), fun h => absurd h.2 hes⟩

/-- Whichever handlers ran before, an exception that a `noexcept` function does
not handle is stopped there exactly if the state was -1 on entry. -/
theorem noexcept_stops_iff {regs rest : List SehRegistration} {p : SehRegistration}
    {d d' : Dispatch} {ehInfo : FunctionEhInfo} {frameBase : Ptr} (hstart : d.handler = null)
    (hvisits : Visits code v frameAt regs d (p :: rest) d')
    (hp : p.target = .primary ehInfo frameBase) (hmagic : 0x19930522 ≤ ehInfo.magic)
    (hflag : hasAnyOf ehInfo.ehFlags EhFlag.isNoexcept = true)
    (hnone : FindsNone v (p :: rest) frameAt frameBase ehInfo d') :
    visit code v (p :: rest) frameAt p d' = .error (.bugCheck .noexceptViolation) ↔
      frameState d'.world.mem frameBase = -1 ∧ ehInfo.esTypes = 0 ∧ ehInfo.magic < 0x19940000 := by
  simp only [visit, hp, fh3PrimaryHandler]
  by_cases hmax : ehInfo.magic < 0x19940000
  · rw [if_neg (by omega), fh3Handler_stops_iff hmagic hflag (hvisits.handler hstart) hnone]
    simp only [hmax, and_true]
  · rw [if_pos (.inr (by omega))]
    simp [onBugCheck, hmax]

def liveLocal : FunctionEhInfo := ⟨0x19930522, [⟨-1, 0x40⟩], [], 0, 0x4⟩

def noHandlers : SehVerifier := ⟨0x10000, 0, 0, []⟩

def entered (state : Byte) : Dispatch :=
  ⟨⟨none, 0, 0, 0x2000, some ⟨0, 0, []⟩⟩, null, ⟨fun _ => state, []⟩⟩

theorem noexcept_stops_outside :
    visit (fun _ m => m) noHandlers [⟨0x1000, 0x20, .primary liveLocal 0x100c⟩] (fun _ => none)
      ⟨0x1000, 0x20, .primary liveLocal 0x100c⟩ (entered 0xff) =
      .error (.bugCheck .noexceptViolation) := by
  have hnone :
      FindsNone noHandlers [⟨0x1000, 0x20, .primary liveLocal 0x100c⟩] (fun _ => none) 0x100c
      liveLocal (entered 0xff) := ⟨⟨_, rfl⟩, _, rfl⟩
  exact (noexcept_stops_iff rfl (.here _ _) rfl (by decide) rfl hnone).mpr (by decide)

/-- With the object alive it is destroyed and the exception goes on to the caller. -/
theorem noexcept_leaks : ∃ d, visit (fun _ m => m) noHandlers
      [⟨0x1000, 0x20, .primary liveLocal 0x100c⟩] (fun _ => none)
      ⟨0x1000, 0x20, .primary liveLocal 0x100c⟩ (entered 0) = .ok d ∧
    FindsNone noHandlers [⟨0x1000, 0x20, .primary liveLocal 0x100c⟩] (fun _ => none) 0x100c
      liveLocal
      (entered 0) ∧ d.handler = null ∧ d.world.trace = [.funclet 0x40 0x100c] := by
  exact ⟨_, rfl, ⟨⟨_, rfl⟩, _, rfl⟩, rfl, rfl⟩

end Vcrtl.X86.Noexcept

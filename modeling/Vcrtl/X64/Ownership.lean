import Vcrtl.X64.Invariant

namespace Vcrtl.X64.Ownership

open Lib.Custody Lib.Links BugCheck EhStructs Throw CatchFrame Steps Invariant

def catchInfo : Cell → Option CatchInfo
  | .throwing _ info _ | .catching _ info _ => some info
  | .function _ | .finishing _ => none

def subject : Cell → Option Nat
  | .throwing _ _ n | .catching _ _ n => some n
  | .function _ | .finishing _ => none

theorem slot_of_catchInfo {c : Cell} {info : CatchInfo} (h : catchInfo c = some info) :
    ∃ x, slot c = some x ∧ x.ref = info.exceptionObjectOrLink ∧ x.info = info.throwInfoIfOwner ∧
      subject c = some x.subject := by
  cases c with
  | function f | finishing fp => cases h
  | throwing tf info' n | catching fp info' n =>
    cases h
    exact ⟨_, rfl, rfl, rfl, rfl⟩

def LeadsTo (s : State) (info : CatchInfo) (n : Nat) : Prop :=
  ∃ o ti, s.record.thrown[n]? = some (o, ti) ∧
    info.getThrowInfo (infoAt s.stack) = .ok (some ti) ∧
    info.getExceptionObject (infoAt s.stack) = .ok o

def Refers (s : State) (n : Nat) : Prop :=
  ∃ c ∈ s.stack, ∃ info o, catchInfo c = some info ∧ info.exceptionObjectOrLink ≠ null ∧
    info.getExceptionObject (infoAt s.stack) = .ok o ∧ s.record.occupant o = some n

theorem refers_iff {s : State} (hi : Inv s) (n : Nat) :
    Refers s n ↔ ∃ q ∈ owners (slots slot s.stack), s.record.occupant q.1 = some n := by
  constructor
  · rintro ⟨c, hc, info, o, hinfo, hne, ho, hn⟩
    obtain ⟨x, hx, hr, ht, -⟩ := slot_of_catchInfo hinfo
    have hm : x ∈ slots slot s.stack := mem_slots.mpr ⟨c, hc, hx⟩
    obtain ⟨o', ti, -, -, ho', k, hk, hko, hkt⟩ := resolve hi hm (hr ▸ hne) hr.symm ht.symm
    rw [ho] at ho'
    cases ho'
    exact ⟨(o, ti), mem_owners.mpr ⟨k, hk, hko, hkt⟩, hn⟩
  · rintro ⟨q, hq, hn⟩
    obtain ⟨x, hx, hxr, hxt⟩ := mem_owners.mp hq
    have hne : x.ref ≠ null := (hi.direct.owner hx hxt).1
    obtain ⟨c, hc, hs⟩ := mem_slots.mp hx
    cases c with
    | function f | finishing fp => cases hs
    | throwing tf info m | catching fp info m =>
      cases hs
      exact ⟨_, hc, info, info.exceptionObjectOrLink, rfl, hne, getExceptionObject_owner hxt,
        by rw [← hn, ← hxr]⟩

theorem probe_succeeds {funs rest : List Cell} {fp : Ptr} {ci info : CatchInfo} {m : Nat}
    (hf : ∀ c ∈ funs, ∃ f, c = .function f) (hci : ci.exceptionObjectOrLink ≠ null)
    (ha : catchInfoAddr fp ≠ null) (h0 : info.exceptionObjectOrLink = null) :
    ∃ info', probeForExceptionObject ((funs ++ .catching fp ci m :: rest).map frame) info =
      .ok info' := by
  induction funs with
  | nil =>
    have hp := (@callCatch_probe fp ci info _).mpr ⟨hci, rfl⟩
    have hne : (if ci.throwInfoIfOwner.isSome then catchInfoAddr fp
        else ci.exceptionObjectOrLink) ≠ null := by
      split <;> assumption
    simp only [List.nil_append, List.map_cons, frame, probeForExceptionObject, probeFrame, hp,
      bind_ok, pure_ok, verify_ok]
    exact ⟨_, _, ⟨_, rfl, rfl⟩, (), rfl, by rw [if_pos hne]; rfl⟩
  | cons c funs ih =>
    obtain ⟨f, rfl⟩ := hf c (List.mem_cons_self ..)
    obtain ⟨info', hp⟩ := ih fun c hc => hf c (List.mem_cons_of_mem _ hc)
    refine ⟨info', ?_⟩
    simp only [List.cons_append, List.map_cons, frame, probeForExceptionObject, probeFrame,
      bind_ok, verify_ok]
    exact ⟨_, rfl, (), rfl, by rw [if_neg (by simp [h0])]; exact hp⟩

/-- What holds between any two steps. -/
structure Safe (s : State) : Prop where
  /-- A handler owns its exception or links straight to a handler further up that does. -/
  direct : ∀ pre fp info n rest, s.stack = pre ++ .catching fp info n :: rest →
    info.exceptionObjectOrLink ≠ null ∧ (info.throwInfoIfOwner.isSome = true ∨
      ∃ fp' info' n', .catching fp' info' n' ∈ rest ∧
        info.exceptionObjectOrLink = catchInfoAddr fp' ∧ info'.throwInfoIfOwner.isSome = true)
  /-- A rethrow without an exception is about that of the innermost handler. -/
  pending : ∀ pre tf info n rest, s.stack = pre ++ .throwing tf info n :: rest →
    info.exceptionObjectOrLink = null → current (slots slot rest) = some n
  /-- What a throw or handler is about is what it sees. -/
  resolved : ∀ c ∈ s.stack, ∀ info n, catchInfo c = some info → subject c = some n →
    info.exceptionObjectOrLink ≠ null → LeadsTo s info n
  /-- Before a handler is compared the exception is found, unless another throw is in the way. -/
  found : ∀ tf info n funs fp ci m rest, (∀ c ∈ funs, ∃ f, c = .function f) →
    s.stack = .throwing tf info n :: (funs ++ .catching fp ci m :: rest) →
    ∃ info', ensureThrowInfo ((funs ++ .catching fp ci m :: rest).map frame)
        (infoAt s.stack) info = .ok info' ∧
      LeadsTo ⟨.throwing tf info' n :: (funs ++ .catching fp ci m :: rest), s.record⟩ info' n
  kept : ∀ n o ti, s.record.thrown[n]? = some (o, ti) → Refers s n → s.record.log.count (some n) = 0
  destroyed : ∀ n o ti, s.record.thrown[n]? = some (o, ti) → ti.destroyExcObj ≠ 0 →
    ¬ Refers s n → s.record.log.count (some n) = 1
  logged : ∀ x ∈ s.record.log, ∃ n o ti, x = some n ∧ s.record.thrown[n]? = some (o, ti) ∧
    ti.destroyExcObj ≠ 0

theorem leadsTo {s : State} (hi : Inv s) {c : Cell} (hc : c ∈ s.stack) {info : CatchInfo} {n : Nat}
    (hinfo : catchInfo c = some info) (hn : subject c = some n)
    (hne : info.exceptionObjectOrLink ≠ null) : LeadsTo s info n := by
  obtain ⟨x, hx, hr, ht, hxn⟩ := slot_of_catchInfo hinfo
  obtain ⟨o, ti, ho, hti, hobj, -⟩ :=
    resolve hi (mem_slots.mpr ⟨c, hc, hx⟩) (hr ▸ hne) hr.symm ht.symm
  rw [hn] at hxn
  cases hxn
  exact ⟨o, ti, ho, hti, hobj⟩

theorem found {s : State} (hi : Inv s) {tf fp : Ptr} {info ci : CatchInfo} {n m : Nat}
    {funs rest : List Cell} (hf : ∀ c ∈ funs, ∃ f, c = .function f)
    (hs : s.stack = .throwing tf info n :: (funs ++ .catching fp ci m :: rest)) :
    ∃ info', ensureThrowInfo ((funs ++ .catching fp ci m :: rest).map frame)
        (infoAt s.stack) info = .ok info' ∧
      LeadsTo ⟨.throwing tf info' n :: (funs ++ .catching fp ci m :: rest), s.record⟩ info' n := by
  obtain ⟨stack, r⟩ := s
  dsimp only at hs
  subst hs
  have hmem : (⟨catchInfoAddr fp, ci.exceptionObjectOrLink, ci.throwInfoIfOwner, m, true⟩ :
      Slot Ptr ThrowInfo) ∈
        slots slot (.throwing tf info n :: (funs ++ .catching fp ci m :: rest)) := by
    simp [slots_append]
  have hsound := hi.sound _ hmem
  have hrun : ∃ info', ensureThrowInfo ((funs ++ .catching fp ci m :: rest).map frame)
      (infoAt (.throwing tf info n :: (funs ++ .catching fp ci m :: rest))) info = .ok info' := by
    by_cases h0 : info.exceptionObjectOrLink = null
    · obtain ⟨info', hp⟩ := @probe_succeeds funs rest _ _ _ _ hf (hsound.2 rfl) hsound.1 h0
      exact ⟨info', by simp only [ensureThrowInfo, getThrowInfo_null h0]; exact hp⟩
    · obtain ⟨o, ti, -, hti, -⟩ := leadsTo hi (List.mem_cons_self ..) rfl rfl h0
      exact ⟨info, by simp only [ensureThrowInfo, hti]; rfl⟩
  obtain ⟨info', hrun⟩ := hrun
  have hne := (ensure_direct (s := ⟨_, r⟩) rfl hi hrun).2.2.1
  exact ⟨info', hrun, leadsTo (search_inv hi hrun ⟨rfl, rfl⟩) (List.mem_cons_self ..) rfl rfl hne⟩

theorem inv_safe {s : State} (hi : Inv s) : Safe s := by
  refine ⟨?_, ?_, fun c hc info n => leadsTo hi hc, fun tf info n funs fp ci m rest => found hi,
    ?_, ?_, ?_⟩
  · intro pre fp info n rest hs
    have hdir := hi.direct
    have hsound := hi.sound
    rw [hs, slots_append] at hdir hsound
    have hne : info.exceptionObjectOrLink ≠ null :=
      (hsound _ (List.mem_append_right _ (List.mem_cons_self ..))).2 rfl
    refine ⟨hne, ?_⟩
    obtain ⟨h0, -⟩ | ⟨-, ⟨t, ht, -⟩ | ⟨-, k, hk, hh, ha, ho, -⟩⟩ := hdir.append.1
    · exact absurd h0 hne
    · exact .inl (Option.isSome_of_eq_some ht)
    · obtain ⟨fp', info', hm, hk'⟩ := catching_of_slot hk hh
      rw [hk'] at ha ho
      exact .inr ⟨fp', info', _, hm, ha.symm, ho⟩
  · intro pre tf info n rest hs h0
    have hdir := hi.direct
    rw [hs, slots_append] at hdir
    obtain ⟨-, -, hcur⟩ | ⟨hne, -⟩ := hdir.append.1
    · exact hcur
    · exact absurd h0 hne
  · intro n o ti hn href
    rw [refers_iff hi] at href
    exact hi.kept.spared hn href
  · intro n o ti hn hd href
    rw [refers_iff hi] at href
    exact hi.kept.ended hn (by simpa [audible] using hd) href
  · intro x hx
    obtain ⟨n, ⟨o, ti⟩, rfl, hn, hd⟩ := hi.kept.audible_of_logged hx
    exact ⟨n, o, ti, rfl, hn, by simpa [audible] using hd⟩

/-- In every run each exception is destroyed once, when the last throw or
handler that refers to it is gone, and a rethrow sees what it must. -/
theorem reach_safe {s : State} (h : Reach s) : Safe s := inv_safe (reach_inv h)

def thrower : FunctionFrame := ⟨0x5000, 0, 0, .none⟩

def handlerFunclet : FunctionFrame := ⟨0x900, 0, 0, .none⟩

def thrownInfo : ThrowInfo := ⟨0, 0x10, []⟩

def caughtInfo : CatchInfo := initCatchInfo ⟨0, 0, 0, 0, none, 0⟩ 0x2000 (some thrownInfo)

def linkedInfo : CatchInfo :=
  { initCatchInfo ⟨0, 0, 0, 0, none, 0⟩ null none with exceptionObjectOrLink := 0x1128 }

def rethrowing (info : CatchInfo) : State :=
  ⟨[.throwing 0x400 info 0, .function handlerFunclet, .catching (shrink 0x1000) caughtInfo 0,
    .function thrower], Record.empty.hand 0x2000 thrownInfo⟩

theorem reach_rethrowing : Reach (rethrowing linkedInfo) := by
  have hcall : Step .initial ⟨[.function thrower], .empty⟩ := .call thrower [] .empty
  have hthrow := Step.throwNew ⟨[.function thrower], .empty⟩ 0x1000 0x2000 thrownInfo
    ⟨0, 0, 0, 0, none, 0⟩ ⟨by decide, by decide, by decide⟩ ⟨by decide, by decide, by decide⟩
    (by decide)
  have hland := Step.land 0x1000 caughtInfo 0 thrower [] (Record.empty.hand 0x2000 thrownInfo)
    thrownInfo caughtInfo rfl ⟨rfl, rfl⟩
  have hfunclet := Step.call handlerFunclet
    [.catching (shrink 0x1000) caughtInfo 0, .function thrower]
    (Record.empty.hand 0x2000 thrownInfo)
  have hrethrow := Step.rethrow ⟨[.function handlerFunclet,
    .catching (shrink 0x1000) caughtInfo 0, .function thrower],
    Record.empty.hand 0x2000 thrownInfo⟩ 0x400 0 ⟨0, 0, 0, 0, none, 0⟩
    ⟨by decide, by decide, by decide⟩ rfl
  have hsearch : Step (rethrowing (initCatchInfo ⟨0, 0, 0, 0, none, 0⟩ null none))
      (rethrowing linkedInfo) :=
    .search _ _ _ _ _ _ linkedInfo linkedInfo rfl ⟨rfl, rfl⟩
  exact (((((Relation.ReflTransGen.single hcall).tail hthrow).tail hland).tail hfunclet).tail
    hrethrow).tail hsearch

def destroyed : State :=
  ⟨[.finishing (shrink 0x400), .function thrower],
    ⟨[(0x2000, thrownInfo)], Function.update (fun _ => none) 0x2000 (some 0), [some 0]⟩⟩

theorem reach_destroyed : Reach destroyed := by
  have hskip := Step.skip 0x400 linkedInfo 0 handlerFunclet
    [.catching (shrink 0x1000) caughtInfo 0, .function thrower]
    (Record.empty.hand 0x2000 thrownInfo)
  have hpass := Step.pass 0x400 linkedInfo 0 (shrink 0x1000) caughtInfo 0 [.function thrower]
    (Record.empty.hand 0x2000 thrownInfo) caughtInfo [] rfl
  have hland := Step.land 0x400 caughtInfo 0 thrower [] (Record.empty.hand 0x2000 thrownInfo)
    thrownInfo caughtInfo rfl ⟨rfl, rfl⟩
  have hfinish : Step ⟨[.catching (shrink 0x400) caughtInfo 0, .function thrower],
      Record.empty.hand 0x2000 thrownInfo⟩ destroyed :=
    .finish (shrink 0x400) caughtInfo 0 [.function thrower] (Record.empty.hand 0x2000 thrownInfo)
  exact (((reach_rethrowing.tail hskip).tail hpass).tail hland).tail hfinish

theorem reach_safe_rethrown : Safe (rethrowing linkedInfo) ∧ Safe destroyed :=
  ⟨reach_safe reach_rethrowing, reach_safe reach_destroyed⟩

end Vcrtl.X64.Ownership

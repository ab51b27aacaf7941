import Vcrtl.X64.Steps

namespace Vcrtl.X64.Invariant

open Lib.Custody Lib.Links BugCheck EhStructs Throw CatchFrame Steps

def audible (ti : ThrowInfo) : Bool := ti.destroyExcObj != 0

/-- A frame lies somewhere, and a running handler knows its exception. -/
def Sound (c : Slot Ptr ThrowInfo) : Prop :=
  c.addr ≠ null ∧ (c.handling = true → c.ref ≠ null)

structure Inv (s : State) : Prop where
  kept : Kept audible (addrs (slots slot s.stack)) (owners (slots slot s.stack)) s.record
  direct : Direct null s.record (slots slot s.stack)
  sound : ∀ c ∈ slots slot s.stack, Sound c

theorem inv_initial : Inv .initial := ⟨kept_empty, trivial, by simp [State.initial, slots]⟩

@[simp] theorem slots_function (f : FunctionFrame) (stack : List Cell) :
    slots slot (.function f :: stack) = slots slot stack := rfl

@[simp] theorem slots_finishing (fp : Ptr) (stack : List Cell) :
    slots slot (.finishing fp :: stack) = slots slot stack := rfl

@[simp] theorem slots_throwing (tf : Ptr) (info : CatchInfo) (n : Nat) (stack : List Cell) :
    slots slot (.throwing tf info n :: stack) =
      ⟨throwInfoAddr tf, info.exceptionObjectOrLink, info.throwInfoIfOwner, n, false⟩ ::
        slots slot stack := rfl

@[simp] theorem slots_catching (fp : Ptr) (info : CatchInfo) (n : Nat) (stack : List Cell) :
    slots slot (.catching fp info n :: stack) =
      ⟨catchInfoAddr fp, info.exceptionObjectOrLink, info.throwInfoIfOwner, n, true⟩ ::
        slots slot stack := rfl

theorem catching_of_slot {c : Slot Ptr ThrowInfo} {stack : List Cell} (hc : c ∈ slots slot stack)
    (hh : c.handling = true) : ∃ fp info, .catching fp info c.subject ∈ stack ∧
      c = ⟨catchInfoAddr fp, info.exceptionObjectOrLink, info.throwInfoIfOwner, c.subject,
        true⟩ := by
  obtain ⟨cell, hm, hs⟩ := mem_slots.mp hc
  cases cell with
  | function f => cases hs
  | finishing fp => cases hs
  | throwing tf info n =>
    cases hs
    cases hh
  | catching fp info n =>
    cases hs
    exact ⟨fp, info, hm, rfl⟩

/-- The catch info of a cell that is or was throwing. -/
def catchInfo : Cell → Option CatchInfo
  | .throwing _ info _ | .catching _ info _ => some info
  | .function _ | .finishing _ => none

theorem infoAt_cell {stack : List Cell} (hn : (addrs (slots slot stack)).Nodup) {cell : Cell}
    {c : Slot Ptr ThrowInfo} {info : CatchInfo} (hm : cell ∈ stack) (hc : slot cell = some c)
    (hinfo : catchInfo cell = some info) : infoAt stack c.addr = some info := by
  induction stack with
  | nil => cases hm
  | cons first stack ih =>
    -- a cell further down has another address than the first one
    have hlater (hm : cell ∈ stack) : c.addr ∈ addrs (slots slot stack) :=
      List.mem_map.mpr ⟨c, mem_slots.mpr ⟨cell, hm, hc⟩, rfl⟩
    cases first with
    | function f | finishing fp =>
      obtain rfl | hm := List.mem_cons.mp hm
      · cases hc
      · exact ih hn hm
    | throwing tf info' n | catching fp info' n =>
      obtain ⟨hne, hn⟩ := List.nodup_cons.mp hn
      obtain rfl | hm := List.mem_cons.mp hm
      · cases hc
        cases hinfo
        exact if_pos rfl
      · have ha : _ ≠ c.addr := ne_of_mem_of_not_mem (hlater hm) hne |>.symm
        rw [infoAt, if_neg ha]
        exact ih hn hm

theorem infoAt_slot {stack : List Cell} (hn : (addrs (slots slot stack)).Nodup)
    {c : Slot Ptr ThrowInfo} (hc : c ∈ slots slot stack) :
    ∃ info, infoAt stack c.addr = some info ∧ info.exceptionObjectOrLink = c.ref ∧
      info.throwInfoIfOwner = c.info := by
  obtain ⟨cell, hm, hs⟩ := mem_slots.mp hc
  cases cell with
  | function f | finishing fp => cases hs
  | throwing tf info n | catching fp info n =>
    refine ⟨info, infoAt_cell hn hm hs rfl, ?_⟩
    cases hs
    exact ⟨rfl, rfl⟩

/-- A probe that returns has found the innermost running handler and links to
the owner it knows. -/
theorem probe_spec {stack : List Cell} {ci ci' : CatchInfo}
    (hsound : ∀ c ∈ slots slot stack, Sound c) (h0 : ci.exceptionObjectOrLink = null)
    (h : probeForExceptionObject (stack.map frame) ci = .ok ci') :
    ∃ funs fp info n rest, stack = funs ++ .catching fp info n :: rest ∧
      slots slot funs = [] ∧ info.exceptionObjectOrLink ≠ null ∧ ci' = { ci with
        exceptionObjectOrLink :=
          if info.throwInfoIfOwner.isSome then catchInfoAddr fp
          else info.exceptionObjectOrLink } := by
  induction stack with
  | nil => cases h
  | cons cell stack ih =>
    cases cell with
    | function f =>
      simp only [List.map_cons, frame, probeForExceptionObject, probeFrame, bind_ok, verify_ok,
        Except.ok.injEq] at h
      obtain ⟨-, rfl, -, -, h⟩ := h
      rw [if_neg (by simp [h0])] at h
      obtain ⟨funs, fp, info, n, rest, rfl, hf, hi, rfl⟩ := ih hsound h
      exact ⟨.function f :: funs, fp, info, n, rest, rfl, hf, hi, rfl⟩
    | throwing tf info n | finishing fp =>
      simp [frame, probeForExceptionObject, probeFrame, cxxSehFrameHandler, verify, onBugCheck,
        bind, Except.bind, pure, Except.pure] at h
    | catching fp info n =>
      have ha : catchInfoAddr fp ≠ null := (hsound _ (List.mem_cons_self ..)).1
      simp only [List.map_cons, frame, probeForExceptionObject, probeFrame, bind_ok, verify_ok,
        pure_ok, callCatch_probe] at h
      obtain ⟨_, ⟨_, ⟨hi, rfl⟩, rfl⟩, -, -, h⟩ := h
      have hne : (if info.throwInfoIfOwner.isSome then catchInfoAddr fp
          else info.exceptionObjectOrLink) ≠ null := by
        split <;> assumption
      rw [if_pos hne] at h
      cases h
      exact ⟨[], fp, info, n, stack, rfl, rfl, hi, rfl⟩

theorem objects_destroyed {ci : CatchInfo} {a : Ptr} {n : Nat} {b : Bool} :
    (cxxDestroyException ci).map DestroyCall.object =
      doomed audible ⟨a, ci.exceptionObjectOrLink, ci.throwInfoIfOwner, n, b⟩ := by
  apply eq_doomed
  · intro hi
    simp_all [cxxDestroyException]
  · intro ti hi
    by_cases hd : ti.destroyExcObj = 0 <;> simp_all [cxxDestroyException, audible]

theorem kept_finish {ci : CatchInfo} {a : Ptr} {n : Nat} {b : Bool} {as : List Ptr}
    {st : List (Slot Ptr ThrowInfo)} {r : Record Ptr ThrowInfo}
    (h : Kept audible as
      (owners (⟨a, ci.exceptionObjectOrLink, ci.throwInfoIfOwner, n, b⟩ :: st)) r) :
    Kept audible as (owners st) (destroyAll r (cxxDestroyException ci)) := by
  rw [destroyAll, objects_destroyed]
  exact kept_doomed h

theorem probe_owner {stack : List Cell} {r : Record Ptr ThrowInfo} {info : CatchInfo}
    {fp : Ptr} {n : Nat} {funs rest : List Cell} (hd : Direct null r (slots slot stack))
    (hs : stack = funs ++ .catching fp info n :: rest) (hf : slots slot funs = [])
    (hi : info.exceptionObjectOrLink ≠ null) :
    ∃ g ∈ slots slot stack, g.handling = true ∧
      g.addr = (if info.throwInfoIfOwner.isSome then catchInfoAddr fp
        else info.exceptionObjectOrLink) ∧
      g.info.isSome = true ∧ current (slots slot stack) = some g.subject := by
  subst hs
  rw [slots_append, hf, List.nil_append, slots_catching] at hd ⊢
  by_cases ho : info.throwInfoIfOwner.isSome
  · rw [if_pos ho]
    exact ⟨_, List.mem_cons_self, rfl, rfl, ho, rfl⟩
  · rw [if_neg ho]
    obtain ⟨h0, -⟩ | ⟨-, ⟨t, ht, -⟩ | ⟨-, k, hk, hh, ha, hko, hks⟩⟩ := hd.1
    · exact absurd h0 hi
    · exact absurd (Option.isSome_of_eq_some ht) ho
    · refine ⟨k, List.mem_cons_of_mem _ hk, hh, ha, hko, ?_⟩
      simp only [current, if_true, hks]

theorem resolve {s : State} (hi : Inv s) {c : Slot Ptr ThrowInfo} (hc : c ∈ slots slot s.stack)
    (hne : c.ref ≠ null) {info : CatchInfo} (hr : info.exceptionObjectOrLink = c.ref)
    (ht : info.throwInfoIfOwner = c.info) :
    ∃ o ti, s.record.thrown[c.subject]? = some (o, ti) ∧
      info.getThrowInfo (infoAt s.stack) = .ok (some ti) ∧
      info.getExceptionObject (infoAt s.stack) = .ok o ∧
      ∃ k ∈ slots slot s.stack, k.ref = o ∧ k.info = some ti := by
  obtain ⟨pre, st, hs⟩ := List.append_of_mem hc
  have hdir := hi.direct
  rw [hs] at hdir
  rw [← hr] at hne
  obtain ⟨h0, -⟩ | ⟨-, ⟨t, hct, hk⟩ | ⟨hn, k, hk, -, ha, ho, hks⟩⟩ := hdir.append.1
  · exact absurd (hr.trans h0) hne
  · exact ⟨c.ref, t, hk.2, getThrowInfo_owner hne (ht.trans hct),
      hr ▸ getExceptionObject_owner (ht.trans hct), c, hc, rfl, hct⟩
  · obtain ⟨t, hkt⟩ := Option.isSome_iff_exists.mp ho
    have hkm : k ∈ slots slot s.stack := by
      rw [hs]
      exact List.mem_append_right _ (List.mem_cons_of_mem _ hk)
    obtain ⟨other, hat, hor, hot⟩ := infoAt_slot hi.kept.addrs_nodup hkm
    rw [ha, ← hr] at hat
    refine ⟨k.ref, t, hks ▸ (hi.direct.owner hkm hkt).2.2, ?_, ?_, k, hkm, rfl, hkt⟩
    · rw [getThrowInfo_link hne (ht.trans hn) hat, hot, hkt]
    · rw [getExceptionObject_link hne (ht.trans hn) hat, hor]

theorem ensure_direct {s : State} {tf : Ptr} {info info' : CatchInfo} {n : Nat} {stack : List Cell}
    (hs : s.stack = .throwing tf info n :: stack) (hi : Inv s)
    (h : ensureThrowInfo (stack.map frame) (infoAt s.stack) info = .ok info') :
    info'.throwInfoIfOwner = info.throwInfoIfOwner ∧
      (info.throwInfoIfOwner = none ∨ info'.exceptionObjectOrLink = info.exceptionObjectOrLink) ∧
      info'.exceptionObjectOrLink ≠ null ∧
      Direct null s.record (⟨throwInfoAddr tf, info'.exceptionObjectOrLink,
        info.throwInfoIfOwner, n, false⟩ :: slots slot stack) := by
  have hdir := hi.direct
  have hsound := hi.sound
  have hmem : (⟨throwInfoAddr tf, info.exceptionObjectOrLink, info.throwInfoIfOwner, n, false⟩ :
      Slot Ptr ThrowInfo) ∈ slots slot s.stack := by
    rw [hs]
    exact List.mem_cons_self
  simp only [ensureThrowInfo, bind_ok] at h
  obtain ⟨throwInfo, hget, h⟩ := h
  by_cases h0 : info.exceptionObjectOrLink = null
  · rw [getThrowInfo_null h0] at hget
    cases hget
    rw [hs, slots_throwing] at hdir hsound
    obtain ⟨funs, fp, frameInfo, m, rest, hst, hf, hfi, rfl⟩ :=
      probe_spec (fun c hc => hsound c (List.mem_cons_of_mem _ hc)) h0 h
    obtain ⟨g, hg, hh, ha, ho, hcur⟩ := probe_owner hdir.2 hst hf hfi
    have hc : info.throwInfoIfOwner = none := by
      obtain ⟨-, hc, -⟩ | ⟨hne, -⟩ := hdir.1
      · exact hc
      · exact absurd h0 hne
    have hp := (hsound g (List.mem_cons_of_mem _ hg)).1
    rw [ha] at hp
    exact ⟨rfl, .inl hc, hp, hdir.link h0 hp ⟨g, hg, hh, ha, ho, hcur⟩⟩
  · obtain ⟨o, ti, -, hti, -⟩ := resolve hi hmem h0 rfl rfl
    rw [hti] at hget
    cases hget
    cases h
    rw [hs, slots_throwing] at hdir
    exact ⟨rfl, .inr rfl, h0, hdir⟩

theorem throwNew_inv {s : State} {tf obj : Ptr} {ti : ThrowInfo} {uninit : CatchInfo} (hi : Inv s)
    (hframe : Fresh s (throwInfoAddr tf)) (hobj : Fresh s obj) (hne : obj ≠ throwInfoAddr tf) :
    Inv ⟨.throwing tf (initCatchInfo uninit obj (some ti)) s.record.thrown.length :: s.stack,
      s.record.hand obj ti⟩ := by
  refine ⟨?_, ⟨.inr ⟨hobj.1, .inl ⟨ti, rfl, has_hand⟩⟩, hi.direct.hand hobj.2.2⟩,
    List.forall_mem_cons.mpr ⟨⟨hframe.1, fun h => nomatch h⟩, hi.sound⟩⟩
  exact hi.kept.arrive hframe.2.1 hframe.2.2 hobj.2.1 hobj.2.2 hne

theorem rethrow_inv {s : State} {tf : Ptr} {n : Nat} {uninit : CatchInfo} (hi : Inv s)
    (hframe : Fresh s (throwInfoAddr tf)) (hlive : current (slots slot s.stack) = some n) :
    Inv ⟨.throwing tf (initCatchInfo uninit null none) n :: s.stack, s.record⟩ := by
  exact ⟨hi.kept.enter hframe.2.1 hframe.2.2, ⟨.inl ⟨rfl, rfl, hlive⟩, hi.direct⟩,
    List.forall_mem_cons.mpr ⟨⟨hframe.1, fun h => nomatch h⟩, hi.sound⟩⟩

theorem search_inv {tf : Ptr} {info info' info'' : CatchInfo} {n : Nat} {stack : List Cell}
    {r : Record Ptr ThrowInfo} (hi : Inv ⟨.throwing tf info n :: stack, r⟩)
    (h : ensureThrowInfo (stack.map frame) (infoAt (.throwing tf info n :: stack)) info = .ok info')
    (hsame : SameException info'' info') : Inv ⟨.throwing tf info'' n :: stack, r⟩ := by
  obtain ⟨hti, hobj, -, hdir⟩ := ensure_direct (s := ⟨.throwing tf info n :: stack, r⟩) rfl hi h
  have hti' : info''.throwInfoIfOwner = info.throwInfoIfOwner := hsame.2.trans hti
  obtain ⟨hc, hrest⟩ := List.forall_mem_cons.mp hi.sound
  refine ⟨?_, ?_, List.forall_mem_cons.mpr ⟨⟨hc.1, fun h => nomatch h⟩, hrest⟩⟩
  · have hk := hi.kept
    simp only [slots_throwing, hti', hsame.1]
    obtain hn | hobj := hobj
    · apply hk.perm (.refl _)
      apply List.Perm.of_eq
      rw [slots_throwing, owners_cons_none hn, owners_cons_none hn]
    · rw [hobj]
      exact hk
  · simp only [slots_throwing, hti', hsame.1]
    exact hdir

theorem land_inv {tf : Ptr} {info info' : CatchInfo} {n : Nat} {f : FunctionFrame}
    {stack : List Cell} {r : Record Ptr ThrowInfo} {ti : ThrowInfo}
    (hi : Inv ⟨.throwing tf info n :: .function f :: stack, r⟩)
    (h : info.getThrowInfo (infoAt (.throwing tf info n :: .function f :: stack)) = .ok (some ti))
    (hsame : SameException info' info) :
    Inv ⟨.catching (shrink tf) info' n :: .function f :: stack, r⟩ := by
  have hne : info.exceptionObjectOrLink ≠ null := by
    intro h0
    rw [getThrowInfo_null h0] at h
    cases h
  have hslots : slots slot (.catching (shrink tf) info' n :: .function f :: stack) =
      ⟨throwInfoAddr tf, info.exceptionObjectOrLink, info.throwInfoIfOwner, n, true⟩ ::
        slots slot stack := by
    rw [slots_catching, catchInfoAddr_shrink, hsame.1, hsame.2, slots_function]
  obtain ⟨hc, hrest⟩ := List.forall_mem_cons.mp hi.sound
  refine ⟨?_, ?_, ?_⟩ <;> simp only [hslots]
  · exact hi.kept
  · exact hi.direct
  · exact List.forall_mem_cons.mpr ⟨⟨hc.1, fun _ => hne⟩, hrest⟩

theorem pass_inv {tf fp : Ptr} {info info' ci : CatchInfo} {n m : Nat} {stack : List Cell}
    {r : Record Ptr ThrowInfo} {calls : List DestroyCall}
    (hi : Inv ⟨.throwing tf info n :: .catching fp ci m :: stack, r⟩)
    (h : cxxCallCatchFrameHandler none fp ci .unwind info = .ok (.cxxHandler, info', calls)) :
    Inv ⟨.throwing tf info' n :: stack, destroyAll r calls⟩ := by
  have hsub : (addrs (slots slot (.throwing tf info' n :: stack))).Sublist
      (addrs (slots slot (.throwing tf info n :: .catching fp ci m :: stack))) :=
    .cons_cons _ (.cons _ (.refl _))
  obtain ⟨hc, hrest⟩ := List.forall_mem_cons.mp hi.sound
  obtain ⟨hg, hrest⟩ := List.forall_mem_cons.mp hrest
  have hsound : ∀ c ∈ slots slot (.throwing tf info' n :: stack), Sound c :=
    List.forall_mem_cons.mpr ⟨⟨hc.1, fun h => nomatch h⟩, hrest⟩
  -- an owner waits for no frame: no object lies at the address of one
  have howner : ∀ t, info.throwInfoIfOwner = some t → ¬ (info.exceptionObjectOrLink = null ∨
      info.exceptionObjectOrLink = catchInfoAddr fp) := by
    rintro t ht (h0 | ha)
    · exact (hi.direct.owner (List.mem_cons_self ..) ht).1 h0
    · apply hi.kept.apart (catchInfoAddr fp) (by simp [addrs])
      rw [← ha]
      exact List.mem_map.mpr ⟨(_, t), mem_owners.mpr ⟨_, List.mem_cons_self .., rfl, ht⟩, rfl⟩
  by_cases ht : info.exceptionObjectOrLink = null ∨
      info.exceptionObjectOrLink = catchInfoAddr fp
  · have hnone : info.throwInfoIfOwner = none :=
      Option.eq_none_iff_forall_ne_some.mpr fun t he => howner t he ht
    rw [callCatch_take ht] at h
    cases h
    refine ⟨hi.kept.perm hsub (.of_eq ?_),
      hi.direct.take hi.kept.addrs_nodup hnone ht rfl, hsound⟩
    exact owners_cons_none hnone
  · rw [callCatch_drop ht] at h
    cases h
    rw [not_or] at ht
    refine ⟨kept_finish (hi.kept.perm hsub (owners_swap _ _ _)), ?_, hsound⟩
    exact (hi.direct.drop rfl (fun _ => ht.2) fun h0 => absurd h0 ht.1).destroyAll

theorem finish_inv {fp : Ptr} {ci : CatchInfo} {n : Nat} {stack : List Cell}
    {r : Record Ptr ThrowInfo} (hi : Inv ⟨.catching fp ci n :: stack, r⟩) :
    Inv ⟨.finishing fp :: stack, destroyAll r (cxxDestroyException ci)⟩ := by
  exact ⟨kept_finish (hi.kept.perm (.cons _ (.refl _)) (.refl _)), hi.direct.2.destroyAll,
    (List.forall_mem_cons.mp hi.sound).2⟩

theorem step_inv {s t : State} (h : Step s t) (hi : Inv s) : Inv t := by
  cases h with
  | call | ret | resume => exact ⟨hi.kept, hi.direct, hi.sound⟩
  | throwNew _ _ _ _ _ hframe hobj hne => exact throwNew_inv hi hframe hobj hne
  | rethrow _ _ _ _ hframe hlive => exact rethrow_inv hi hframe hlive
  | search _ _ _ _ _ _ _ _ h hsame => exact search_inv hi h hsame
  | skip => exact ⟨hi.kept, hi.direct, hi.sound⟩
  | land _ _ _ _ _ _ _ _ h hsame => exact land_inv hi h hsame
  | pass _ _ _ _ _ _ _ _ _ _ h => exact pass_inv hi h
  | finish => exact finish_inv hi

theorem reach_inv {s : State} (h : Reach s) : Inv s := by
  induction h with
  | refl => exact inv_initial
  | tail _ hst ih => exact step_inv hst ih

end Vcrtl.X64.Invariant

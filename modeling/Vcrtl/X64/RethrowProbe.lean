import Vcrtl.X64.Dispatch
import Vcrtl.X64.HandlerMap
import Vcrtl.X64.Ownership
import Vcrtl.X64.ProbeLoop

namespace Vcrtl.X64.RethrowProbe

open BugCheck EhStructs Throw CatchFrame Steps DispatcherContext

/-- What the handler search in one frame does to the throw: it may probe, and it
may write what is not about the exception. -/
structure Search where
  probes : Bool
  writes : CatchInfo → CatchInfo
  same : ∀ ci, SameException (writes ci) ci

def noSearch : Search := ⟨false, id, fun _ => ⟨rfl, rfl⟩⟩

structure Passed where
  exceptionObjectOrLink : Ptr
  throwInfoIfOwner : Option ThrowInfo
  primaryFramePtr : Ptr
  unwindContext : BitVec 64
  destroyed : List DestroyCall
  deriving DecidableEq

def passed (ci : CatchInfo) (calls : List DestroyCall) : Passed :=
  ⟨ci.exceptionObjectOrLink, ci.throwInfoIfOwner, ci.primaryFramePtr, ci.unwindContext, calls⟩

section

variable (infoAt : InfoAt)

def Search.run (s : Search) (frames : List Frame) (ci : CatchInfo) : Exec CatchInfo := do
  let ci ← if s.probes then ensureThrowInfo frames infoAt ci else .ok ci
  return s.writes ci

/-- The walk over some frames below the others. There is a search in each function's frame. -/
def walk (above : List Frame) :
    (Nat → Search) → List Frame → CatchInfo → Exec (List Passed × CatchInfo)
  | _, [], ci => .ok ([], ci)
  | choice, .function f :: below, ci => do
    let ci ← (choice 0).run infoAt (.function f :: (below ++ above)) ci
    walk above (fun n => choice (n + 1)) below ci
  | choice, .callCatch framePtr info :: below, ci => do
    let (disposition, ci, calls) ← cxxCallCatchFrameHandler none framePtr info .unwind ci
    verify (disposition = .cxxHandler)
    let (seen, last) ← walk above (fun n => choice (n + 1)) below ci
    return (passed ci calls :: seen, last)
  | choice, .seh :: below, ci => do
    let disposition ← cxxSehFrameHandler none
    verify (disposition = .cxxHandler)
    walk above (fun n => choice (n + 1)) below ci

/-- Every catch frame owns its exception or links to a frame further up that does. -/
def Owned : List Frame → Prop
  | [] => True
  | .callCatch framePtr info :: rest =>
    (catchInfoAddr framePtr ≠ null ∧ infoAt (catchInfoAddr framePtr) = some info ∧
      info.exceptionObjectOrLink ≠ null ∧
      (info.throwInfoIfOwner.isSome = true ∨ ∃ framePtr' info', .callCatch framePtr' info' ∈ rest ∧
        info.exceptionObjectOrLink = catchInfoAddr framePtr' ∧
        info'.throwInfoIfOwner.isSome = true)) ∧ Owned rest
  | .function _ :: rest | .seh :: rest => Owned rest

end

variable {infoAt : InfoAt} {choice choice' : Nat → Search} {above below frames : List Frame}
  {ci ci' info : CatchInfo} {framePtr : Ptr}

def Known (infoAt : InfoAt) (ci : CatchInfo) : Prop :=
  ∃ ti, ci.getThrowInfo infoAt = .ok (some ti)

theorem getThrowInfo_congr (h : SameException ci ci') :
    ci.getThrowInfo infoAt = ci'.getThrowInfo infoAt := by
  rw [CatchInfo.getThrowInfo, CatchInfo.getThrowInfo, h.1, h.2]

theorem Known.congr (hknown : Known infoAt ci) (h : SameException ci' ci) : Known infoAt ci' := by
  obtain ⟨ti, hti⟩ := hknown
  exact ⟨ti, (getThrowInfo_congr h).trans hti⟩

theorem owned_mem (h : Owned infoAt frames) (hmem : .callCatch framePtr info ∈ frames) :
    infoAt (catchInfoAddr framePtr) = some info ∧ info.exceptionObjectOrLink ≠ null := by
  induction frames with
  | nil => cases hmem
  | cons frame rest ih =>
    obtain heq | hrest := List.mem_cons.mp hmem
    · subst heq
      exact ⟨h.1.2.1, h.1.2.2.1⟩
    · cases frame with
      | function f | seh => exact ih h hrest
      | callCatch framePtr' info' => exact ih h.2 hrest

theorem owned_known (h : Owned infoAt (.callCatch framePtr info :: below)) :
    Known infoAt info := by
  obtain ⟨⟨-, -, hne, howner | ⟨framePtr', info', hmem, hlink, howner⟩⟩, hrest⟩ := h
  · obtain ⟨ti, hti⟩ := Option.isSome_iff_exists.mp howner
    exact ⟨ti, getThrowInfo_owner hne hti⟩
  · cases hinfo : info.throwInfoIfOwner with
    | some ti => exact ⟨ti, getThrowInfo_owner hne hinfo⟩
    | none =>
      obtain ⟨ti, hti⟩ := Option.isSome_iff_exists.mp howner
      refine ⟨ti, ?_⟩
      rw [getThrowInfo_link hne hinfo (hlink ▸ (owned_mem hrest hmem).1), hti]

theorem run_known (s : Search) (frames : List Frame) (hknown : Known infoAt ci) :
    s.run infoAt frames ci = .ok (s.writes ci) := by
  obtain ⟨ti, hti⟩ := hknown
  rw [Search.run]
  split
  · simp only [ensureThrowInfo, hti, bind, Except.bind, Option.isNone_some, Bool.false_eq_true,
      if_false, pure, Except.pure]
  · rfl

theorem sameException_symm {a b : CatchInfo} (h : SameException a b) : SameException b a :=
  ⟨h.1.symm, h.2.symm⟩

theorem sameException_trans {a b c : CatchInfo} (h : SameException a b) (h' : SameException b c) :
    SameException a c :=
  ⟨h.1.trans h'.1, h.2.trans h'.2⟩

theorem callCatch_congr (framePtr : Ptr) (info : CatchInfo) (h : SameException ci ci') :
    ∃ after after' calls,
    cxxCallCatchFrameHandler none framePtr info .unwind ci = .ok (.cxxHandler, after, calls) ∧
    cxxCallCatchFrameHandler none framePtr info .unwind ci' = .ok (.cxxHandler, after', calls) ∧
    SameException after after' ∧ passed after calls = passed after' calls ∧
    (SameException after ci ∨ SameException after info) := by
  by_cases htake : ci.exceptionObjectOrLink = null ∨
      ci.exceptionObjectOrLink = catchInfoAddr framePtr
  · have htake' := htake
    rw [h.1] at htake'
    exact ⟨_, _, _, callCatch_take htake, callCatch_take htake', ⟨rfl, rfl⟩, rfl, .inr ⟨rfl, rfl⟩⟩
  · have htake' := htake
    rw [h.1] at htake'
    refine ⟨_, _, _, callCatch_drop htake, callCatch_drop htake', h, ?_, .inl ⟨rfl, rfl⟩⟩
    simp only [passed, h.1, h.2]

theorem cons_congr {α β : Type} {a : α} {x y : Exec (List α × β)}
    (h : Prod.fst <$> x = Prod.fst <$> y) :
    Prod.fst <$> (do
      let (seen, last) ← x
      return (a :: seen, last)) =
    Prod.fst <$> (do
      let (seen, last) ← y
      return (a :: seen, last)) := by
  cases x with
  | error e =>
    cases y with
    | error e' =>
      cases h
      rfl
    | ok y => cases h
  | ok x =>
    cases y with
    | error e' => cases h
    | ok y =>
      have hseen : x.1 = y.1 := Except.ok.inj h
      simp only [bind, Except.bind, pure, Except.pure, Functor.map, Except.map, hseen]

theorem walk_known (howned : Owned infoAt (below ++ above)) (hknown : Known infoAt ci)
    (h : SameException ci ci') :
    Prod.fst <$> walk infoAt above choice below ci =
      Prod.fst <$> walk infoAt above choice' below ci' := by
  induction below generalizing choice choice' ci ci' with
  | nil => rfl
  | cons frame below ih =>
    cases frame with
    | seh => rfl
    | function f =>
      have hknown' := hknown.congr (sameException_symm h)
      simp only [walk, run_known _ _ hknown, run_known _ _ hknown', bind, Except.bind]
      apply ih howned
      · exact hknown.congr ((choice _).same ci)
      · exact sameException_trans (sameException_trans ((choice _).same ci) h)
          (sameException_symm ((choice' _).same ci'))
    | callCatch framePtr info =>
      obtain ⟨after, after', calls, hci, hci', hsame, hpassed, hfrom⟩ :=
        callCatch_congr framePtr info h
      have hnext : Known infoAt after := by
        obtain hfrom | hfrom := hfrom
        · exact hknown.congr hfrom
        · exact (owned_known howned).congr hfrom
      have hrest : Prod.fst <$> walk infoAt above (fun n => choice (n + 1)) below after =
          Prod.fst <$> walk infoAt above (fun n => choice' (n + 1)) below after' :=
        ih howned.2 hnext hsame
      simp only [walk, hci, hci', bind, Except.bind, verify, if_true, hpassed]
      exact cons_congr hrest

def linkTo (framePtr : Ptr) (info : CatchInfo) : Ptr :=
  if info.throwInfoIfOwner.isSome then catchInfoAddr framePtr else info.exceptionObjectOrLink

/-- A rethrow that has not come to the first catch frame yet has nothing, or the link that a
probe has found there. -/
def Waiting (framePtr : Ptr) (info ci : CatchInfo) : Prop :=
  ci.throwInfoIfOwner = none ∧
    (ci.exceptionObjectOrLink = null ∨ ci.exceptionObjectOrLink = linkTo framePtr info)

theorem linkTo_ne_null (howned : Owned infoAt (.callCatch framePtr info :: above)) :
    linkTo framePtr info ≠ null := by
  rw [linkTo]
  split
  · exact howned.1.1
  · exact howned.1.2.2.1

theorem linkTo_known (howned : Owned infoAt (.callCatch framePtr info :: above))
    (hci : ci.throwInfoIfOwner = none) (hlink : ci.exceptionObjectOrLink = linkTo framePtr info) :
    Known infoAt ci := by
  have hne : ci.exceptionObjectOrLink ≠ null := hlink ▸ linkTo_ne_null howned
  obtain ⟨ti, hti⟩ := owned_known howned
  cases hinfo : info.throwInfoIfOwner with
  | some ti =>
    have haddr : ci.exceptionObjectOrLink = catchInfoAddr framePtr := by
      rw [hlink, linkTo, hinfo]
      rfl
    refine ⟨ti, ?_⟩
    rw [getThrowInfo_link hne hci (haddr ▸ howned.1.2.1), hinfo]
  | none =>
    have hsame : SameException ci info := by
      refine ⟨?_, hci.trans hinfo.symm⟩
      rw [hlink, linkTo, hinfo]
      rfl
    exact ⟨ti, (getThrowInfo_congr hsame).trans hti⟩

theorem probe_functions {funs : List Frame} (hfuns : ∀ x ∈ funs, ∃ f, x = .function f)
    (howned : Owned infoAt (.callCatch framePtr info :: above))
    (hci : ci.exceptionObjectOrLink = null) :
    probeForExceptionObject (funs ++ .callCatch framePtr info :: above) ci =
      .ok { ci with exceptionObjectOrLink := linkTo framePtr info } := by
  induction funs with
  | nil =>
    have hprobe := (@callCatch_probe framePtr info ci _).mpr ⟨howned.1.2.2.1, rfl⟩
    have hne : (if info.throwInfoIfOwner.isSome then catchInfoAddr framePtr
        else info.exceptionObjectOrLink) ≠ null := linkTo_ne_null howned
    simp only [List.nil_append, probeForExceptionObject, probeFrame, hprobe, bind, Except.bind,
      pure, Except.pure, verify, if_true, if_pos hne, linkTo]
  | cons frame funs ih =>
    obtain ⟨f, rfl⟩ := hfuns frame List.mem_cons_self
    simp only [List.cons_append, probeForExceptionObject, probeFrame, bind, Except.bind, verify,
      if_true, hci, ne_eq, not_true_eq_false, if_false]
    exact ih fun x hx => hfuns x (List.mem_cons_of_mem _ hx)

theorem run_waiting {funs : List Frame} (s : Search) (hfuns : ∀ x ∈ funs, ∃ f, x = .function f)
    (howned : Owned infoAt (.callCatch framePtr info :: above))
    (hwaiting : Waiting framePtr info ci) :
    ∃ ci', s.run infoAt (funs ++ .callCatch framePtr info :: above) ci = .ok ci' ∧
      Waiting framePtr info ci' := by
  obtain ⟨hnone, hci | hci⟩ := hwaiting
  · cases hprobes : s.probes with
    | false =>
      refine ⟨s.writes ci, ?_, ?_⟩
      · simp only [Search.run, hprobes, Bool.false_eq_true, if_false, bind, Except.bind, pure,
          Except.pure]
      · exact ⟨(s.same ci).2.trans hnone, .inl ((s.same ci).1.trans hci)⟩
    | true =>
      refine ⟨s.writes { ci with exceptionObjectOrLink := linkTo framePtr info }, ?_, ?_⟩
      · simp only [Search.run, hprobes, if_true, ensureThrowInfo, getThrowInfo_null hci, bind,
          Except.bind, Option.isNone_none, probe_functions hfuns howned hci, pure, Except.pure]
      · exact ⟨(s.same _).2.trans hnone, .inr (s.same _).1⟩
  · exact ⟨_, run_known s _ (linkTo_known howned hnone hci), (s.same ci).2.trans hnone,
      .inr ((s.same ci).1.trans hci)⟩

theorem callCatch_waiting (hwaiting : Waiting framePtr info ci) : ∃ after,
    cxxCallCatchFrameHandler none framePtr info .unwind ci = .ok (.cxxHandler, after, []) ∧
    SameException after info ∧ after.primaryFramePtr = info.primaryFramePtr ∧
    after.unwindContext = info.unwindContext := by
  obtain ⟨hnone, hci⟩ := hwaiting
  by_cases htake : ci.exceptionObjectOrLink = null ∨
      ci.exceptionObjectOrLink = catchInfoAddr framePtr
  · exact ⟨_, callCatch_take htake, ⟨rfl, rfl⟩, rfl, rfl⟩
  · rw [not_or] at htake
    have hlink := hci.resolve_left htake.1
    cases hinfo : info.throwInfoIfOwner with
    | some ti =>
      rw [linkTo, hinfo] at hlink
      exact absurd hlink htake.2
    | none =>
      have hcalls : cxxDestroyException info = [] := by rw [cxxDestroyException, hinfo]
      have hdrop := @callCatch_drop framePtr info ci (not_or.mpr htake)
      rw [hcalls] at hdrop
      rw [linkTo, hinfo] at hlink
      exact ⟨_, hdrop, ⟨hlink, hnone.trans hinfo.symm⟩, rfl, rfl⟩

theorem passed_congr {after after' : CatchInfo} (h : SameException after info)
    (h' : SameException after' info) (hprimary : after.primaryFramePtr = after'.primaryFramePtr)
    (hcontext : after.unwindContext = after'.unwindContext) (calls : List DestroyCall) :
    passed after calls = passed after' calls := by
  simp only [passed, h.1, h.2, h'.1, h'.2, hprimary, hcontext]

/-- A walk that starts as a rethrow leaves the same behind it, whichever searches probe. -/
theorem walk_waiting {funs rest : List Frame} (hstack : below ++ rest = funs ++
      .callCatch framePtr info :: above) (hfuns : ∀ x ∈ funs, ∃ f, x = .function f)
    (howned : Owned infoAt (.callCatch framePtr info :: above))
    (hwaiting : Waiting framePtr info ci) (hwaiting' : Waiting framePtr info ci') :
    Prod.fst <$> walk infoAt rest choice below ci =
      Prod.fst <$> walk infoAt rest choice' below ci' := by
  induction funs generalizing below choice choice' ci ci' with
  | nil =>
    cases below with
    | nil => rfl
    | cons frame below =>
      obtain ⟨rfl, rfl⟩ := List.cons.inj hstack
      obtain ⟨after, hpass, hsame, hprimary, hcontext⟩ := callCatch_waiting hwaiting
      obtain ⟨after', hpass', hsame', hprimary', hcontext'⟩ := callCatch_waiting hwaiting'
      have hrest : Prod.fst <$> walk infoAt rest (fun n => choice (n + 1)) below after =
          Prod.fst <$> walk infoAt rest (fun n => choice' (n + 1)) below after' :=
        walk_known howned.2 ((owned_known howned).congr hsame)
          (sameException_trans hsame (sameException_symm hsame'))
      have hpassed := passed_congr hsame hsame' (hprimary.trans hprimary'.symm)
        (hcontext.trans hcontext'.symm) []
      simp only [walk, hpass, hpass', bind, Except.bind, verify, if_true, hpassed]
      exact cons_congr hrest
  | cons frame funs ih =>
    cases below with
    | nil => rfl
    | cons frame' below =>
      have htail : below ++ rest = funs ++ .callCatch framePtr info :: above :=
        (List.cons.inj hstack).2
      obtain rfl := (List.cons.inj hstack).1
      obtain ⟨f, rfl⟩ := hfuns frame' List.mem_cons_self
      obtain ⟨ci₁, hrun, hwaiting₁⟩ := run_waiting (choice 0) hfuns howned hwaiting
      obtain ⟨ci₁', hrun', hwaiting₁'⟩ := run_waiting (choice' 0) hfuns howned hwaiting'
      rw [List.cons_append, ← htail] at hrun hrun'
      simp only [walk, hrun, hrun', bind, Except.bind]
      exact ih htail (fun x hx => hfuns x (List.mem_cons_of_mem _ hx)) hwaiting₁ hwaiting₁'

theorem functions_or (frames : List Frame) : (∀ x ∈ frames, ∃ f, x = .function f) ∨
    ∃ funs frame tail, frames = funs ++ frame :: tail ∧ (∀ x ∈ funs, ∃ f, x = .function f) ∧
      (frame = .seh ∨ ∃ framePtr info, frame = .callCatch framePtr info) := by
  induction frames with
  | nil => exact .inl (by simp)
  | cons frame frames ih =>
    cases frame with
    | seh => exact .inr ⟨[], .seh, frames, rfl, by simp, .inl rfl⟩
    | callCatch framePtr info => exact .inr ⟨[], _, frames, rfl, by simp, .inr ⟨_, _, rfl⟩⟩
    | function f =>
      obtain hall | ⟨funs, frame, tail, rfl, hfuns, hframe⟩ := ih
      · exact .inl (List.forall_mem_cons.mpr ⟨⟨f, rfl⟩, hall⟩)
      · exact .inr ⟨.function f :: funs, frame, tail, rfl,
          List.forall_mem_cons.mpr ⟨⟨f, rfl⟩, hfuns⟩, hframe⟩

theorem walk_functions {x : List Passed × CatchInfo}
    (hbelow : ∀ x ∈ below, ∃ f, x = .function f)
    (h : walk infoAt above choice below ci = .ok x) : x.1 = [] := by
  induction below generalizing choice ci with
  | nil =>
    cases h
    rfl
  | cons frame below ih =>
    obtain ⟨⟨f, rfl⟩, hrest⟩ := List.forall_mem_cons.mp hbelow
    simp only [walk, bind_ok] at h
    obtain ⟨ci₁, -, h⟩ := h
    exact ih hrest h

theorem walk_seh {x : List Passed × CatchInfo} {funs tail : List Frame}
    (hfuns : ∀ x ∈ funs, ∃ f, x = .function f) :
    walk infoAt above choice (funs ++ .seh :: tail) ci ≠ .ok x := by
  induction funs generalizing choice ci with
  | nil =>
    intro h
    cases h
  | cons frame funs ih =>
    obtain ⟨⟨f, rfl⟩, hrest⟩ := List.forall_mem_cons.mp hfuns
    intro h
    simp only [List.cons_append, walk, bind_ok] at h
    obtain ⟨ci₁, -, h⟩ := h
    exact ih hrest h

theorem Owned.append {pre : List Frame} (h : Owned infoAt (pre ++ frames)) :
    Owned infoAt frames := by
  induction pre with
  | nil => exact h
  | cons frame pre ih =>
    cases frame with
    | function f | seh => exact ih h
    | callCatch framePtr info => exact ih h.2

theorem walk_seen {rest : List Frame} {x x' : List Passed × CatchInfo}
    (howned : Owned infoAt (below ++ rest)) (hlink : ci.exceptionObjectOrLink = null)
    (hinfo : ci.throwInfoIfOwner = none) (h : walk infoAt rest choice below ci = .ok x)
    (h' : walk infoAt rest choice' below ci = .ok x') : x.1 = x'.1 := by
  obtain hall | ⟨funs, frame, tail, rfl, hfuns, rfl | ⟨framePtr, info, rfl⟩⟩ := functions_or below
  · rw [walk_functions hall h, walk_functions hall h']
  · exact absurd h (walk_seh hfuns)
  · have hstack : funs ++ .callCatch framePtr info :: tail ++ rest =
        funs ++ .callCatch framePtr info :: (tail ++ rest) := by
      rw [List.append_assoc, List.cons_append]
    rw [hstack] at howned
    have hsame : Prod.fst <$> walk infoAt rest choice _ ci =
        Prod.fst <$> walk infoAt rest choice' _ ci :=
      walk_waiting hstack hfuns howned.append ⟨hinfo, .inl hlink⟩ ⟨hinfo, .inl hlink⟩
    rw [h, h'] at hsame
    exact Except.ok.inj hsame

section

open CatchVariable HandlerMap

variable {env : Env} {d d' : Dispatch} {primaryFramePtr : Ptr}

def Settled (infoAt : InfoAt) (frames : List Frame) (ci : CatchInfo) : Prop :=
  ∀ throwInfo x, ci.getThrowInfo infoAt = .ok throwInfo →
    probeUnless infoAt frames throwInfo ci = .ok x → x.2.isSome = true

def Searched (infoAt : InfoAt) (frames : List Frame) (throwInfo : Option ThrowInfo)
    (ci after : CatchInfo) : Prop :=
  SameException after ci ∨
    ∃ x, probeUnless infoAt frames throwInfo ci = .ok x ∧ SameException after x.1

theorem probeUnless_some {x : CatchInfo × Option ThrowInfo} {throwInfo : Option ThrowInfo}
    (hsome : throwInfo.isSome = true)
    (h : probeUnless infoAt frames throwInfo ci = .ok x) : x = (ci, throwInfo) := by
  obtain ⟨ti, rfl⟩ := Option.isSome_iff_exists.mp hsome
  cases h
  rfl

theorem Searched.settled {ci₁ after : CatchInfo} {throwInfo throwInfo₁ : Option ThrowInfo}
    {x : CatchInfo × Option ThrowInfo} (hprobe : probeUnless infoAt frames throwInfo ci = .ok x)
    (hsome : throwInfo₁.isSome = true) (hsame : SameException ci₁ x.1)
    (h : Searched infoAt frames throwInfo₁ ci₁ after) :
    Searched infoAt frames throwInfo ci after := by
  obtain h | ⟨y, hy, h⟩ := h
  · exact .inr ⟨x, hprobe, sameException_trans h hsame⟩
  · obtain rfl := probeUnless_some hsome hy
    exact .inr ⟨x, hprobe, sameException_trans h hsame⟩

theorem fh3_matchTryBlocks_searched {entry : Fh3.Entry} {ts : List TryBlock}
    {throwInfo : Option ThrowInfo} {s : World 64} {r : Fh3.Search}
    (hsettled : ∀ x, probeUnless env.infoAt frames throwInfo ci = .ok x → x.2.isSome = true)
    (hr : Fh3.matchTryBlocks env frames entry ts ci throwInfo s = .ok r) :
    Searched env.infoAt frames throwInfo ci r.catchInfo := by
  induction ts generalizing ci throwInfo s with
  | nil =>
    cases hr
    exact .inl ⟨rfl, rfl⟩
  | cons t ts ih =>
    rw [Fh3.matchTryBlocks] at hr
    split at hr
    · simp only [bind_ok] at hr
      obtain ⟨⟨ci₁, throwInfo₁⟩, hprobe, ⟨handler, s'⟩, -, hr⟩ := hr
      have hsome := hsettled _ hprobe
      cases handler with
      | some h =>
        cases hr
        exact .inr ⟨_, hprobe, rfl, rfl⟩
      | none =>
        have hrest := ih (fun x hx => by rw [probeUnless_some hsome hx]; exact hsome) hr
        exact hrest.settled hprobe hsome ⟨rfl, rfl⟩
    · exact ih hsettled hr

theorem setContinuationAddress_same {addresses : List Ptr}
    (h : Fh4.setContinuationAddress ci addresses = .ok ci') : SameException ci' ci := by
  rw [Fh4.setContinuationAddress.eq_def] at h
  split at h
  · cases h
    exact ⟨rfl, rfl⟩
  · cases h
    exact ⟨rfl, rfl⟩
  · cases h
    exact ⟨rfl, rfl⟩
  · cases h

theorem takeHandlers_same {throwInfo : Option ThrowInfo} {tryLow : BitVec 32}
    {blocks : List Fh4.CatchBlock} {found : Bool}
    (hr : takeHandlers env primaryFramePtr throwInfo tryLow blocks d = .ok (d', found)) :
    SameException d'.catchInfo d.catchInfo := by
  induction blocks generalizing d with
  | nil =>
    cases hr
    exact ⟨rfl, rfl⟩
  | cons b blocks ih =>
    simp only [takeHandlers, bind_ok] at hr
    obtain ⟨ci, hset, object, -, ⟨taken, s⟩, -, hr⟩ := hr
    have hsame := setContinuationAddress_same hset
    cases taken with
    | true =>
      cases hr
      exact hsame
    | false => exact sameException_trans (ih hr) hsame

theorem takeTryBlocks_searched {state : Int} {ts : List MapBlock} {throwInfo : Option ThrowInfo}
    {r r' : Fh4.Search}
    (hsettled : ∀ x, probeUnless env.infoAt frames throwInfo r.dispatch.catchInfo = .ok x →
      x.2.isSome = true)
    (hr : takeTryBlocks env frames primaryFramePtr state ts throwInfo r = .ok r') :
    Searched env.infoAt frames throwInfo r.dispatch.catchInfo r'.dispatch.catchInfo := by
  induction ts generalizing throwInfo r with
  | nil =>
    cases hr
    exact .inl ⟨rfl, rfl⟩
  | cons t ts ih =>
    rw [takeTryBlocks] at hr
    split at hr
    · exact ih hsettled hr
    · simp only [bind_ok] at hr
      obtain ⟨⟨ci₁, throwInfo₁⟩, hprobe, ⟨d₁, found⟩, htake, hr⟩ := hr
      have hsome := hsettled _ hprobe
      have hsame := takeHandlers_same htake
      split at hr
      · cases hr
        exact .inr ⟨_, hprobe, hsame⟩
      · have hrest := ih (fun x hx => by rw [probeUnless_some hsome hx]; exact hsome) hr
        exact hrest.settled hprobe hsome hsame

theorem Searched.run {throwInfo : Option ThrowInfo} {after : CatchInfo}
    (hthrow : ci.getThrowInfo infoAt = .ok throwInfo)
    (h : Searched infoAt frames throwInfo ci after) :
    ∃ s : Search, s.run infoAt frames ci = .ok after := by
  let writes : CatchInfo → CatchInfo := fun ci => { after with
    exceptionObjectOrLink := ci.exceptionObjectOrLink
    throwInfoIfOwner := ci.throwInfoIfOwner }
  have hwrites : ∀ {ci : CatchInfo}, SameException after ci → writes ci = after := by
    intro ci hsame
    simp only [writes, ← hsame.1, ← hsame.2]
  obtain h | ⟨x, hprobe, h⟩ := h
  · refine ⟨⟨false, writes, fun ci => ⟨rfl, rfl⟩⟩, ?_⟩
    simp only [Search.run, Bool.false_eq_true, if_false, bind, Except.bind, pure, Except.pure,
      hwrites h]
  · refine ⟨⟨true, writes, fun ci => ⟨rfl, rfl⟩⟩, ?_⟩
    have hensure : ensureThrowInfo frames infoAt ci = .ok x.1 := by
      simp only [ensureThrowInfo, hthrow, bind, Except.bind]
      rw [probeUnless] at hprobe
      split at hprobe
      · rename_i hnone
        obtain ⟨ci₁, hci₁, hprobe⟩ := bind_ok.mp hprobe
        obtain ⟨throwInfo₁, -, hprobe⟩ := bind_ok.mp hprobe
        obtain rfl := pure_ok.mp hprobe
        rw [if_pos hnone, hci₁]
      · rename_i hnone
        cases hprobe
        rw [if_neg hnone]
        rfl
    simp only [Search.run, if_true, hensure, bind, Except.bind, pure, Except.pure, hwrites h]

theorem executeHandler_run {f : FunctionFrame} (hmapped : Mapped env.imageBase)
    (hsettled : Settled env.infoAt frames d.catchInfo) (hnull : d'.handler = null)
    (h : Dispatch.executeHandler env frames (.function f) d = .ok d') :
    ∃ s : Search, s.run env.infoAt frames d.catchInfo = .ok d'.catchInfo := by
  by_cases hdata : f.ehData = .none
  · simp only [Dispatch.executeHandler, hdata] at h
    cases h
    exact ⟨noSearch, rfl⟩
  obtain ⟨c, actions, hselects, rfl⟩ := (Dispatch.executeHandler_function hdata).mp h
  have hhandler : c.dispatch.handler = null := hnull
  cases hf : f.ehData with
  | none => exact absurd hf hdata
  | fh3 ehInfo =>
    simp only [Dispatch.Selects, hf] at hselects
    obtain ⟨entry, r, -, hsearch, -, -, rfl⟩ := Fh3.select_ok.mp hselects.1
    simp only [Fh3.search, bind_ok] at hsearch
    obtain ⟨throwInfo, hthrow, hsearch⟩ := hsearch
    split at hsearch
    · cases hsearch
    have hsearched := fh3_matchTryBlocks_searched (hsettled _ · hthrow) hsearch
    apply Searched.run hthrow
    cases hfound : r.found with
    | some x =>
      simp only [Fh3.Search.dispatch, hfound] at hhandler
      exact absurd hhandler (hmapped x.2.handler)
    | none =>
      simp only [Fh3.Search.dispatch, hfound]
      exact hsearched
  | fh4 funcInfo =>
    simp only [Dispatch.Selects, hf] at hselects
    obtain ⟨primaryFramePtr, state, r, -, hsearch, rfl⟩ := Fh4.select_ok.mp hselects.1
    by_cases hrun : (Fh4.ehInfoOf env f funcInfo).tryBlocks ≠ 0 ∧ 0 ≤ state
    · rw [search_tryBlocksOf hrun.2 hrun.1] at hsearch
      obtain ⟨throwInfo, hthrow, hsearch⟩ := bind_ok.mp hsearch
      have hsettled' : ∀ x, probeUnless env.infoAt frames throwInfo d.catchInfo = .ok x →
          x.2.isSome = true := (hsettled _ · hthrow)
      exact Searched.run hthrow (takeTryBlocks_searched hsettled' hsearch)
    · rw [Fh4.search, if_neg hrun] at hsearch
      cases hsearch
      exact ⟨noSearch, rfl⟩

end

def OnWay (infoAt : InfoAt) (frames : List Frame) (ci : CatchInfo) : Prop :=
  (∃ funs framePtr info above, frames = funs ++ .callCatch framePtr info :: above ∧
    (∀ x ∈ funs, ∃ f, x = .function f) ∧ Owned infoAt (.callCatch framePtr info :: above) ∧
    Waiting framePtr info ci) ∨
  Owned infoAt frames ∧ Known infoAt ci

theorem OnWay.settled (h : OnWay infoAt frames ci) : Settled infoAt frames ci := by
  intro throwInfo x hthrow hprobe
  have hknown : Known infoAt ci → x.2.isSome = true := by
    rintro ⟨ti, hti⟩
    obtain rfl := Except.ok.inj (hthrow.symm.trans hti)
    rw [probeUnless_some rfl hprobe]
    rfl
  obtain ⟨funs, framePtr, info, above, rfl, hfuns, howned, hnone, hlink | hlink⟩ | ⟨-, h⟩ := h
  · obtain rfl := Except.ok.inj (hthrow.symm.trans (getThrowInfo_null hlink))
    have hprobed := probe_functions hfuns howned hlink
    have hlinked : Known infoAt { ci with exceptionObjectOrLink := linkTo framePtr info } :=
      linkTo_known howned hnone rfl
    obtain ⟨ti, hti⟩ := hlinked
    simp only [probeUnless, Option.isNone_none, if_true, hprobed, bind, Except.bind, hti, pure,
      Except.pure] at hprobe
    cases hprobe
    rfl
  · exact hknown (linkTo_known howned hnone hlink)
  · exact hknown h

theorem OnWay.run {f : FunctionFrame} {s : Search} (h : OnWay infoAt (.function f :: frames) ci)
    (hrun : s.run infoAt (.function f :: frames) ci = .ok ci') : OnWay infoAt frames ci' := by
  obtain ⟨funs, framePtr, info, above, hframes, hfuns, howned, hwaiting⟩ | ⟨howned, hknown⟩ := h
  · cases funs with
    | nil => cases (List.cons.inj hframes).1
    | cons frame funs =>
      obtain ⟨rfl, htail⟩ := List.cons.inj hframes
      obtain ⟨ci₁, hrun₁, hwaiting₁⟩ := run_waiting s hfuns howned hwaiting
      have hrest : frames = funs ++ .callCatch framePtr info :: above := htail
      rw [List.cons_append, ← hrest] at hrun₁
      obtain rfl := Except.ok.inj (hrun.symm.trans hrun₁)
      exact .inl ⟨funs, framePtr, info, above, hrest,
        fun x hx => hfuns x (List.mem_cons_of_mem _ hx), howned, hwaiting₁⟩
  · rw [run_known s _ hknown] at hrun
    cases hrun
    exact .inr ⟨howned, hknown.congr (s.same ci)⟩

theorem OnWay.pass {calls : List DestroyCall} {disposition : ExceptionDisposition}
    (h : OnWay infoAt (.callCatch framePtr info :: frames) ci)
    (hpass : cxxCallCatchFrameHandler none framePtr info .unwind ci =
      .ok (disposition, ci', calls)) :
    OnWay infoAt frames ci' := by
  obtain ⟨funs, framePtr', info', above, hframes, hfuns, howned, hwaiting⟩ | ⟨howned, hknown⟩ := h
  · cases funs with
    | nil =>
      obtain ⟨hframe, rfl⟩ := List.cons.inj hframes
      cases hframe
      obtain ⟨after, hafter, hsame, -, -⟩ := callCatch_waiting hwaiting
      cases hafter.symm.trans hpass
      exact .inr ⟨howned.2, (owned_known howned).congr hsame⟩
    | cons frame funs =>
      obtain ⟨f, hf⟩ := hfuns frame List.mem_cons_self
      cases hf.symm.trans (List.cons.inj hframes).1.symm
  · have hself : SameException ci ci := ⟨rfl, rfl⟩
    obtain ⟨after, -, calls', hafter, -, -, -, hfrom⟩ := callCatch_congr framePtr info hself
    cases hafter.symm.trans hpass
    obtain hfrom | hfrom := hfrom
    · exact .inr ⟨howned.2, hknown.congr hfrom⟩
    · exact .inr ⟨howned.2, (owned_known howned).congr hfrom⟩

def Search.before (s : Search) (choice : Nat → Search) : Nat → Search
  | 0 => s
  | n + 1 => choice n

/-- A dispatch of a rethrow is such a walk, as far as it gets. -/
theorem visits_walk {env : Env} {frames' : List Frame} {d d' : Dispatch}
    (hmapped : Mapped env.imageBase) (h : Dispatch.Visits env frames d frames' d')
    (hway : OnWay env.infoAt frames d.catchInfo) : ∃ below choice seen,
      frames = below ++ frames' ∧
      walk env.infoAt frames' choice below d.catchInfo = .ok (seen, d'.catchInfo) := by
  induction h with
  | here frames d =>
    exact ⟨[], fun _ => noSearch, [], rfl, rfl⟩
  | @next frame rest d d₁ frames' d' hexecute hnull _ ih =>
    cases frame with
    | function f =>
      obtain ⟨s, hrun⟩ := executeHandler_run hmapped hway.settled hnull hexecute
      obtain ⟨below, choice, seen, rfl, hwalk⟩ := ih (hway.run hrun)
      refine ⟨.function f :: below, s.before choice, seen, rfl, ?_⟩
      have hfirst : (s.before choice 0).run env.infoAt (.function f :: (below ++ frames'))
          d.catchInfo = .ok d₁.catchInfo := hrun
      simp only [walk, hfirst, bind, Except.bind]
      exact hwalk
    | callCatch framePtr info =>
      simp only [Dispatch.executeHandler, bind_ok, verify_ok] at hexecute
      obtain ⟨⟨disposition, ci₁, calls⟩, hpass, -, hdisposition, hexecute⟩ := hexecute
      obtain rfl := pure_ok.mp hexecute
      obtain ⟨below, choice, seen, rfl, hwalk⟩ := ih (hway.pass hpass)
      refine ⟨.callCatch framePtr info :: below, noSearch.before choice,
        passed ci₁ calls :: seen, rfl, ?_⟩
      have hrest : walk env.infoAt frames' (fun n => noSearch.before choice (n + 1)) below ci₁ =
          .ok (seen, d'.catchInfo) := hwalk
      simp only [walk, hpass, bind, Except.bind, verify, if_pos hdisposition, hrest, pure,
        Except.pure]
    | seh => cases hexecute

/-- On the stacks that runs get to, every catch frame has an exception or leads to one. -/
theorem reach_owned {s : State} (h : Reach s) {pre stack : List Cell}
    (hstack : s.stack = pre ++ stack) : Owned (Steps.infoAt s.stack) (stack.map frame) := by
  have hinv := Invariant.reach_inv h
  have hsafe := Ownership.inv_safe hinv
  induction stack generalizing pre with
  | nil => trivial
  | cons cell stack ih =>
    have hstack' : s.stack = pre ++ [cell] ++ stack := by
      rw [hstack, List.append_assoc, List.singleton_append]
    have hrest := ih hstack'
    cases cell with
    | function f | throwing tf info n | finishing fp => exact hrest
    | catching fp info n =>
      have hmem : .catching fp info n ∈ s.stack := by
        rw [hstack]
        exact List.mem_append_right _ List.mem_cons_self
      have hslot : ⟨catchInfoAddr fp, info.exceptionObjectOrLink, info.throwInfoIfOwner, n,
          true⟩ ∈ Lib.Links.slots slot s.stack := Lib.Links.mem_slots.mpr ⟨_, hmem, rfl⟩
      obtain ⟨hne, howner⟩ := hsafe.direct pre fp info n stack hstack
      have hinfo : Steps.infoAt s.stack (catchInfoAddr fp) = some info :=
        Invariant.infoAt_cell hinv.kept.addrs_nodup hmem rfl rfl
      refine ⟨⟨(hinv.sound _ hslot).1, hinfo, hne, ?_⟩, hrest⟩
      obtain howner | ⟨fp', info', n', hmem', hlink, howner⟩ := howner
      · exact .inl howner
      · exact .inr ⟨fp', info', List.mem_map.mpr ⟨_, hmem', rfl⟩, hlink, howner⟩

/-- Whichever searches of a rethrow probe, the throw has the same behind each catch frame and the
same exceptions are destroyed. If there is a handler to link to, no walk stops where another goes
on. A probe changes nothing but the link of the throw. -/
theorem probe_transparent :
    (∀ (infoAt : InfoAt) (below rest : List Frame) (ci : CatchInfo) (choice choice' : Nat → Search),
      Owned infoAt (below ++ rest) → ci.exceptionObjectOrLink = null →
      ci.throwInfoIfOwner = none →
      (∀ x x', walk infoAt rest choice below ci = .ok x →
        walk infoAt rest choice' below ci = .ok x' → x.1 = x'.1) ∧
      ∀ funs framePtr info above, below ++ rest = funs ++ .callCatch framePtr info :: above →
        (∀ x ∈ funs, ∃ f, x = .function f) →
        Prod.fst <$> walk infoAt rest choice below ci =
          Prod.fst <$> walk infoAt rest choice' below ci) ∧
    ∀ (pdata : ProbeLoop.Pdata) (m : Lib.Memory.Mem 64) (self : Ptr) (fuel : Nat)
      (tf tf' : ProbeLoop.ThrowFrame), ProbeLoop.probeThrowFrame pdata m self fuel tf = .ok tf' →
      tf'.ctx = tf.ctx ∧ tf'.mach = tf.mach ∧ ProbeLoop.OnlyLink self tf.infos tf'.infos := by
  refine ⟨?_, ?_⟩
  · intro infoAt below rest ci choice choice' howned hlink hinfo
    refine ⟨?_, ?_⟩
    · intro x x' h h'
      exact walk_seen howned hlink hinfo h h'
    · intro funs framePtr info above hstack hfuns
      rw [hstack] at howned
      exact walk_waiting hstack hfuns howned.append ⟨hinfo, .inl hlink⟩ ⟨hinfo, .inl hlink⟩
  · intro pdata m self fuel tf tf' h
    exact ProbeLoop.probe_frame h

def firstInfo : CatchInfo := ⟨0, 0, 0x9000, 0x100, some ⟨0, 0x30, []⟩, 0⟩

def innerInfo : CatchInfo := ⟨0, 0, 0x8000, 0x200, some ⟨0, 0x40, []⟩, 0⟩

def againInfo : CatchInfo := ⟨0, 0, 0x7000, 0x3048, none, 0⟩

def infos : InfoAt := fun a =>
  if a = 0x1048 then some againInfo
  else if a = 0x2048 then some innerInfo
  else if a = 0x3048 then some firstInfo
  else none

def funcletFrame (framePtr : Ptr) : Frame := .function ⟨framePtr, 0, 0, .none⟩

def handlers : List Frame := [.callCatch 0x2000 innerInfo, funcletFrame 0x2800,
  .callCatch 0x3000 firstInfo]

theorem owned_handlers : Owned infos (.callCatch 0x1000 againInfo :: handlers) := by
  refine ⟨⟨by decide, rfl, by decide, .inr ⟨0x3000, firstInfo, by decide, rfl, rfl⟩⟩, ?_⟩
  refine ⟨⟨by decide, rfl, by decide, .inl rfl⟩, ?_⟩
  exact ⟨⟨by decide, rfl, by decide, .inl rfl⟩, trivial⟩

def probeAlways : Search := ⟨true, id, fun _ => ⟨rfl, rfl⟩⟩

def pdata : ProbeLoop.Pdata := ⟨fun _ => ⟨0, 0, 0, fun _ => 0⟩, fun _ _ => .callCatch 0x1000⟩

def rethrowFrame : ProbeLoop.ThrowFrame :=
  ⟨⟨fun _ => 0, fun _ => 0⟩, ⟨0, 0, 0, 0, 0⟩,
    Function.update infos 0x500 (some ⟨0, 0, 0, 0, none, 0⟩)⟩

theorem probe_transparent_linked :
    (Prod.fst <$> walk infos [] (fun _ => noSearch)
        ([funcletFrame 0x800] ++ .callCatch 0x1000 againInfo :: handlers) ⟨0, 0, 0, 0, none, 0⟩ =
      Prod.fst <$> walk infos [] (fun _ => probeAlways)
        ([funcletFrame 0x800] ++ .callCatch 0x1000 againInfo :: handlers) ⟨0, 0, 0, 0, none, 0⟩) ∧
    ∃ tf', ProbeLoop.probeThrowFrame pdata (fun _ => 0) 0x500 1 rethrowFrame = .ok tf' ∧
      ProbeLoop.OnlyLink 0x500 rethrowFrame.infos tf'.infos := by
  refine ⟨?_, ?_⟩
  · apply (probe_transparent.1 infos _ [] _ _ _ owned_handlers rfl rfl).2 [funcletFrame 0x800]
      0x1000 againInfo handlers rfl
    intro x hx
    obtain rfl := List.mem_singleton.mp hx
    exact ⟨_, rfl⟩
  · have hprobe : ∃ tf', ProbeLoop.probeThrowFrame pdata (fun _ => 0) 0x500 1 rethrowFrame =
        .ok tf' := ⟨_, rfl⟩
    obtain ⟨tf', hprobe⟩ := hprobe
    exact ⟨tf', hprobe, (probe_transparent.2 pdata _ 0x500 1 rethrowFrame tf' hprobe).2.2⟩

end Vcrtl.X64.RethrowProbe

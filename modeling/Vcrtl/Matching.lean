import Mathlib.Data.List.Forall2
import Vcrtl.X64.Fh3
import Vcrtl.X86.Handler

namespace Vcrtl.Matching

open Lib.Memory BugCheck EhFlags CatchVariable
open X64.DispatcherContext (bareEnv)

section

variable (desc : X64.EhStructs.Rva → X86.EhStructs.Ptr)

/-- One catchable type in the tables of both architectures. `desc` tells where the
descriptors of types are. -/
structure SameCatchable (c : X64.EhStructs.CatchableType) (c' : X86.EhStructs.CatchableType) :
    Prop where
  properties : c'.properties = c.properties
  desc : c'.desc = desc c.desc

structure SameThrow (ti : X64.EhStructs.ThrowInfo) (ti' : X86.EhStructs.ThrowInfo) : Prop where
  attributes : ti'.attributes = ti.attributes
  catchables : List.Forall₂ (SameCatchable desc) ti.catchables ti'.catchables

structure SameHandler (h : X64.EhStructs.CatchHandler) (h' : X86.EhStructs.CatchHandler) :
    Prop where
  adjectives : h'.adjectives = h.adjectives
  typeDesc : h'.typeDesc = desc h.typeDesc

end

section

variable (ti : X64.EhStructs.ThrowInfo) (h : X64.EhStructs.CatchHandler)

def Qualified : Prop :=
  (hasAnyOf ti.attributes ThrowFlag.isConst → hasAnyOf h.adjectives CatchFlag.isConst) ∧
  (hasAnyOf ti.attributes ThrowFlag.isUnaligned → hasAnyOf h.adjectives CatchFlag.isUnaligned) ∧
  (hasAnyOf ti.attributes ThrowFlag.isVolatile → hasAnyOf h.adjectives CatchFlag.isVolatile)

def Names : Prop := ∃ c ∈ ti.catchables, c.desc = h.typeDesc

def Matches : Prop :=
  hasAnyOf h.adjectives CatchFlag.isEllipsis ∨ Qualified ti h ∧ ∃ c ∈ ti.catchables,
    c.desc = h.typeDesc ∧ (hasAnyOf c.properties CatchableProperty.byReferenceOnly →
      hasAnyOf h.adjectives CatchFlag.isReference)

instance : Decidable (Qualified ti h) := inferInstanceAs (Decidable (_ ∧ _))

instance : Decidable (Names ti h) := inferInstanceAs (Decidable (∃ c ∈ ti.catchables, _))

instance : Decidable (Matches ti h) := inferInstanceAs (Decidable (_ ∨ _))

end

def x64Selection (env : X64.DispatcherContext.Env) (primaryFramePtr : X64.EhStructs.Ptr)
    (ci : X64.Throw.CatchInfo) (ti : X64.EhStructs.ThrowInfo)
    (hs : List X64.EhStructs.CatchHandler) (s : World 64) :
    Exec (Option X64.EhStructs.CatchHandler) :=
  Prod.fst <$> X64.Fh3.matchHandlers env primaryFramePtr ci (some ti) hs s

def x86Selection (v : X86.ThrowFrame.SehVerifier) (regs : List X86.ThrowFrame.SehRegistration)
    (frameAt : X86.ThrowFrame.FrameAt) (tf : X86.ThrowFrame.CxxThrowFrame)
    (hs : List X86.EhStructs.CatchHandler) : Exec (Option X86.EhStructs.CatchHandler) :=
  (fun x => x.2.map Prod.fst) <$> X86.Handler.matchHandlers v regs frameAt hs tf

variable {ti : X64.EhStructs.ThrowInfo} {ti' : X86.EhStructs.ThrowInfo}
  {h : X64.EhStructs.CatchHandler} {h' : X86.EhStructs.CatchHandler}
  {desc : X64.EhStructs.Rva → X86.EhStructs.Ptr}

theorem findCatchable_isSome (imageBase : X64.EhStructs.Ptr) :
    (X64.CatchBlock.findCatchable imageBase h.adjectives
      (X64.EhStructs.displace imageBase h.typeDesc) ti).isSome ↔
      ∃ c ∈ ti.catchables, c.desc = h.typeDesc ∧
        (hasAnyOf c.properties CatchableProperty.byReferenceOnly →
          hasAnyOf h.adjectives CatchFlag.isReference) := by
  simp only [X64.CatchBlock.findCatchable, List.find?_isSome, Bool.and_eq_true, beq_iff_eq,
    X64.EhStructs.displace_inj, Bool.or_eq_true, Bool.not_eq_true']
  apply exists_congr
  intro c
  apply and_congr_right
  intro _
  apply and_congr_right
  intro _
  cases hasAnyOf c.properties CatchableProperty.byReferenceOnly <;> simp

theorem processCatchBlock_matches (ti : X64.EhStructs.ThrowInfo) (h : X64.EhStructs.CatchHandler)
    (code : Code 64) (imageBase catchVar object : X64.EhStructs.Ptr) (s : World 64) :
    ∃ s', X64.CatchBlock.processCatchBlock code imageBase h.adjectives
      (X64.EhStructs.displace imageBase h.typeDesc) catchVar object (some ti) s =
        .ok (decide (Matches ti h), s') := by
  simp only [X64.CatchBlock.processCatchBlock, Matches, Qualified,
    ← findCatchable_isSome imageBase]
  by_cases hellipsis : hasAnyOf h.adjectives CatchFlag.isEllipsis = true
  · rw [if_pos hellipsis]
    exact ⟨s, by simp [hellipsis]⟩
  rw [if_neg hellipsis]
  split
  · rename_i hconst
    exact ⟨s, by simp [hellipsis, hconst]⟩
  split
  · rename_i hunaligned
    exact ⟨s, by simp [hellipsis, hunaligned]⟩
  split
  · rename_i hvolatile
    exact ⟨s, by simp [hellipsis, hvolatile]⟩
  rename_i hconst hunaligned hvolatile
  simp only [not_and, not_not] at hconst hunaligned hvolatile
  cases hfind : X64.CatchBlock.findCatchable imageBase h.adjectives
      (X64.EhStructs.displace imageBase h.typeDesc) ti with
  | none => exact ⟨s, by simp [hellipsis]⟩
  | some c =>
    refine ⟨X64.CatchBlock.initCatchVariable code imageBase h.adjectives catchVar object c s, ?_⟩
    rw [decide_eq_true (.inr ⟨⟨hconst, hunaligned, hvolatile⟩, rfl⟩)]

theorem x64Selection_find {env : X64.DispatcherContext.Env}
    {primaryFramePtr object : X64.EhStructs.Ptr} {ci : X64.Throw.CatchInfo}
    (hs : List X64.EhStructs.CatchHandler) (s : World 64)
    (hobject : ci.getExceptionObject env.infoAt = .ok object) :
    x64Selection env primaryFramePtr ci ti hs s = .ok (hs.find? fun h => Matches ti h) := by
  induction hs generalizing s with
  | nil => rfl
  | cons h hs ih =>
    obtain ⟨s', hprocess⟩ := processCatchBlock_matches ti h env.code env.imageBase
      (X64.EhStructs.displace primaryFramePtr h.catchObjectOffset) object s
    rw [x64Selection, X64.Fh3.matchHandlers, hobject]
    simp only [bind, Except.bind, hprocess]
    by_cases hmatch : Matches ti h
    · rw [List.find?_cons_of_pos (by simpa using hmatch), if_pos (by simpa using hmatch)]
      rfl
    · rw [List.find?_cons_of_neg (by simpa using hmatch), if_neg (by simpa using hmatch)]
      exact ih s'

theorem x86Selection_find {v : X86.ThrowFrame.SehVerifier}
    {regs : List X86.ThrowFrame.SehRegistration} {frameAt : X86.ThrowFrame.FrameAt}
    {tf : X86.ThrowFrame.CxxThrowFrame} (hs : List X86.EhStructs.CatchHandler)
    (htf : tf.getThrowInfo frameAt = .ok (some ti')) :
    x86Selection v regs frameAt tf hs = .ok (hs.find? (X86.Handler.takes ti')) := by
  obtain ⟨tf', found, hmatch, hfind, -⟩ :=
    X86.Handler.matchHandlers_find (v := v) hs (.found htf)
  rw [x86Selection, hmatch, ← hfind]
  rfl

theorem any_desc_iff {cs : List X64.EhStructs.CatchableType}
    {cs' : List X86.EhStructs.CatchableType} (hdesc : Function.Injective desc)
    (hcs : List.Forall₂ (SameCatchable desc) cs cs') (r : X64.EhStructs.Rva) :
    cs'.any (·.desc == desc r) = true ↔ ∃ c ∈ cs, c.desc = r := by
  induction hcs with
  | nil => simp
  | cons hc _ ih => simp [hc.desc, hdesc.eq_iff, ih]

theorem Matches.names {ti : X64.EhStructs.ThrowInfo} {h : X64.EhStructs.CatchHandler}
    (hmatch : Matches ti h) : hasAnyOf h.adjectives CatchFlag.isEllipsis = true ∨ Names ti h := by
  obtain hellipsis | ⟨-, c, hc, hdesc, -⟩ := hmatch
  · exact .inl hellipsis
  · exact .inr ⟨c, hc, hdesc⟩

theorem matches_congr {g h : X64.EhStructs.CatchHandler} (hadjectives : g.adjectives = h.adjectives)
    (htype : g.typeDesc = h.typeDesc) : Matches ti g ↔ Matches ti h := by
  simp only [Matches, Qualified, hadjectives, htype]

section

variable {α : Type} {xs : List α} {p q : α → Bool} {a : α}

theorem find_of_first (hpq : ∀ a ∈ xs, p a → q a) (h : xs.find? q = some a) (ha : p a) :
    xs.find? p = some a := by
  induction xs with
  | nil => cases h
  | cons x xs ih =>
    by_cases hq : q x
    · rw [List.find?_cons_of_pos hq] at h
      cases h
      exact List.find?_cons_of_pos ha
    · rw [List.find?_cons_of_neg hq] at h
      rw [List.find?_cons_of_neg fun hp => hq (hpq x List.mem_cons_self hp)]
      exact ih (fun a ha => hpq a (List.mem_cons_of_mem _ ha)) h

/-- Of two properties, one of which implies the other, both find the same element exactly
if the weaker one alone holds only behind an element with both. -/
theorem find_eq_iff (hpq : ∀ a ∈ xs, p a → q a) : xs.find? q = xs.find? p ↔
    ∀ before a after, xs = before ++ a :: after → q a → ¬ p a → ∃ b ∈ before, p b := by
  induction xs with
  | nil => simp
  | cons x xs ih =>
    have hx := hpq x List.mem_cons_self
    by_cases hp : p x
    · rw [List.find?_cons_of_pos (hx hp), List.find?_cons_of_pos hp]
      refine iff_of_true rfl fun before a after hsplit _ hna => ?_
      obtain ⟨rfl, hxs⟩ | ⟨before', rfl, hxs⟩ := List.cons_eq_append_iff.mp hsplit
      · cases hxs
        exact absurd hp hna
      · exact ⟨x, List.mem_cons_self, hp⟩
    · rw [List.find?_cons_of_neg hp]
      by_cases hq : q x
      · rw [List.find?_cons_of_pos hq]
        refine iff_of_false (fun h => hp (List.find?_some h.symm)) fun h => ?_
        obtain ⟨b, hb, -⟩ := h [] x xs rfl hq hp
        cases hb
      · rw [List.find?_cons_of_neg hq, ih fun a ha => hpq a (List.mem_cons_of_mem _ ha)]
        constructor
        · intro h before a after hsplit hqa hna
          obtain ⟨rfl, hxs⟩ | ⟨before', rfl, hxs⟩ := List.cons_eq_append_iff.mp hsplit
          · cases hxs
            exact absurd hqa hq
          · obtain ⟨b, hb, hpb⟩ := h before' a after hxs hqa hna
            exact ⟨b, List.mem_cons_of_mem _ hb, hpb⟩
        · intro h before a after hsplit hqa hna
          obtain ⟨b, hb, hpb⟩ := h (x :: before) a after (by rw [hsplit]; rfl) hqa hna
          obtain rfl | hb := List.mem_cons.mp hb
          · exact absurd hpb hp
          · exact ⟨b, hb, hpb⟩

end

theorem map_snd_eq_iff {ps : List (X64.EhStructs.CatchHandler × X86.EhStructs.CatchHandler)}
    {taken : X64.EhStructs.CatchHandler × X86.EhStructs.CatchHandler → Bool}
    (hdesc : Function.Injective desc) (hps : ∀ p ∈ ps, SameHandler desc p.1 p.2)
    (hsub : ∀ p ∈ ps, decide (Matches ti p.1) → taken p) :
    (ps.find? taken).map Prod.snd = (ps.find? fun p => Matches ti p.1).map Prod.snd ↔
      ps.find? taken = ps.find? fun p => Matches ti p.1 := by
  refine ⟨fun h => ?_, fun h => by rw [h]⟩
  cases hfirst : ps.find? taken with
  | none =>
    rw [hfirst] at h
    exact (Option.map_eq_none_iff.mp h.symm).symm
  | some a =>
    rw [hfirst] at h
    obtain ⟨b, hb, hab⟩ := Option.map_eq_some_iff.mp h.symm
    have hpa := hps a (List.mem_of_find?_eq_some hfirst)
    have hpb := hps b (List.mem_of_find?_eq_some hb)
    have hadjectives : a.1.adjectives = b.1.adjectives := by
      rw [← hpa.adjectives, ← hpb.adjectives, hab]
    have htype : a.1.typeDesc = b.1.typeDesc :=
      hdesc (by rw [← hpa.typeDesc, ← hpb.typeDesc, hab])
    have hmatch : Matches ti b.1 := by simpa using List.find?_some hb
    have hmatch' := (matches_congr hadjectives htype).mpr hmatch
    exact (find_of_first hsub hfirst (decide_eq_true hmatch')).symm

/-- The two searches take the same first handler exactly if every handler that names
the type but does not match comes after one that matches. -/
theorem selections_agree_iff {env : X64.DispatcherContext.Env}
    {primaryFramePtr object : X64.EhStructs.Ptr} {ci : X64.Throw.CatchInfo} {s : World 64}
    {v : X86.ThrowFrame.SehVerifier} {regs : List X86.ThrowFrame.SehRegistration}
    {frameAt : X86.ThrowFrame.FrameAt} {tf : X86.ThrowFrame.CxxThrowFrame}
    {ps : List (X64.EhStructs.CatchHandler × X86.EhStructs.CatchHandler)}
    (hdesc : Function.Injective desc) (hthrow : SameThrow desc ti ti')
    (hps : ∀ p ∈ ps, SameHandler desc p.1 p.2)
    (hobject : ci.getExceptionObject env.infoAt = .ok object)
    (htf : tf.getThrowInfo frameAt = .ok (some ti')) :
    (∃ p, p = ps.find? (fun p => Matches ti p.1) ∧
      x64Selection env primaryFramePtr ci ti (ps.map Prod.fst) s = .ok (p.map Prod.fst) ∧
      x86Selection v regs frameAt tf (ps.map Prod.snd) = .ok (p.map Prod.snd)) ↔
    ∀ before p after, ps = before ++ p :: after → Names ti p.1 → ¬ Matches ti p.1 →
      ∃ q ∈ before, Matches ti q.1 := by
  let taken (p : X64.EhStructs.CatchHandler × X86.EhStructs.CatchHandler) : Bool :=
    X86.Handler.takes ti' p.2
  have htaken : ∀ p ∈ ps, taken p ↔
      hasAnyOf p.1.adjectives CatchFlag.isEllipsis = true ∨ Names ti p.1 := by
    intro p hp
    simp only [taken, X86.Handler.takes, (hps p hp).adjectives, (hps p hp).typeDesc,
      Bool.or_eq_true,
      any_desc_iff hdesc hthrow.catchables, Names]
  have hsub : ∀ p ∈ ps, decide (Matches ti p.1) → taken p :=
    fun p hp hmatch => (htaken p hp).mpr (of_decide_eq_true hmatch).names
  have hx64 : x64Selection env primaryFramePtr ci ti (ps.map Prod.fst) s =
      .ok ((ps.find? fun p => Matches ti p.1).map Prod.fst) := by
    rw [x64Selection_find _ _ hobject, List.find?_map]
    rfl
  have hx86 : x86Selection v regs frameAt tf (ps.map Prod.snd) =
      .ok ((ps.find? taken).map Prod.snd) := by
    rw [x86Selection_find _ htf, List.find?_map]
    rfl
  rw [hx64, hx86]
  have hcondition := (map_snd_eq_iff hdesc hps hsub).trans (find_eq_iff hsub)
  constructor
  · rintro ⟨p, rfl, -, hsel⟩ before p after hsplit hnames hno
    have hp : p ∈ ps := by rw [hsplit]; simp
    obtain ⟨q, hq, hmatch⟩ := hcondition.mp (Except.ok.inj hsel) before p after hsplit
      ((htaken p hp).mpr (.inr hnames)) (by simpa using hno)
    exact ⟨q, hq, by simpa using hmatch⟩
  · intro h
    refine ⟨_, rfl, rfl, congrArg _ (hcondition.mpr fun before p after hsplit hp hno => ?_)⟩
    have hmem : p ∈ ps := by rw [hsplit]; simp
    have hno' : ¬ Matches ti p.1 := by simpa using hno
    obtain hellipsis | hnames := (htaken p hmem).mp hp
    · exact absurd (.inl hellipsis) hno'
    · obtain ⟨q, hq, hmatch⟩ := h before p after hsplit hnames hno'
      exact ⟨q, hq, by simpa using hmatch⟩

def constThrow : X64.EhStructs.ThrowInfo := ⟨ThrowFlag.isConst, 0, [⟨1, 0x20, ⟨0, 0, 0⟩, 8, 0⟩]⟩

def constThrow86 : X86.EhStructs.ThrowInfo := ⟨ThrowFlag.isConst, 0, [⟨1, 0x20, ⟨0, 0, 0⟩, 4, 0⟩]⟩

theorem sameThrow_const : SameThrow id constThrow constThrow86 :=
  ⟨rfl, .cons ⟨rfl, rfl⟩ .nil⟩

def constHandlers : List (X64.EhStructs.CatchHandler × X86.EhStructs.CatchHandler) :=
  [(⟨CatchFlag.isConst, 0x20, 0, 0x100, 0⟩, ⟨CatchFlag.isConst, 0x20, 0, 0x401100⟩),
    (⟨CatchFlag.isEllipsis, 0, 0, 0x200, 0⟩, ⟨CatchFlag.isEllipsis, 0, 0, 0x401200⟩)]

theorem selections_agree_const : ∃ p, p = constHandlers.find? (fun p => Matches constThrow p.1) ∧
    x64Selection bareEnv 0x5000 ⟨0, 0, 0, 0x2000, some constThrow, 0⟩ constThrow
      (constHandlers.map Prod.fst) ⟨fun _ => 0, []⟩ = .ok (p.map Prod.fst) ∧
    x86Selection ⟨0, 0, 0, []⟩ [] (fun _ => none) ⟨none, 0, 0, 0x2000, some constThrow86⟩
      (constHandlers.map Prod.snd) = .ok (p.map Prod.snd) := by
  have hps : ∀ p ∈ constHandlers, SameHandler id p.1 p.2 := by
    simp only [constHandlers, List.forall_mem_cons, List.not_mem_nil, false_imp_iff, implies_true,
      and_true]
    exact ⟨⟨rfl, rfl⟩, ⟨rfl, rfl⟩⟩
  apply (selections_agree_iff Function.injective_id sameThrow_const hps rfl rfl).mpr
  have hall : ∀ p ∈ constHandlers, Matches constThrow p.1 := by decide
  intro before p after hsplit _ hno
  exact absurd (hall p (by rw [hsplit]; simp)) hno

/-- `catch (char *)` takes a `const char *` on x86, and not on x64. -/
theorem const_dropped_on_x86 :
    SameHandler id (⟨0, 0x20, 0, 0x100, 0⟩ : X64.EhStructs.CatchHandler) ⟨0, 0x20, 0, 0x401100⟩ ∧
    x64Selection bareEnv 0x5000 ⟨0, 0, 0, 0x2000, some constThrow, 0⟩ constThrow
      [⟨0, 0x20, 0, 0x100, 0⟩] ⟨fun _ => 0, []⟩ = .ok none ∧
    x86Selection ⟨0, 0, 0, []⟩ [] (fun _ => none) ⟨none, 0, 0, 0x2000, some constThrow86⟩
      [⟨0, 0x20, 0, 0x401100⟩] = .ok (some ⟨0, 0x20, 0, 0x401100⟩) := by
  exact ⟨⟨rfl, rfl⟩, rfl, rfl⟩

end Vcrtl.Matching

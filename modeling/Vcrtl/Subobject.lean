import Vcrtl.X64.CatchBlock
import Vcrtl.X86.Handler

namespace Vcrtl.Subobject

open Lib.Memory Displacement EhFlags CatchVariable

theorem processCatchBlock_sees_iff {code : Code 64}
    {imageBase matchType catchVar object : BitVec 64} {adjectives : BitVec 32}
    {throwInfo : X64.EhStructs.ThrowInfo} {c : X64.EhStructs.CatchableType} {s t : World 64}
    (hellipsis : hasAnyOf adjectives CatchFlag.isEllipsis = false)
    (hprocess : X64.CatchBlock.processCatchBlock code imageBase adjectives matchType catchVar object
      (some throwInfo) s = .ok (true, t))
    (hfind : X64.CatchBlock.findCatchable imageBase adjectives matchType throwInfo = some c)
    (hclass : hasAnyOf c.properties CatchableProperty.isSimpleType = false) :
    SeesSubobject c.offset object s t ↔
      hasAnyOf adjectives CatchFlag.isReference = false ∧ c.copyFn = 0 ∨
        c.offset.apply s.mem object = object := by
  rw [X64.CatchBlock.processCatchBlock_found hellipsis hprocess hfind,
    X64.CatchBlock.initCatchVariable]
  by_cases href : hasAnyOf adjectives CatchFlag.isReference = true
  · rw [if_pos href, sees_object rfl]
    simp [href]
  · rw [if_neg href, sees_initByValue hclass]
    simp [href]

theorem initCatchVariable_sees_iff {code : Code 32} {frameAt : X86.ThrowFrame.FrameAt}
    {tf : X86.ThrowFrame.CxxThrowFrame} {frameBase object : BitVec 32}
    {h : X86.EhStructs.CatchHandler} {c : X86.EhStructs.CatchableType} {s t : World 32}
    (hinit : X86.Handler.initCatchVariable code frameAt tf frameBase h (some c) s = .ok t)
    (hobject : tf.getExceptionObject frameAt = .ok object)
    (hclass : hasAnyOf c.properties CatchableProperty.isSimpleType = false) :
    SeesSubobject c.offset object s t ↔
      hasAnyOf h.adjectives CatchFlag.isReference = false ∧
          (h.catchObjectOffset = 0 ∨ c.copyFnRva = X86.EhStructs.null) ∨
        c.offset.apply s.mem object = object := by
  simp only [X86.Handler.initCatchVariable, hobject, bind, Except.bind, pure,
    Except.pure] at hinit
  by_cases href : hasAnyOf h.adjectives CatchFlag.isReference = true
  · rw [if_pos href] at hinit
    cases hinit
    rw [sees_object rfl]
    simp [href]
  · rw [if_neg href] at hinit
    by_cases hvar : h.catchObjectOffset = 0
    · rw [if_neg (not_not.mpr hvar)] at hinit
      cases hinit
      simp [SeesSubobject, href, hvar]
    · rw [if_pos hvar] at hinit
      cases hinit
      rw [sees_initByValue hclass]
      simp only [hvar, false_or]
      simp [href]

/-- An exception of class type is caught as the right subobject exactly if it
is copied without a copy function, or not copied at all, or the subobject lies
where the whole object does. -/
theorem caught_subobject_iff (adjectives : BitVec 32) (d : PtrToMember) :
    (∀ (code : Code 64) (imageBase matchType catchVar object : BitVec 64)
      (throwInfo : X64.EhStructs.ThrowInfo) (c : X64.EhStructs.CatchableType) (s t : World 64),
      hasAnyOf adjectives CatchFlag.isEllipsis = false →
      X64.CatchBlock.processCatchBlock code imageBase adjectives matchType catchVar object
        (some throwInfo) s = .ok (true, t) →
      X64.CatchBlock.findCatchable imageBase adjectives matchType throwInfo = some c →
      hasAnyOf c.properties CatchableProperty.isSimpleType = false → c.offset = d →
      (SeesSubobject d object s t ↔
        hasAnyOf adjectives CatchFlag.isReference = false ∧ c.copyFn = 0 ∨
          d.apply s.mem object = object)) ∧
    ∀ (code : Code 32) (frameAt : X86.ThrowFrame.FrameAt) (tf : X86.ThrowFrame.CxxThrowFrame)
      (frameBase object : BitVec 32) (h : X86.EhStructs.CatchHandler)
      (c : X86.EhStructs.CatchableType) (s t : World 32), h.adjectives = adjectives →
      X86.Handler.initCatchVariable code frameAt tf frameBase h (some c) s = .ok t →
      tf.getExceptionObject frameAt = .ok object →
      hasAnyOf c.properties CatchableProperty.isSimpleType = false → c.offset = d →
      (SeesSubobject d object s t ↔
        hasAnyOf adjectives CatchFlag.isReference = false ∧
            (h.catchObjectOffset = 0 ∨ c.copyFnRva = X86.EhStructs.null) ∨
          d.apply s.mem object = object) := by
  constructor
  · rintro code imageBase matchType catchVar object throwInfo c s t hellipsis hprocess hfind
      hclass rfl
    exact processCatchBlock_sees_iff hellipsis hprocess hfind hclass
  · rintro code frameAt tf frameBase object h c s t rfl hinit hobject hclass rfl
    exact initCatchVariable_sees_iff hinit hobject hclass

/-- A base that lies 8 bytes into the object and has a copy constructor. -/
def secondBase : PtrToMember := ⟨8, -1, 0⟩

theorem caught_subobject_copied :
    SeesSubobject secondBase (0x1000 : BitVec 64) ⟨fun _ => 0, []⟩
      ((⟨fun _ => 0, []⟩ : World 64).perform (fun _ m => m) (.memcpy 0x2000 0x1008 4)) := by
  have hprocess : X64.CatchBlock.processCatchBlock (fun _ m => m) 0x400000 0 0x400010 0x2000 0x1000
      (some ⟨0, 0, [⟨0, 0x10, secondBase, 4, 0⟩]⟩) ⟨fun _ => 0, []⟩ =
      .ok (true,
        (⟨fun _ => 0, []⟩ : World 64).perform (fun _ m => m) (.memcpy 0x2000 0x1008 4)) := rfl
  exact ((caught_subobject_iff 0 secondBase).1 _ _ _ _ _ _ ⟨0, 0x10, secondBase, 4, 0⟩ _ _
    rfl hprocess rfl rfl rfl).mpr (.inl ⟨rfl, rfl⟩)

/-- A reference to that base is bound to the start of the object. -/
theorem reference_to_other_base : ∃ t,
    X64.CatchBlock.processCatchBlock (fun _ m => m) 0x400000 CatchFlag.isReference 0x400010 0x2000
      0x1000 (some ⟨0, 0, [⟨0, 0x10, secondBase, 4, 0x20⟩]⟩) ⟨fun _ => 0, []⟩ = .ok (true, t) ∧
    t.trace = [.reference 0x2000 0x1000] ∧
    secondBase.apply (fun _ => 0) (0x1000 : BitVec 64) = 0x1008 ∧
    ¬ SeesSubobject secondBase 0x1000 ⟨fun _ => 0, []⟩ t := by
  refine ⟨_, rfl, rfl, by decide, fun h => ?_⟩
  have hsource := h _ (List.mem_singleton_self _)
  revert hsource
  decide

end Vcrtl.Subobject

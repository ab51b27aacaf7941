import Vcrtl.X64.Dispatch
import Vcrtl.X64.HandlerMap

namespace Vcrtl.X64.Rebinding

open Lib.Memory BugCheck EhFlags EhStructs Throw CatchFrame CatchVariable CatchBlock Cleanup
  DispatcherContext Dispatch HandlerMap

def copyCall (vb : Bool) (fn self other : Ptr) : Effect 64 :=
  if vb then .copyVb fn self other else .copy fn self other

section

variable {code : Code 64} {imageBase type var object : Ptr} {adjectives : BitVec 32}
  {throwInfo : Option ThrowInfo} {s t : World 64}

theorem processCatchBlock_skip
    (h : processCatchBlock code imageBase adjectives type var object throwInfo s = .ok (false, t)) :
    t = s := by
  simp only [processCatchBlock] at h
  split at h
  · cases h
  · split at h
    · cases h
    · split at h
      · cases h
        rfl
      split at h
      · cases h
        rfl
      split at h
      · cases h
        rfl
      split at h
      · cases h
        rfl
      · cases h

theorem hasAnyOf_reference (adjectives flag : BitVec 32)
    (h : CatchFlag.isReference &&& flag = 0) :
    hasAnyOf (adjectives ||| CatchFlag.isReference) flag = hasAnyOf adjectives flag := by
  rw [hasAnyOf, hasAnyOf, BitVec.and_or_distrib_right, h]
  exact congrArg (· != 0) BitVec.or_zero

theorem hasAnyOf_isReference :
    hasAnyOf (adjectives ||| CatchFlag.isReference) CatchFlag.isReference = true := by
  rw [hasAnyOf, BitVec.and_or_distrib_right, BitVec.and_self, bne_iff_ne]
  intro hzero
  have hbit := congrArg (fun x => BitVec.getLsbD x 3) hzero
  simp [CatchFlag.isReference] at hbit

theorem findCatchable_reference {ti : ThrowInfo} {c : CatchableType}
    (h : findCatchable imageBase adjectives type ti = some c) :
    ∃ c', findCatchable imageBase (adjectives ||| CatchFlag.isReference) type ti = some c' := by
  have hmem := List.mem_of_find?_eq_some h
  have htakes := List.find?_some h
  simp only [Bool.and_eq_true] at htakes
  apply Option.isSome_iff_exists.mp
  rw [findCatchable, List.find?_isSome]
  exact ⟨c, hmem, by simp only [hasAnyOf_isReference, Bool.or_true, Bool.and_true, htakes.1]⟩

theorem perform_eq {e e' : Effect 64} (h : (s.perform code e).trace = s.trace ++ [e']) : e = e' :=
  (List.cons.inj (List.append_cancel_left h)).1

theorem copyCall_inj {vb : Bool} {fn self other : Ptr} {e : Effect 64}
    (h : e = copyCall vb fn self other) :
    (e = .copy fn self other ∨ e = .copyVb fn self other) := by
  cases vb
  · exact .inl h
  · exact .inr h

theorem initCatchVariable_copy {c : CatchableType} {vb : Bool} {fn self other : Ptr}
    (h : (initCatchVariable code imageBase adjectives var object c s).trace =
      s.trace ++ [copyCall vb fn self other]) : other = object := by
  have hother : ∀ e : Effect 64, (s.perform code e).trace = s.trace ++ [copyCall vb fn self other] →
      e = .copy fn self other ∨ e = .copyVb fn self other :=
    fun e he => copyCall_inj (perform_eq he)
  simp only [initCatchVariable, initByValue] at h
  split at h
  · obtain he | he := hother _ h <;> cases he
  split at h
  · have hmemcpy : (s.perform code (.memcpy var object c.size.toNat)).trace =
        s.trace ++ [copyCall vb fn self other] := by
      split at h
      · split at h <;> exact h
      · exact h
    obtain he | he := hother _ hmemcpy <;> cases he
  split at h
  · obtain he | he := hother _ h <;> cases he
  · split at h
    · obtain he | he := hother _ h <;> cases he
      rfl
    · obtain he | he := hother _ h <;> cases he
      rfl

/-- What a handler does that calls a copy constructor, and what it does as a reference. -/
theorem processCatchBlock_copy {vb : Bool} {fn self other : Ptr}
    (h : processCatchBlock code imageBase adjectives type var object throwInfo s = .ok (true, t))
    (hcopy : t.trace = s.trace ++ [copyCall vb fn self other]) :
    other = object ∧ ∀ slot, processCatchBlock code imageBase
      (adjectives ||| CatchFlag.isReference) type slot object throwInfo s =
        .ok (true, s.perform code (.reference slot object)) := by
  have hellipsis := hasAnyOf_reference adjectives CatchFlag.isEllipsis rfl
  have hconst := hasAnyOf_reference adjectives CatchFlag.isConst rfl
  have hunaligned := hasAnyOf_reference adjectives CatchFlag.isUnaligned rfl
  have hvolatile := hasAnyOf_reference adjectives CatchFlag.isVolatile rfl
  simp only [processCatchBlock, hellipsis, hconst, hunaligned, hvolatile] at h ⊢
  split at h
  · cases h
    simp at hcopy
  rename_i hnot
  cases throwInfo with
  | none => cases h
  | some ti =>
    simp only [] at h ⊢
    split at h
    · cases h
    split at h
    · cases h
    split at h
    · cases h
    rename_i h₁ h₂ h₃
    cases hfind : findCatchable imageBase adjectives type ti with
    | none =>
      rw [hfind] at h
      cases h
    | some c =>
      rw [hfind] at h
      cases h
      refine ⟨initCatchVariable_copy hcopy, fun slot => ?_⟩
      obtain ⟨c', hfind'⟩ := findCatchable_reference hfind
      rw [if_neg hnot, if_neg h₁, if_neg h₂, if_neg h₃, hfind']
      simp only [initCatchVariable, hasAnyOf_isReference, if_true]

end

def rebind (target slot : Rva) (h : CatchHandler) : CatchHandler :=
  if h.handler = target then
    { h with adjectives := h.adjectives ||| CatchFlag.isReference, catchObjectOffset := slot }
  else h

def rebindBlock (target slot : Rva) (t : TryBlock) : TryBlock :=
  { t with catchHandlers := t.catchHandlers.map (rebind target slot) }

section

variable {target slot : Rva} {h : CatchHandler} {hs : List CatchHandler} {t : TryBlock}
  {tryBlocks : List TryBlock}

@[simp] theorem rebind_handler : (rebind target slot h).handler = h.handler := by
  rw [rebind]
  split <;> rfl

@[simp] theorem rebind_nodeOffset : (rebind target slot h).nodeOffset = h.nodeOffset := by
  rw [rebind]
  split <;> rfl

theorem rebind_other (h : ∀ h ∈ hs, h.handler ≠ target) : hs.map (rebind target slot) = hs := by
  have heq : hs.map (rebind target slot) = hs.map id :=
    List.map_congr_left fun x hx => if_neg (h x hx)
  rw [heq, List.map_id]

theorem findHomeBlock_rebind (state home : Int) (fuel : Nat) :
    Fh3.findHomeBlock (tryBlocks.map (rebindBlock target slot)) state fuel home =
      (fun x => (x.1, x.2.map (rebindBlock target slot))) <$>
        Fh3.findHomeBlock tryBlocks state fuel home := by
  induction fuel generalizing home with
  | zero => rfl
  | succ fuel ih =>
    rw [Fh3.findHomeBlock, Fh3.findHomeBlock]
    split
    · rw [Algorithm.elementAt_map]
      cases Algorithm.elementAt tryBlocks home with
      | error e => rfl
      | ok t =>
        simp only [Functor.map, Except.map, bind, Except.bind]
        by_cases hrange : Fh3.InCatchRange state t
        · have hrange' : Fh3.InCatchRange state (rebindBlock target slot t) := hrange
          rw [if_pos hrange, if_pos hrange']
          rfl
        · have hrange' : ¬ Fh3.InCatchRange state (rebindBlock target slot t) := hrange
          rw [if_neg hrange, if_neg hrange']
          exact ih (home - 1)
    · rfl

theorem find?_rebind (fnBegin : Rva) :
    (hs.map (rebind target slot)).find? (fun h => h.handler == fnBegin) =
      (hs.find? fun h => h.handler == fnBegin).map (rebind target slot) := by
  rw [List.find?_map]
  congr 2
  funext h
  simp

theorem fh3_enter_rebind {imageBase : Ptr} {f : FunctionFrame} {ehInfo : FunctionEhInfo}
    {ci : CatchInfo} {m : Mem 64} : Fh3.enter imageBase f
      { ehInfo with tryBlocks := ehInfo.tryBlocks.map (rebindBlock target slot) } ci m =
        Fh3.enter imageBase f ehInfo ci m := by
  have hprimary : ∀ block : Option TryBlock, ∀ primary,
      Fh3.findPrimaryFramePtr f m (block.map (rebindBlock target slot)) primary =
        Fh3.findPrimaryFramePtr f m block primary := by
    intro block primary
    cases block with
    | none => rfl
    | some t =>
      simp only [Fh3.findPrimaryFramePtr, Option.map_some, rebindBlock, find?_rebind]
      cases t.catchHandlers.find? fun h => h.handler == f.fnBegin <;> simp
  have hlow : ∀ block : Option TryBlock,
      ((block.map (rebindBlock target slot)).map TryBlock.tryLow).getD (-1) =
        (block.map TryBlock.tryLow).getD (-1) := by
    intro block
    cases block <;> rfl
  simp only [Fh3.enter, Fh3.frameState, List.length_map, findHomeBlock_rebind]
  congr 1
  funext x
  split
  · rfl
  · cases Fh3.findHomeBlock ehInfo.tryBlocks x.1 (x.2 + 1).toNat x.2 with
    | error e => rfl
    | ok y => simp only [Functor.map, Except.map, bind, Except.bind, hprimary, hlow]

variable {env : Env} {frames : List Frame} {ci : CatchInfo} {throwInfo : Option ThrowInfo}
  {s s' : World 64} {primaryFramePtr fn self other : Ptr} {vb : Bool}

theorem fh3_matchHandlers_none
    (h : Fh3.matchHandlers env primaryFramePtr ci throwInfo hs s = .ok (none, s')) : s' = s := by
  induction hs generalizing s with
  | nil =>
    cases h
    rfl
  | cons hd hs ih =>
    simp only [Fh3.matchHandlers, bind_ok] at h
    obtain ⟨object, -, ⟨found, s₁⟩, hprocess, h⟩ := h
    cases found with
    | true => cases h
    | false =>
      obtain rfl := processCatchBlock_skip hprocess
      exact ih h

theorem fh3_matchHandlers_mem {hd : CatchHandler}
    (h : Fh3.matchHandlers env primaryFramePtr ci throwInfo hs s = .ok (some hd, s')) :
    hd ∈ hs := by
  induction hs generalizing s with
  | nil => cases h
  | cons hd' hs ih =>
    simp only [Fh3.matchHandlers, bind_ok] at h
    obtain ⟨object, -, ⟨found, s₁⟩, -, h⟩ := h
    cases found with
    | true =>
      cases h
      exact List.mem_cons_self
    | false => exact List.mem_cons_of_mem _ (ih h)

theorem fh3_matchHandlers_rebind {hd : CatchHandler}
    (h : Fh3.matchHandlers env primaryFramePtr ci throwInfo hs s = .ok (some hd, s'))
    (htarget : hd.handler = target) (hdistinct : (hs.map CatchHandler.handler).Nodup)
    (hcopy : s'.trace = s.trace ++ [copyCall vb fn self other]) :
    Fh3.matchHandlers env primaryFramePtr ci throwInfo (hs.map (rebind target slot)) s =
      .ok (some (rebind target slot hd),
        s.perform env.code (.reference (displace primaryFramePtr slot) other)) := by
  induction hs generalizing s with
  | nil => cases h
  | cons hd' hs ih =>
    simp only [Fh3.matchHandlers, bind_ok] at h
    obtain ⟨object, hobject, ⟨found, s₁⟩, hprocess, h⟩ := h
    rw [List.map_cons, Fh3.matchHandlers, hobject]
    simp only [bind, Except.bind]
    cases found with
    | true =>
      cases h
      obtain ⟨rfl, hreference⟩ := processCatchBlock_copy hprocess hcopy
      simp only [rebind, if_pos htarget, hreference]
      rfl
    | false =>
      obtain rfl := processCatchBlock_skip hprocess
      obtain ⟨hfresh, hdistinct⟩ := List.nodup_cons.mp hdistinct
      have hother : hd'.handler ≠ target := by
        rintro heq
        apply hfresh
        rw [heq, ← htarget]
        exact List.mem_map_of_mem (fh3_matchHandlers_mem h)
      have hkeep : rebind target slot hd' = hd' := if_neg hother
      rw [hkeep, hprocess]
      exact ih h hdistinct hcopy

def funclets (tryBlocks : List TryBlock) : List Rva :=
  tryBlocks.flatMap fun t => t.catchHandlers.map CatchHandler.handler

theorem fh3_matchTryBlocks_mem {entry : Fh3.Entry} {r : Fh3.Search} {hd : CatchHandler}
    (h : Fh3.matchTryBlocks env frames entry tryBlocks ci throwInfo s = .ok r)
    (hfound : r.found = some (t, hd)) : hd.handler ∈ funclets tryBlocks := by
  induction tryBlocks generalizing ci throwInfo s with
  | nil =>
    cases h
    cases hfound
  | cons t' ts ih =>
    rw [funclets, List.flatMap_cons, List.mem_append]
    rw [Fh3.matchTryBlocks] at h
    split at h
    · simp only [bind_ok] at h
      obtain ⟨⟨ci', throwInfo'⟩, -, ⟨handler, s₁⟩, hmatch, h⟩ := h
      cases handler with
      | none => exact .inr (ih h)
      | some hd' =>
        cases h
        cases hfound
        exact .inl (List.mem_map_of_mem (fh3_matchHandlers_mem hmatch))
    · exact .inr (ih h)

theorem fh3_matchTryBlocks_none {entry : Fh3.Entry} {r : Fh3.Search}
    (h : Fh3.matchTryBlocks env frames entry tryBlocks ci throwInfo s = .ok r)
    (hfound : r.found = none) : r.world = s := by
  induction tryBlocks generalizing ci throwInfo s with
  | nil =>
    cases h
    rfl
  | cons t' ts ih =>
    rw [Fh3.matchTryBlocks] at h
    split at h
    · simp only [bind_ok] at h
      obtain ⟨⟨ci', throwInfo'⟩, -, ⟨handler, s₁⟩, hmatch, h⟩ := h
      cases handler with
      | none =>
        obtain rfl := fh3_matchHandlers_none hmatch
        exact ih h
      | some hd' =>
        cases h
        cases hfound
    · exact ih h

theorem fh3_matchTryBlocks_rebind (slot : Rva) {frames' : List Frame}
    (hframes : probeUnless env.infoAt frames' = probeUnless env.infoAt frames) {entry : Fh3.Entry}
    {r : Fh3.Search} {hd : CatchHandler}
    (h : Fh3.matchTryBlocks env frames entry tryBlocks ci throwInfo s = .ok r)
    (hfound : r.found = some (t, hd)) (htarget : hd.handler = target)
    (hdistinct : (funclets tryBlocks).Nodup)
    (hcopy : r.world.trace = s.trace ++ [copyCall vb fn self other]) :
    Fh3.matchTryBlocks env frames' entry (tryBlocks.map (rebindBlock target slot)) ci throwInfo s =
      .ok ⟨r.catchInfo,
        s.perform env.code (.reference (displace entry.primaryFramePtr slot) other),
        some (rebindBlock target slot t, rebind target slot hd)⟩ := by
  induction tryBlocks generalizing ci throwInfo s with
  | nil =>
    cases h
    cases hfound
  | cons t' ts ih =>
    rw [funclets, List.flatMap_cons] at hdistinct
    obtain ⟨hfirst, hrest, hapart⟩ := List.nodup_append.mp hdistinct
    rw [Fh3.matchTryBlocks] at h
    rw [List.map_cons, Fh3.matchTryBlocks]
    split at h
    · rename_i hrange
      have hrange' : (rebindBlock target slot t').tryLow ≤ entry.state ∧
          entry.state ≤ (rebindBlock target slot t').tryHigh ∧
          ¬ (rebindBlock target slot t').tryLow < entry.funcletLowState := hrange
      simp only [bind_ok] at h
      obtain ⟨⟨ci', throwInfo'⟩, hprobe, ⟨handler, s₁⟩, hmatch, h⟩ := h
      rw [if_pos hrange', hframes, hprobe]
      simp only [bind, Except.bind, rebindBlock]
      cases handler with
      | none =>
        obtain rfl := fh3_matchHandlers_none hmatch
        have hother : ∀ x ∈ t'.catchHandlers, x.handler ≠ target := by
          rintro x hx heq
          apply hapart _ (List.mem_map_of_mem hx) _ (fh3_matchTryBlocks_mem h hfound)
          rw [heq, htarget]
        rw [rebind_other hother, hmatch]
        exact ih h hrest hcopy
      | some hd' =>
        cases h
        cases hfound
        rw [fh3_matchHandlers_rebind hmatch htarget hfirst hcopy]
        rfl
    · rename_i hrange
      have hrange' : ¬ ((rebindBlock target slot t').tryLow ≤ entry.state ∧
          entry.state ≤ (rebindBlock target slot t').tryHigh ∧
          ¬ (rebindBlock target slot t').tryLow < entry.funcletLowState) := hrange
      rw [if_neg hrange']
      exact ih h hrest hcopy

theorem fh3_select_rebind {frames' : List Frame}
    (hframes : probeUnless env.infoAt frames' = probeUnless env.infoAt frames) {f : FunctionFrame}
    {ehInfo : FunctionEhInfo} {d : Dispatch}
    {c : Selection} (h : Fh3.select env frames f ehInfo d = .ok c)
    (htarget : c.dispatch.handler = displace env.imageBase target)
    (hdistinct : (funclets ehInfo.tryBlocks).Nodup)
    (hcopy : c.dispatch.world.trace = d.world.trace ++ [copyCall vb fn self other]) :
    Fh3.select env frames' f
        { ehInfo with tryBlocks := ehInfo.tryBlocks.map (rebindBlock target slot) } d =
      .ok { c with dispatch := { c.dispatch with
        world := d.world.perform env.code
          (.reference (displace c.primaryFramePtr slot) other) } } := by
  obtain ⟨entry, r, henter, hsearch, hnoexcept, hlow, rfl⟩ := Fh3.select_ok.mp h
  simp only [Fh3.search, bind_ok] at hsearch
  obtain ⟨throwInfo, hinfo, hsearch⟩ := hsearch
  split at hsearch
  · cases hsearch
  rename_i hhome
  cases hfound : r.found with
  | none =>
    simp only [Fh3.Search.dispatch, hfound, fh3_matchTryBlocks_none hsearch hfound] at hcopy
    simp at hcopy
  | some x =>
    obtain ⟨t, hd⟩ := x
    simp only [Fh3.Search.dispatch, hfound] at htarget hcopy
    have hsub : (funclets (ehInfo.tryBlocks.drop (entry.homeBlockIndex + 1).toNat)).Nodup := by
      rw [← List.take_append_drop (entry.homeBlockIndex + 1).toNat ehInfo.tryBlocks, funclets,
        List.flatMap_append] at hdistinct
      exact (List.nodup_append.mp hdistinct).2.1
    have hrebind := fh3_matchTryBlocks_rebind slot hframes hsearch hfound
      (displace_inj.mp htarget) hsub hcopy
    apply Fh3.select_ok.mpr
    refine ⟨entry, ⟨r.catchInfo,
      d.world.perform env.code (.reference (displace entry.primaryFramePtr slot) other),
      some (rebindBlock target slot t, rebind target slot hd)⟩,
      fh3_enter_rebind.trans henter, ?_, ?_, ?_, ?_⟩
    · simp only [Fh3.search, hinfo, bind, Except.bind, if_neg hhome, ← List.map_drop]
      exact hrebind
    · simp
    · simp only [Fh3.Search.targetState, hfound] at hlow ⊢
      exact hlow
    · simp only [Fh3.Search.dispatch, Fh3.Search.targetState, hfound, rebind_handler]
      rfl

end

def rebindRecord (target slot : Rva) (b : Fh4.CatchBlock) : Fh4.CatchBlock :=
  if b.handler = target then
    { b with typeFlags := b.typeFlags ||| CatchFlag.isReference, catchVar := slot }
  else b

def rebindMapBlock (target slot : Rva) (t : MapBlock) : MapBlock :=
  { t with handlers := t.handlers.map (rebindRecord target slot) }

def recordFunclets (tryBlocks : List MapBlock) : List Rva :=
  tryBlocks.flatMap fun t => t.handlers.map Fh4.CatchBlock.handler

section

variable {target slot : Rva} {blocks : List Fh4.CatchBlock} {tryBlocks : List MapBlock} {env : Env}
  {frames : List Frame} {throwInfo : Option ThrowInfo} {primaryFramePtr fn self other : Ptr}
  {vb : Bool} {tryLow : BitVec 32} {d d' : Dispatch} {state : Int} {r r' : Fh4.Search}

theorem rebindRecord_other (h : ∀ b ∈ blocks, b.handler ≠ target) :
    blocks.map (rebindRecord target slot) = blocks := by
  have heq : blocks.map (rebindRecord target slot) = blocks.map id :=
    List.map_congr_left fun b hb => if_neg (h b hb)
  rw [heq, List.map_id]

theorem takeHandlers_none
    (h : takeHandlers env primaryFramePtr throwInfo tryLow blocks d = .ok (d', false)) :
    d'.world = d.world ∧ d'.handler = d.handler := by
  induction blocks generalizing d with
  | nil =>
    cases h
    exact ⟨rfl, rfl⟩
  | cons b bs ih =>
    simp only [takeHandlers, bind_ok] at h
    obtain ⟨ci, -, object, -, ⟨found, s⟩, hprocess, h⟩ := h
    cases found with
    | true => cases h
    | false =>
      obtain rfl := processCatchBlock_skip hprocess
      exact ih (d := ⟨ci, d.handler, d.world⟩) h

theorem takeHandlers_mem
    (h : takeHandlers env primaryFramePtr throwInfo tryLow blocks d = .ok (d', true)) :
    ∃ b ∈ blocks, d'.handler = displace env.imageBase b.handler := by
  induction blocks generalizing d with
  | nil => cases h
  | cons b bs ih =>
    simp only [takeHandlers, bind_ok] at h
    obtain ⟨ci, -, object, -, ⟨found, s⟩, -, h⟩ := h
    cases found with
    | true =>
      cases h
      exact ⟨b, List.mem_cons_self, rfl⟩
    | false =>
      obtain ⟨b', hmem, hhandler⟩ := ih h
      exact ⟨b', List.mem_cons_of_mem _ hmem, hhandler⟩

theorem takeHandlers_rebind
    (h : takeHandlers env primaryFramePtr throwInfo tryLow blocks d = .ok (d', true))
    (htarget : d'.handler = displace env.imageBase target)
    (hdistinct : (blocks.map Fh4.CatchBlock.handler).Nodup)
    (hcopy : d'.world.trace = d.world.trace ++ [copyCall vb fn self other]) :
    takeHandlers env primaryFramePtr throwInfo tryLow (blocks.map (rebindRecord target slot)) d =
      .ok ({ d' with
        world := d.world.perform env.code (.reference (displace primaryFramePtr slot) other) },
        true) := by
  induction blocks generalizing d with
  | nil => cases h
  | cons b bs ih =>
    simp only [takeHandlers, bind_ok] at h
    obtain ⟨ci, hci, object, hobject, ⟨found, s⟩, hprocess, h⟩ := h
    rw [List.map_cons, takeHandlers]
    cases found with
    | true =>
      cases h
      obtain ⟨rfl, hreference⟩ := processCatchBlock_copy hprocess hcopy
      simp only [rebindRecord, if_pos (displace_inj.mp htarget), hci, hobject, hreference, bind,
        Except.bind]
      rfl
    | false =>
      obtain rfl := processCatchBlock_skip hprocess
      obtain ⟨hfresh, hdistinct⟩ := List.nodup_cons.mp hdistinct
      have hother : b.handler ≠ target := by
        rintro heq
        obtain ⟨b', hmem, hhandler⟩ := takeHandlers_mem h
        apply hfresh
        rw [heq, displace_inj.mp (htarget.symm.trans hhandler)]
        exact List.mem_map_of_mem hmem
      have hkeep : rebindRecord target slot b = b := if_neg hother
      simp only [hkeep, hci, hobject, hprocess, bind, Except.bind]
      exact ih h hdistinct hcopy

theorem takeTryBlocks_mem
    (h : takeTryBlocks env frames primaryFramePtr state tryBlocks throwInfo r = .ok r')
    (hnull : r.dispatch.handler = null) (hhandler : r'.dispatch.handler ≠ null) :
    ∃ fn ∈ recordFunclets tryBlocks, r'.dispatch.handler = displace env.imageBase fn := by
  induction tryBlocks generalizing throwInfo r with
  | nil =>
    cases h
    exact absurd hnull hhandler
  | cons t ts ih =>
    have hrest : ∀ fn, fn ∈ recordFunclets ts → fn ∈ recordFunclets (t :: ts) := by
      intro fn hfn
      rw [recordFunclets, List.flatMap_cons]
      exact List.mem_append_right _ hfn
    rw [takeTryBlocks] at h
    split at h
    · obtain ⟨fn, hfn, heq⟩ := ih h hnull
      exact ⟨fn, hrest fn hfn, heq⟩
    · simp only [bind_ok] at h
      obtain ⟨⟨ci, throwInfo'⟩, -, ⟨d, found⟩, htake, h⟩ := h
      split at h
      · cases h
        cases found with
        | true =>
          obtain ⟨b, hmem, heq⟩ := takeHandlers_mem htake
          refine ⟨b.handler, ?_, heq⟩
          rw [recordFunclets, List.flatMap_cons]
          exact List.mem_append_left _ (List.mem_map_of_mem hmem)
        | false => exact absurd ((takeHandlers_none htake).2.trans hnull) hhandler
      · rename_i hnone
        obtain ⟨fn, hfn, heq⟩ := ih h (not_not.mp hnone)
        exact ⟨fn, hrest fn hfn, heq⟩

theorem takeTryBlocks_rebind {frames' : List Frame}
    (hframes : probeUnless env.infoAt frames' = probeUnless env.infoAt frames)
    (hmapped : Mapped env.imageBase)
    (h : takeTryBlocks env frames primaryFramePtr state tryBlocks throwInfo r = .ok r')
    (hnull : r.dispatch.handler = null)
    (htarget : r'.dispatch.handler = displace env.imageBase target)
    (hdistinct : (recordFunclets tryBlocks).Nodup)
    (hcopy : r'.dispatch.world.trace = r.dispatch.world.trace ++ [copyCall vb fn self other]) :
    takeTryBlocks env frames' primaryFramePtr state (tryBlocks.map (rebindMapBlock target slot))
        throwInfo r =
      .ok { r' with dispatch := { r'.dispatch with
        world := r.dispatch.world.perform env.code
          (.reference (displace primaryFramePtr slot) other) } } := by
  have hhandler : r'.dispatch.handler ≠ null := htarget ▸ hmapped target
  induction tryBlocks generalizing throwInfo r with
  | nil =>
    cases h
    exact absurd hnull hhandler
  | cons t ts ih =>
    rw [recordFunclets, List.flatMap_cons] at hdistinct
    obtain ⟨hfirst, hrest, hapart⟩ := List.nodup_append.mp hdistinct
    rw [takeTryBlocks] at h
    rw [List.map_cons, takeTryBlocks]
    split at h
    · rename_i hrange
      have hrange' : (rebindMapBlock target slot t).tryLow.toNat > state.toNat ∨
          state.toNat > (rebindMapBlock target slot t).tryHigh.toNat := hrange
      rw [if_pos hrange']
      exact ih h hnull hrest hcopy
    · rename_i hrange
      have hrange' : ¬ ((rebindMapBlock target slot t).tryLow.toNat > state.toNat ∨
          state.toNat > (rebindMapBlock target slot t).tryHigh.toNat) := hrange
      simp only [bind_ok] at h
      obtain ⟨⟨ci, throwInfo'⟩, hprobe, ⟨d, found⟩, htake, h⟩ := h
      rw [if_neg hrange', hframes, hprobe]
      simp only [bind, Except.bind, rebindMapBlock]
      cases found with
      | true =>
        obtain ⟨b, -, hb⟩ := takeHandlers_mem htake
        have hd : d.handler ≠ null := hb ▸ hmapped b.handler
        simp only [if_pos hd] at h
        cases h
        simp only [takeHandlers_rebind htake htarget hfirst hcopy, if_pos hd]
        rfl
      | false =>
        obtain ⟨hworld, hkeep⟩ := takeHandlers_none htake
        have hd : ¬ d.handler ≠ null := not_not.mpr (hkeep.trans hnull)
        simp only [if_neg hd] at h
        have hother : ∀ b ∈ t.handlers, b.handler ≠ target := by
          rintro b hb heq
          obtain ⟨fn, hfn, hhandler'⟩ := takeTryBlocks_mem h (not_not.mp hd) hhandler
          apply hapart _ (List.mem_map_of_mem hb) _ hfn
          rw [heq, displace_inj.mp (htarget.symm.trans hhandler')]
        have hmove := ih h (not_not.mp hd) hrest (hworld ▸ hcopy)
        simp only [rebindRecord_other hother, htake, if_neg hd]
        rw [hmove, hworld]

theorem fh4_select_rebind {frames' : List Frame}
    (hframes : probeUnless env.infoAt frames' = probeUnless env.infoAt frames) {f : FunctionFrame}
    {ehInfo : Fh4.EhInfo} {blockMap : Rva}
    {ehData : EhData} {c : Selection} (hmapped : Mapped env.imageBase)
    (h : Fh4.select env frames f ehInfo d = .ok c) (hnull : d.handler = null)
    (htarget : c.dispatch.handler = displace env.imageBase target)
    (hdistinct : (recordFunclets (tryBlocksOf env.image env.imageBase f.fnBegin ehInfo)).Nodup)
    (hcopy : c.dispatch.world.trace = d.world.trace ++ [copyCall vb fn self other])
    (hmap : blockMap ≠ 0) (hrebind : tryBlocksOf env.image env.imageBase f.fnBegin
        { ehInfo with tryBlocks := blockMap } =
      (tryBlocksOf env.image env.imageBase f.fnBegin ehInfo).map (rebindMapBlock target slot)) :
    Fh4.select env frames' { f with ehData := ehData } { ehInfo with tryBlocks := blockMap } d =
      .ok { c with dispatch := { c.dispatch with
        world := d.world.perform env.code
          (.reference (displace c.primaryFramePtr slot) other) } } := by
  obtain ⟨primaryFramePtr, state, r, henter, hsearch, rfl⟩ := Fh4.select_ok.mp h
  apply Fh4.select_ok.mpr
  refine ⟨primaryFramePtr, state, { r with dispatch := { r.dispatch with
    world := d.world.perform env.code
      (.reference (displace primaryFramePtr slot) other) } }, henter, ?_, rfl⟩
  by_cases hstate : ehInfo.tryBlocks ≠ 0 ∧ 0 ≤ state
  · rw [search_tryBlocksOf hstate.2 hstate.1] at hsearch
    obtain ⟨throwInfo, hinfo, hsearch⟩ := bind_ok.mp hsearch
    rw [search_tryBlocksOf hstate.2 (by exact hmap), hinfo]
    simp only [bind, Except.bind, hrebind]
    exact takeTryBlocks_rebind hframes hmapped hsearch hnull htarget hdistinct hcopy
  · rw [Fh4.search, if_neg hstate] at hsearch
    cases hsearch
    exact absurd (htarget.symm.trans hnull) (hmapped target)

end

/-- The function with another handler: the one with the given funclet takes a reference. -/
def ByReference (env : Env) (f : FunctionFrame) (target slot : Rva) (ehData : EhData) : Prop :=
  match f.ehData with
  | .none => False
  | .fh3 ehInfo => ehData = .fh3
    { ehInfo with tryBlocks := ehInfo.tryBlocks.map (rebindBlock target slot) }
  | .fh4 funcInfo => ∃ funcInfo' blockMap, ehData = .fh4 funcInfo' ∧ blockMap ≠ 0 ∧
    Fh4.ehInfoOf env { f with ehData := ehData } funcInfo' =
      { Fh4.ehInfoOf env f funcInfo with tryBlocks := blockMap } ∧
    tryBlocksOf env.image env.imageBase f.fnBegin
        { Fh4.ehInfoOf env f funcInfo with tryBlocks := blockMap } =
      (tryBlocksOf env.image env.imageBase f.fnBegin (Fh4.ehInfoOf env f funcInfo)).map
        (rebindMapBlock target slot)

def funcletsOf (env : Env) (f : FunctionFrame) : List Rva :=
  match f.ehData with
  | .none => []
  | .fh3 ehInfo => funclets ehInfo.tryBlocks
  | .fh4 funcInfo => recordFunclets
    (tryBlocksOf env.image env.imageBase f.fnBegin (Fh4.ehInfoOf env f funcInfo))

/-- Where the search calls a copy constructor, it would bind the reference, and leave the
same cleanup to do. -/
theorem selects_rebind {env : Env} {frames frames' : List Frame}
    (hframes : probeUnless env.infoAt frames' = probeUnless env.infoAt frames) {f : FunctionFrame}
    {ehData : EhData}
    {target slot : Rva} {d : Dispatch} {c : Selection} {actions : List Action} {vb : Bool}
    {fn self other : Ptr} (hmapped : Mapped env.imageBase) (hnull : d.handler = null)
    (hselects : Selects env frames f d c actions)
    (htarget : c.dispatch.handler = displace env.imageBase target)
    (hdistinct : (funcletsOf env f).Nodup)
    (hcopy : c.dispatch.world.trace = d.world.trace ++ [copyCall vb fn self other])
    (href : ByReference env f target slot ehData) :
    Selects env frames' { f with ehData := ehData } d
      { c with dispatch := { c.dispatch with
        world := d.world.perform env.code
          (.reference (displace c.primaryFramePtr slot) other) } } actions := by
  cases hdata : f.ehData with
  | none => simp only [Selects, hdata] at hselects
  | fh3 ehInfo =>
    simp only [Selects, ByReference, funcletsOf, hdata] at hselects href hdistinct
    subst href
    exact ⟨fh3_select_rebind hframes hselects.1 htarget hdistinct hcopy, hselects.2⟩
  | fh4 funcInfo =>
    simp only [Selects, ByReference, funcletsOf, hdata] at hselects href hdistinct
    obtain ⟨funcInfo', blockMap, rfl, hmap, hinfo, hrebind⟩ := href
    simp only [Selects, hinfo]
    exact ⟨fh4_select_rebind hframes hmapped hselects.1 hnull htarget hdistinct hcopy hmap hrebind,
      hselects.2⟩

end Vcrtl.X64.Rebinding

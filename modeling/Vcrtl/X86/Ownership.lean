import Vcrtl.X86.Invariant

namespace Vcrtl.X86.Ownership

open Lib.Custody Lib.Links Lib.Runs BugCheck EhStructs ThrowFrame Steps Invariant

variable {target : Slot Ptr ThrowInfo → Prop}

def audible (ti : ThrowInfo) : Bool := ti.destroyExcObj != null

/-- The catch-frame handler is called for the very frame that the throw frame
is already linked to, and that frame owns its exception. -/
def TakesEarly (s : State) : Event → Prop
  | .enter =>
    match s.stack with
    | .throwing _ tf _ _ :: .catching a frame _ :: _ =>
      tf.exceptionObjectOrLink = a ∧ frame.throwInfoIfOwner.isSome = true
    | _ => False
  | _ => False

theorem takesEarly_enter {s : State} {e : Event} (h : TakesEarly s e) : e = .enter := by
  cases e with
  | enter => rfl
  | _ => exact h.elim

abbrev KeptBy (s : State) : Prop :=
  Kept audible (frameAddrs s.stack) (owners (slots slot s.stack)) s.record

theorem objects_destroyed {tf : CxxThrowFrame} {a : Ptr} {n : Nat} {b : Bool} :
    (cxxDestroyThrowFrame tf).map DestroyCall.object =
      doomed audible ⟨a, tf.exceptionObjectOrLink, tf.throwInfoIfOwner, n, b⟩ := by
  apply eq_doomed
  · intro hi
    simp_all [cxxDestroyThrowFrame]
  · intro ti hi
    by_cases hd : ti.destroyExcObj = null <;> simp_all [cxxDestroyThrowFrame, audible]

theorem kept_finish {tf : CxxThrowFrame} {a : Ptr} {n : Nat} {b : Bool} {as : List Ptr}
    {st : List (Slot Ptr ThrowInfo)} {r : Record Ptr ThrowInfo}
    (h : Kept audible as
      (owners (⟨a, tf.exceptionObjectOrLink, tf.throwInfoIfOwner, n, b⟩ :: st)) r) :
    Kept audible as (owners st) (destroyAll r (cxxDestroyThrowFrame tf)) := by
  rw [destroyAll, objects_destroyed]
  exact kept_doomed h

theorem kept_link {addr p : Ptr} {tf : CxxThrowFrame} {n : Nat} {inside inside' : Bool}
    {stack : List Cell} {r : Record Ptr ThrowInfo}
    (hk : KeptBy ⟨.throwing addr tf n inside :: stack, r⟩) (hn : tf.throwInfoIfOwner = none) :
    KeptBy ⟨.throwing addr { tf with exceptionObjectOrLink := p } n inside' :: stack, r⟩ := by
  simp only [KeptBy, slots_throwing] at hk ⊢
  rw [owners_cons_none hn] at hk ⊢
  exact hk

theorem enter_kept {addr a : Ptr} {tf frame : CxxThrowFrame} {n m : Nat} {stack : List Cell}
    {r : Record Ptr ThrowInfo}
    (hi : Inv target ⟨.throwing addr tf n false :: .catching a frame m :: stack, r⟩)
    (hk : KeptBy ⟨.throwing addr tf n false :: .catching a frame m :: stack, r⟩)
    (hearly : ¬ (tf.exceptionObjectOrLink = a ∧ frame.throwInfoIfOwner.isSome = true)) :
    KeptBy
      ⟨.throwing addr (enterCatchFrame a frame tf) n true :: .catching a frame m :: stack, r⟩ := by
  simp only [enterCatchFrame]
  by_cases ha : tf.exceptionObjectOrLink = a
  · have hnone := head_link hi ha
    have hframe : frame.throwInfoIfOwner = none := by
      simpa [ha] using hearly
    have htf : ({ tf with
        exceptionObjectOrLink := frame.exceptionObjectOrLink
        throwInfoIfOwner := frame.throwInfoIfOwner } : CxxThrowFrame) =
        { tf with exceptionObjectOrLink := frame.exceptionObjectOrLink } := by
      rw [hframe, ← hnone]
    rw [if_pos ha, htf]
    exact kept_link hk hnone
  · rw [if_neg ha]
    split
    · exact kept_link hk (head_null hi (by assumption))
    · exact hk

theorem leave_kept {addr a : Ptr} {tf tf' frame : CxxThrowFrame} {n m : Nat}
    {stack rest : List Cell} {r : Record Ptr ThrowInfo} {calls : List DestroyCall}
    (hi : Inv target ⟨.throwing addr tf n true :: .catching a frame m :: stack, r⟩)
    (hk : KeptBy ⟨.throwing addr tf n true :: .catching a frame m :: stack, r⟩)
    (h : leaveCatchFrame a frame tf = (tf', calls)) (hslots : slots slot rest = slots slot stack)
    (haddrs : (frameAddrs rest).Sublist (a :: frameAddrs stack)) :
    KeptBy ⟨.throwing addr tf' n false :: rest, destroyAll r calls⟩ := by
  have hsub : (frameAddrs (.throwing addr tf' n false :: rest)).Sublist
      (frameAddrs (.throwing addr tf n true :: .catching a frame m :: stack)) :=
    haddrs.cons_cons _
  simp only [leaveCatchFrame] at h
  split at h
  · rename_i ha
    have hnone := head_link hi ha
    cases h
    apply hk.perm hsub
    apply List.Perm.of_eq
    rw [slots_throwing, slots_throwing, owners_cons_none hnone, hslots]
    rfl
  · cases h
    have hk' := kept_finish (hk.perm hsub (owners_swap _ _ _))
    simp only [KeptBy, slots_throwing, hslots]
    exact hk'

theorem step_kept {s t : State} {e : Event} (h : Step s e t) (hi : Inv target s)
    (hearly : ¬ TakesEarly s e) (hk : KeptBy s) : KeptBy t := by
  cases h with
  | call | ret | skip => exact hk
  | throwNew _ addr obj ti hframe hobj hne =>
    exact hk.arrive hframe.2.1 hframe.2.2 hobj.2.1 hobj.2.2 hne
  | rethrow _ _ _ hframe => exact hk.enter hframe.2.1 hframe.2.2
  | search addr tf n inside stack r v handler tf' hat h =>
    obtain ⟨-, rfl⟩ | ⟨h0, c, a, -, -, -, rfl⟩ := search_spec hi h
    · exact hk
    · exact kept_link hk (head_null hi h0)
  | enter => exact enter_kept hi hk hearly
  | land _ _ _ _ _ _ tf' hsame | landInside _ _ _ _ _ _ _ _ tf' hsame =>
    simp only [KeptBy, slots_catching, hsame.1, hsame.2]
    exact hk
  | leave _ _ _ _ _ _ _ _ _ h => exact leave_kept hi hk h rfl (.cons _ (.refl _))
  | destroy _ _ _ _ _ _ _ _ _ _ h => exact leave_kept hi hk h rfl (.refl _)
  | advance => exact hk.perm (.cons_cons _ (.cons _ (.refl _))) (.refl _)
  | finish => exact kept_finish (hk.perm (.cons _ (.refl _)) (.refl _))

/-- No exception has two owners, and each is destroyed once, when no throw or
handler is about it any more. -/
structure Once (s : State) : Prop where
  apart : ((owners (slots slot s.stack)).map Prod.fst).Nodup
  owned : ∀ c ∈ s.stack, ∀ tf n ti, throwFrame c = some tf → subject c = some n →
    tf.throwInfoIfOwner = some ti → s.record.thrown[n]? = some (tf.exceptionObjectOrLink, ti)
  linked : ∀ pre c rest tf n, s.stack = pre ++ c :: rest → throwFrame c = some tf →
    subject c = some n → tf.throwInfoIfOwner = none → tf.exceptionObjectOrLink ≠ null →
    ∃ g, .catching tf.exceptionObjectOrLink g n ∈ rest
  pending : ∀ pre c rest tf n, s.stack = pre ++ c :: rest → throwFrame c = some tf →
    subject c = some n → tf.exceptionObjectOrLink = null → current (slots slot (c :: rest)) = some n
  kept : ∀ c ∈ s.stack, ∀ n, subject c = some n → s.record.log.count (some n) = 0
  destroyed : ∀ n o ti, s.record.thrown[n]? = some (o, ti) → ti.destroyExcObj ≠ null →
    (∀ c ∈ s.stack, subject c ≠ some n) → s.record.log.count (some n) = 1
  logged : ∀ x ∈ s.record.log, ∃ n o ti, x = some n ∧ s.record.thrown[n]? = some (o, ti) ∧
    ti.destroyExcObj ≠ null

abbrev Any (_ : Slot Ptr ThrowInfo) : Prop := True

theorem throwFrame_of_subject {c : Cell} {n : Nat} (h : subject c = some n) :
    ∃ tf, throwFrame c = some tf := by
  cases c with
  | function f | closing addr tf => cases h
  | throwing addr tf m inside | catching addr tf m => exact ⟨tf, rfl⟩

theorem subject_of_slot {c : Cell} {x : Slot Ptr ThrowInfo} (h : slot c = some x) :
    subject c = some x.subject := by
  cases c with
  | function f | closing addr tf => cases h
  | throwing addr tf m inside | catching addr tf m => exact congrArg (Option.map Slot.subject) h

theorem inv_once {s : State} (hi : Inv target s) (hk : KeptBy s) : Once s := by
  refine ⟨hk.owners_nodup, ?_, ?_, fun pre c rest tf n => inv_pending hi, ?_, ?_, ?_⟩
  · intro c hm tf n ti hc hn ht
    obtain ⟨x, hx, hr, hxt, rfl⟩ := slot_of_throwFrame hc hn
    exact hr ▸ (hi.linked.owner (mem_slots.mpr ⟨c, hm, hx⟩) (hxt.trans ht)).2.2
  · intro pre c rest tf n hs hc hn ht h0
    obtain ⟨g, -, hg, -⟩ := inv_link hi hs hc hn ht h0
    exact ⟨g, hg⟩
  · intro c hm n hn
    obtain ⟨tf, hc⟩ := throwFrame_of_subject hn
    obtain ⟨x, hx, -, -, rfl⟩ := slot_of_throwFrame hc hn
    obtain ⟨g, hg, ho, hgn⟩ := hi.linked.kept (mem_slots.mpr ⟨c, hm, hx⟩)
    obtain ⟨ti, hti⟩ := Option.isSome_iff_exists.mp ho
    have hhas := hgn ▸ (hi.linked.owner hg hti).2
    exact hk.spared hhas.2 ⟨_, mem_owners.mpr ⟨g, hg, rfl, hti⟩, hhas.1⟩
  · intro n o ti hn hd hno
    have hunowned : ¬ ∃ q ∈ owners (slots slot s.stack), s.record.occupant q.1 = some n := by
      rintro ⟨q, hq, hqn⟩
      obtain ⟨x, hx, hr, ht⟩ := mem_owners.mp hq
      obtain ⟨c, hc, hcx⟩ := mem_slots.mp hx
      have hocc : s.record.occupant x.ref = some x.subject := (hi.linked.owner hx ht).2.1
      rw [hr, hqn] at hocc
      exact hno c hc ((subject_of_slot hcx).trans hocc.symm)
    exact hk.ended hn (by simpa [audible] using hd) hunowned
  · intro x hx
    obtain ⟨n, ⟨o, ti⟩, rfl, hn, hd⟩ := hk.audible_of_logged hx
    exact ⟨n, o, ti, rfl, hn, by simpa [audible] using hd⟩

/-- Taking over what the frame still owns makes two owners of one exception. -/
theorem spoil_once {s t : State} {e : Event} (hi : Inv target s) (h : Step s e t)
    (hbad : ¬ (LinksTo Any s e ∧ ¬ TakesEarly s e)) : ¬ Once t := by
  intro honce
  by_cases hearly : TakesEarly s e
  · cases h with
    | enter addr tf n a frame m stack r =>
      obtain ⟨ha, ho⟩ := hearly
      obtain ⟨ti, hti⟩ := Option.isSome_iff_exists.mp ho
      have hapart := honce.apart
      rw [enterCatchFrame, if_pos ha, slots_throwing, slots_catching, owners_cons_some hti,
        owners_cons_some hti] at hapart
      exact (List.nodup_cons.mp hapart).1 (by simp)
    | call | ret | throwNew | rethrow | search | skip | land | landInside | leave | destroy
    | advance | finish => exact hearly
  · have hlinks : ¬ LinksTo Any s e := fun hl => hbad ⟨hl, hearly⟩
    simp only [LinksTo, not_forall] at hlinks
    obtain ⟨c, hc, hno⟩ := hlinks
    obtain ⟨addr, tf, n, inside, rest, hs, ht, h0, ha, hm, hn⟩ := linked_to hi h hc
    obtain ⟨g, hg⟩ := honce.linked [] _ rest tf n hs rfl rfl ht h0
    cases eq_of_frameAddr hn hm hg ha rfl
    exact hno ⟨_, rfl, trivial⟩

/-- In a run every exception is destroyed once and in time exactly if the
catch-frame handler never starts with a throw that is already linked to the
owning frame it is called for, and no throw is linked to a frame whose exception
is being destroyed. -/
theorem run_once_iff {tr : List (State × Event)} {s : State} (h : Run Step .initial tr s) :
    Throughout Once tr s ↔ ∀ p ∈ tr, LinksTo Any p.1 p.2 ∧ ¬ TakesEarly p.1 p.2 := by
  have hclean : ∀ s e t, Inv Any s ∧ KeptBy s → Step s e t → LinksTo Any s e ∧ ¬ TakesEarly s e →
      Inv Any t ∧ KeptBy t :=
    fun s e t hi hst hc => ⟨step_inv hst hc.1 hi.1, step_kept hst hi.1 hc.2 hi.2⟩
  have hspoil : ∀ s e t, Inv Any s ∧ KeptBy s → Step s e t →
      ¬ (LinksTo Any s e ∧ ¬ TakesEarly s e) → ¬ Once t :=
    fun s e t hi => spoil_once hi.1
  exact run_iff ⟨inv_initial, kept_empty⟩ (fun s hi => inv_once hi.1 hi.2) hclean hspoil h

theorem run_once_unprobed : ∃ tr s, Run Step .initial tr s ∧ s.record.log = [some 0] ∧
    Throughout Once tr s := by
  obtain ⟨tr, h, hclean⟩ := run_inHandler
  have h := h.snoc (.rethrow _ 0x1000 0 ⟨by decide, by decide, by decide⟩ rfl)
  have h := h.snoc (.skip _ _ _ _ _ _)
  have h := h.snoc (.enter _ _ _ _ _ _ _ _)
  have h := h.snoc (.leave _ _ _ _ _ _ _ _ _ rfl)
  have h := h.snoc (.land _ _ _ _ _ _ _ ⟨rfl, rfl⟩)
  have h := h.snoc (.finish _ _ _ _ _)
  have hearlier : ∀ p ∈ tr, LinksTo Any p.1 p.2 ∧ ¬ TakesEarly p.1 p.2 := fun p hp =>
    ⟨linksTo_none (hclean p hp).1, fun htakes => (hclean p hp).2 (takesEarly_enter htakes)⟩
  refine ⟨_, _, h, rfl, (run_once_iff h).mpr ?_⟩
  simp only [List.forall_mem_append, List.forall_mem_singleton]
  refine ⟨⟨⟨⟨⟨⟨hearlier, ?_⟩, ?_⟩, ?_⟩, ?_⟩, ?_⟩, ?_⟩ <;>
    simp [LinksTo, linkTarget, TakesEarly, slot, initThrowFrame, null]

/-- A rethrow that was probed is destroyed by the frame it was taken from and
again by the handler that catches it. -/
theorem probed_rethrow_destroyed_twice : ∃ tr s, Run Step .initial tr s ∧
    s.record.log = [some 0, some 0] ∧ ¬ Throughout Once tr s := by
  obtain ⟨tr, h, -⟩ := run_inHandler
  have h := h.snoc (.rethrow _ 0x1000 0 ⟨by decide, by decide, by decide⟩ rfl)
  have h := h.snoc (.search _ _ _ _ _ _ safeHandlers 0x20 (initThrowFrame 0x3000 none) trivial rfl)
  have h := h.snoc (.skip _ _ _ _ _ _)
  have h := h.snoc (.enter _ _ _ _ _ _ _ _)
  have h := h.snoc (.destroy _ _ _ _ _ _ _ _ _ _ rfl (by decide))
  have h := h.snoc (.advance _ _ _ _ _ _ _)
  have h := h.snoc (.land _ _ _ _ _ _ _ ⟨rfl, rfl⟩)
  have h := h.snoc (.finish _ _ _ _ _)
  refine ⟨_, _, h, rfl, fun hres => ?_⟩
  have hcount := hres.2.destroyed 0 0x2000 destructible rfl (by decide) (by simp [subject])
  exact absurd hcount (by decide)

end Vcrtl.X86.Ownership

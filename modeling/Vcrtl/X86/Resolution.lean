import Vcrtl.X86.Invariant

namespace Vcrtl.X86.Resolution

open Lib.Custody Lib.Links Lib.Runs BugCheck EhStructs ThrowFrame Steps Invariant

def LeadsTo (s : State) (tf : CxxThrowFrame) (n : Nat) : Prop :=
  ∃ o ti, s.record.thrown[n]? = some (o, ti) ∧
    tf.getThrowInfo (frameAt s.stack) = .ok (some ti) ∧
    tf.getExceptionObject (frameAt s.stack) = .ok o

/-- Every throw frame that is not empty knows the exception it is about, and
every link is to a live handler that owns it. An empty one is about the
exception of the innermost handler. -/
structure Resolved (s : State) : Prop where
  direct : ∀ pre c rest tf n, s.stack = pre ++ c :: rest → throwFrame c = some tf →
    subject c = some n → tf.throwInfoIfOwner = none → tf.exceptionObjectOrLink ≠ null →
    ∃ g, .catching tf.exceptionObjectOrLink g n ∈ rest ∧ g.throwInfoIfOwner.isSome = true
  pending : ∀ pre c rest tf n, s.stack = pre ++ c :: rest → throwFrame c = some tf →
    subject c = some n → tf.exceptionObjectOrLink = null → current (slots slot (c :: rest)) = some n
  seen : ∀ c ∈ s.stack, ∀ tf n, throwFrame c = some tf → subject c = some n →
    tf.exceptionObjectOrLink ≠ null → LeadsTo s tf n

theorem inv_resolved {s : State} (hi : Inv Owner s) : Resolved s := by
  refine ⟨?_, fun pre c rest tf n => inv_pending hi, ?_⟩
  · intro pre c rest tf n hs hc hn ht h0
    obtain ⟨g, x, hg, hgi, -, ho⟩ := inv_link hi hs hc hn ht h0
    exact ⟨g, hg, hgi ▸ ho⟩
  · intro c hm tf n hc hn h0
    obtain ⟨x, hx, hr, ht, rfl⟩ := slot_of_throwFrame hc hn
    have hxm : x ∈ slots slot s.stack := mem_slots.mpr ⟨c, hm, hx⟩
    cases hi' : tf.throwInfoIfOwner with
    | some ti =>
      have ho := (hi.linked.owner hxm (ht.trans hi')).2.2
      exact ⟨x.ref, ti, ho, getThrowInfo_owner hi', hr ▸ getExceptionObject_owner hi'⟩
    | none =>
      obtain ⟨pre, rest, hs⟩ := List.append_of_mem hm
      obtain ⟨g, k, hg, hgi, hgr, ho⟩ := inv_link hi hs hc hn hi' h0
      obtain ⟨ti, hti⟩ := Option.isSome_iff_exists.mp ho
      have hgm : .catching tf.exceptionObjectOrLink g x.subject ∈ s.stack := by
        rw [hs]
        exact List.mem_append_right _ (List.mem_cons_of_mem _ hg)
      have hat := frameAt_catching hi.addrs_nodup hgm
      have hgs : (⟨tf.exceptionObjectOrLink, g.exceptionObjectOrLink, g.throwInfoIfOwner,
          x.subject, true⟩ : Slot Ptr ThrowInfo) ∈ slots slot s.stack :=
        mem_slots.mpr ⟨_, hgm, rfl⟩
      have hown := (hi.linked.owner hgs (hgi ▸ hti)).2.2
      refine ⟨g.exceptionObjectOrLink, ti, hown, ?_, getExceptionObject_link hi' hat⟩
      rw [getThrowInfo_link h0 hi' hat, ← hgi, hti]

/-- A link to anything else than a frame that owns leads to no exception. -/
theorem spoil_resolved {s t : State} {e : Event} (hi : Inv Owner s) (h : Step s e t)
    (hlinks : ¬ LinksTo Owner s e) : ¬ Resolved t := by
  intro hres
  simp only [LinksTo, not_forall] at hlinks
  obtain ⟨c, hc, hno⟩ := hlinks
  obtain ⟨addr, tf, n, inside, rest, hs, ht, h0, ha, hm, hn⟩ := linked_to hi h hc
  obtain ⟨g, hg, hgo⟩ := hres.direct [] _ rest tf n hs rfl rfl ht h0
  cases eq_of_frameAddr hn hm hg ha rfl
  exact hno ⟨_, rfl, hgo⟩

/-- In a run every link leads to an owner, and every rethrow to the exception
of the innermost handler, exactly if no throw frame is ever linked to a catch
frame that does not own its exception. -/
theorem run_resolved_iff {tr : List (State × Event)} {s : State} (h : Run Step .initial tr s) :
    Throughout Resolved tr s ↔ ∀ p ∈ tr, LinksTo Owner p.1 p.2 := by
  have hclean : ∀ s e t, Inv Owner s → Step s e t → LinksTo Owner s e → Inv Owner t :=
    fun s e t hi hst hc => step_inv hst hc hi
  have hspoil : ∀ s e t, Inv Owner s → Step s e t → ¬ LinksTo Owner s e → ¬ Resolved t :=
    fun s e t => spoil_resolved
  exact run_iff inv_initial (fun s => inv_resolved) hclean hspoil h

theorem run_resolved_probed : ∃ tr s, Run Step .initial tr s ∧ s.stack.length = 4 ∧
    Throughout Resolved tr s := by
  obtain ⟨tr, h, hclean⟩ := run_inHandler
  have h := h.snoc (.rethrow _ 0x1000 0 ⟨by decide, by decide, by decide⟩ rfl)
  have h := h.snoc (.search _ _ _ _ _ _ safeHandlers 0x20 (initThrowFrame 0x3000 none) trivial rfl)
  refine ⟨_, _, h, rfl, (run_resolved_iff h).mpr ?_⟩
  simp only [List.forall_mem_append, List.forall_mem_singleton]
  exact ⟨⟨fun p hp => linksTo_none (hclean p hp).1, fun c hc => nomatch hc⟩, fun c hc => by
    cases hc
    exact ⟨_, rfl, rfl⟩⟩

/-- A rethrow from a handler `catch (...)` that was not probed finds no throw info. -/
theorem ellipsis_rethrow_unresolved : ∃ tr s' s addr tf n rest,
    Run Step .initial (tr ++ [(s', .search)]) s ∧ s.stack = .throwing addr tf n false :: rest ∧
    tf.exceptionObjectOrLink ≠ null ∧ tf.getThrowInfo (frameAt s.stack) = .ok none ∧
    ¬ Throughout Resolved (tr ++ [(s', .search)]) s := by
  obtain ⟨tr, h, -⟩ := run_inHandler
  have h := h.snoc (.rethrow _ 0x1000 0 ⟨by decide, by decide, by decide⟩ rfl)
  have h := h.snoc (.land _ _ _ _ _ _ _ ⟨rfl, rfl⟩)
  have h := h.snoc (.call (functionAt 0x800) _ _)
  have h := h.snoc (.rethrow _ 0x500 0 ⟨by decide, by decide, by decide⟩ rfl)
  have h := h.snoc (.search _ _ _ _ _ _ safeHandlers 0x20 (initThrowFrame 0x1000 none) trivial rfl)
  refine ⟨_, _, _, _, _, _, _, h, rfl, by decide, rfl, fun hres => ?_⟩
  obtain ⟨o, ti, -, hti, -⟩ := hres.2.seen _ List.mem_cons_self _ 0 rfl rfl (by decide)
  cases hti

end Vcrtl.X86.Resolution

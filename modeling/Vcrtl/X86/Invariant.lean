import Vcrtl.X86.Steps

namespace Vcrtl.X86.Invariant

open Lib.Custody Lib.Links BugCheck EhStructs ThrowFrame Steps

/-- A search that meets an empty exception left the throw frame empty too. -/
def Entered : List Cell → Prop
  | [] => True
  | .throwing _ tf _ true :: .catching addr frame m :: st =>
    (tf.exceptionObjectOrLink = null → frame.exceptionObjectOrLink = null) ∧
      Entered (.catching addr frame m :: st)
  | _ :: st => Entered st

/-- What holds as long as every link is made to a frame such as `target` allows. -/
structure Inv (target : Slot Ptr ThrowInfo → Prop) (s : State) : Prop where
  addrs_nodup : (frameAddrs s.stack).Nodup
  apart : ∀ a ∈ frameAddrs s.stack, a ∉ (owners (slots slot s.stack)).map Prod.fst
  nonnull : null ∉ frameAddrs s.stack
  linked : Linked target null s.record (slots slot s.stack)
  entered : Entered s.stack

variable {target : Slot Ptr ThrowInfo → Prop}

theorem inv_initial : Inv target .initial := by
  refine ⟨List.nodup_nil, ?_, ?_, trivial, trivial⟩ <;> simp [State.initial, frameAddrs]

@[simp] theorem slots_function (f : FunctionFrame) (stack : List Cell) :
    slots slot (.function f :: stack) = slots slot stack := rfl

@[simp] theorem slots_throwing (addr : Ptr) (tf : CxxThrowFrame) (n : Nat) (inside : Bool)
    (stack : List Cell) : slots slot (.throwing addr tf n inside :: stack) =
      ⟨addr, tf.exceptionObjectOrLink, tf.throwInfoIfOwner, n, false⟩ :: slots slot stack := rfl

@[simp] theorem slots_catching (addr : Ptr) (tf : CxxThrowFrame) (n : Nat) (stack : List Cell) :
    slots slot (.catching addr tf n :: stack) =
      ⟨addr, tf.exceptionObjectOrLink, tf.throwInfoIfOwner, n, true⟩ :: slots slot stack := rfl

@[simp] theorem slots_closing (addr : Ptr) (tf : CxxThrowFrame) (stack : List Cell) :
    slots slot (.closing addr tf :: stack) = slots slot stack := rfl

@[simp] theorem frameAddrs_function (f : FunctionFrame) (stack : List Cell) :
    frameAddrs (.function f :: stack) = frameAddrs stack := rfl

@[simp] theorem frameAddrs_throwing (addr : Ptr) (tf : CxxThrowFrame) (n : Nat) (inside : Bool)
    (stack : List Cell) :
    frameAddrs (.throwing addr tf n inside :: stack) = addr :: frameAddrs stack := rfl

@[simp] theorem frameAddrs_catching (addr : Ptr) (tf : CxxThrowFrame) (n : Nat)
    (stack : List Cell) :
    frameAddrs (.catching addr tf n :: stack) = addr :: frameAddrs stack := rfl

@[simp] theorem frameAddrs_closing (addr : Ptr) (tf : CxxThrowFrame) (stack : List Cell) :
    frameAddrs (.closing addr tf :: stack) = addr :: frameAddrs stack := rfl

theorem addrs_slots (stack : List Cell) :
    (addrs (slots slot stack)).Sublist (frameAddrs stack) := by
  induction stack with
  | nil => exact .refl _
  | cons c stack ih =>
    cases c with
    | function f => exact ih
    | throwing addr tf n inside | catching addr tf n => exact ih.cons_cons _
    | closing addr tf => exact ih.cons _

theorem Inv.slots_nodup {s : State} (hi : Inv target s) : (addrs (slots slot s.stack)).Nodup :=
  hi.addrs_nodup.sublist (addrs_slots _)

theorem firstCatch_slot {stack : List Cell} {c : Cell} {x : Slot Ptr ThrowInfo}
    (h : firstCatch stack = some c) (hx : slot c = some x) :
    x ∈ slots slot stack ∧ x.handling = true ∧ frameAddr c = some x.addr ∧
      current (slots slot stack) = some x.subject := by
  induction stack with
  | nil => cases h
  | cons d stack ih =>
    cases d with
    | function f => exact ih h
    | throwing addr tf n inside =>
      obtain ⟨hm, hh, ha, hc⟩ := ih h
      exact ⟨List.mem_cons_of_mem _ hm, hh, ha, hc⟩
    | catching addr tf n =>
      cases h
      cases hx
      exact ⟨List.mem_cons_self, rfl, rfl, rfl⟩
    | closing addr tf =>
      cases h
      cases hx

/-- A probe that returns has linked the throw frame to the first catch frame. -/
theorem probe_spec {v : SehVerifier} {handler : Ptr} {stack : List Cell} {tf tf' : CxxThrowFrame}
    (hnull : null ∉ frameAddrs stack) (h0 : tf.exceptionObjectOrLink = null)
    (h : probeForExceptionObject v (registrations handler stack) tf = .ok tf') :
    ∃ c a, firstCatch stack = some c ∧ frameAddr c = some a ∧ a ≠ null ∧
      tf' = { tf with exceptionObjectOrLink := a } := by
  induction stack with
  | nil =>
    simp [registrations, probeForExceptionObject, h0, onBugCheck] at h
  | cons d stack ih =>
    cases d with
    | throwing addr tf n inside => exact ih (fun hm => hnull (List.mem_cons_of_mem _ hm)) h
    | function f =>
      simp only [registrations, List.filterMap_cons, registration, probeForExceptionObject] at h
      rw [if_neg (by simp [h0])] at h
      simp only [bind_ok] at h
      obtain ⟨-, -, tf₁, hp, h⟩ := h
      simp only [probeRegistration] at hp
      split at hp
      · cases hp
      · cases hp
        exact ih hnull h
    | catching addr frame n | closing addr frame =>
      have ha : addr ≠ null := fun he => hnull (he ▸ List.mem_cons_self)
      simp only [registrations, List.filterMap_cons, registration, probeForExceptionObject] at h
      rw [if_neg (by simp [h0])] at h
      simp only [bind_ok, probeRegistration, Except.ok.injEq] at h
      obtain ⟨-, -, _, rfl, h⟩ := h
      refine ⟨_, addr, rfl, rfl, ha, ?_⟩
      generalize List.filterMap (registration handler) stack = regs at h
      cases regs with
      | nil | cons p regs =>
        rw [probeForExceptionObject, if_pos ha] at h
        exact (Except.ok.inj h).symm

theorem head_null {addr : Ptr} {tf : CxxThrowFrame} {n : Nat} {inside : Bool} {stack : List Cell}
    {r : Record Ptr ThrowInfo} (hi : Inv target ⟨.throwing addr tf n inside :: stack, r⟩)
    (h0 : tf.exceptionObjectOrLink = null) : tf.throwInfoIfOwner = none := by
  obtain ⟨-, hc, -⟩ | ⟨hne, -⟩ := hi.linked.1
  · exact hc
  · exact absurd h0 hne

theorem head_link {addr a : Ptr} {tf frame : CxxThrowFrame} {n m : Nat} {inside : Bool}
    {stack : List Cell} {r : Record Ptr ThrowInfo}
    (hi : Inv target ⟨.throwing addr tf n inside :: .catching a frame m :: stack, r⟩)
    (ha : tf.exceptionObjectOrLink = a) : tf.throwInfoIfOwner = none := by
  apply Option.eq_none_iff_forall_ne_some.mpr
  intro t ht
  apply hi.apart a (by simp)
  rw [← ha]
  exact List.mem_map.mpr ⟨(_, t), mem_owners.mpr ⟨_, List.mem_cons_self .., rfl, ht⟩, rfl⟩

/-- A search links an empty throw frame to the first catch frame and leaves
any other as it is. -/
theorem search_spec {addr : Ptr} {tf tf' : CxxThrowFrame} {n : Nat} {inside : Bool}
    {stack : List Cell} {r : Record Ptr ThrowInfo} {v : SehVerifier} {handler : Ptr}
    (hi : Inv target ⟨.throwing addr tf n inside :: stack, r⟩)
    (h : ensureThrowInfo v (registrations handler stack)
      (frameAt (.throwing addr tf n inside :: stack)) tf = .ok tf') :
    tf.exceptionObjectOrLink ≠ null ∧ tf' = tf ∨
      tf.exceptionObjectOrLink = null ∧ ∃ c a, firstCatch stack = some c ∧ frameAddr c = some a ∧
        a ≠ null ∧ tf' = { tf with exceptionObjectOrLink := a } := by
  simp only [ensureThrowInfo, bind_ok] at h
  obtain ⟨throwInfo, hget, h⟩ := h
  by_cases h0 : tf.exceptionObjectOrLink = null
  · have hget' : throwInfo = none := by
      simpa [CxxThrowFrame.getThrowInfo, h0, head_null hi h0, eq_comm] using hget
    subst hget'
    exact .inr ⟨h0, probe_spec (fun hm => hi.nonnull (List.mem_cons_of_mem _ hm)) h0 h⟩
  · refine .inl ⟨h0, ?_⟩
    split at h
    · generalize registrations handler stack = regs at h
      cases regs with
      | nil | cons p regs =>
        rw [probeForExceptionObject, if_pos h0] at h
        exact (Except.ok.inj h).symm
    · exact (Except.ok.inj h).symm

theorem throwNew_inv {s : State} {addr obj : Ptr} {ti : ThrowInfo} (hi : Inv target s)
    (hframe : Fresh s addr) (hobj : Fresh s obj) (hne : obj ≠ addr) :
    Inv target
      ⟨.throwing addr (initThrowFrame obj (some ti)) s.record.thrown.length false :: s.stack,
        s.record.hand obj ti⟩ := by
  refine ⟨List.nodup_cons.mpr ⟨hframe.2.1, hi.addrs_nodup⟩, ?_, ?_,
    ⟨.inr ⟨hobj.1, .inl ⟨ti, rfl, has_hand⟩⟩, hi.linked.hand hobj.2.2⟩, hi.entered⟩
  · refine List.forall_mem_cons.mpr ⟨fun hm => ?_, fun a ha hm => ?_⟩
    · obtain he | hm := List.mem_cons.mp hm
      · exact hne he.symm
      · exact hframe.2.2 hm
    · obtain he | hm := List.mem_cons.mp hm
      · have he' : a = obj := he
        exact hobj.2.1 (he' ▸ ha)
      · exact hi.apart a ha hm
  · intro hm
    obtain he | hm := List.mem_cons.mp hm
    · exact hframe.1 he.symm
    · exact hi.nonnull hm

theorem rethrow_inv {s : State} {addr : Ptr} {n : Nat} (hi : Inv target s) (hframe : Fresh s addr)
    (hlive : current (slots slot s.stack) = some n) :
    Inv target ⟨.throwing addr (initThrowFrame null none) n false :: s.stack, s.record⟩ := by
  refine ⟨List.nodup_cons.mpr ⟨hframe.2.1, hi.addrs_nodup⟩, ?_, ?_,
    ⟨.inl ⟨rfl, rfl, hlive⟩, hi.linked⟩, hi.entered⟩
  · exact List.forall_mem_cons.mpr ⟨hframe.2.2, hi.apart⟩
  · intro hm
    obtain he | hm := List.mem_cons.mp hm
    · exact hframe.1 he.symm
    · exact hi.nonnull hm

theorem Inv.of_slots {s t : State} (hi : Inv target s)
    (ha : (frameAddrs t.stack).Sublist (frameAddrs s.stack))
    (ho : ∀ p ∈ owners (slots slot t.stack), p ∈ owners (slots slot s.stack))
    (hl : Linked target null t.record (slots slot t.stack)) (he : Entered t.stack) :
    Inv target t := by
  refine ⟨hi.addrs_nodup.sublist ha, fun a hm hobj => ?_, fun hm => hi.nonnull (ha.subset hm), hl,
    he⟩
  obtain ⟨p, hp, rfl⟩ := List.mem_map.mp hobj
  exact hi.apart _ (ha.subset hm) (List.mem_map_of_mem (ho p hp))

theorem search_inv {addr : Ptr} {tf tf' : CxxThrowFrame} {n : Nat} {inside : Bool}
    {stack : List Cell} {r : Record Ptr ThrowInfo} {v : SehVerifier} {handler : Ptr}
    (hi : Inv target ⟨.throwing addr tf n inside :: stack, r⟩)
    (h : ensureThrowInfo v (registrations handler stack)
      (frameAt (.throwing addr tf n inside :: stack)) tf = .ok tf')
    (hlinks : LinksTo target ⟨.throwing addr tf n inside :: stack, r⟩ .search) :
    Inv target ⟨.throwing addr tf' n inside :: stack, r⟩ := by
  obtain ⟨-, rfl⟩ | ⟨h0, c, a, hc, ha, hne, rfl⟩ := search_spec hi h
  · exact hi
  · have hn := head_null hi h0
    obtain ⟨x, hx, htarget⟩ := hlinks c (by simp [linkTarget, h0, hc])
    obtain ⟨hm, hh, hxa, hcur⟩ := firstCatch_slot hc hx
    rw [ha] at hxa
    cases hxa
    refine hi.of_slots (.refl _) ?_ (hi.linked.link h0 hne ⟨x, hm, hh, rfl, htarget, hcur⟩) ?_
    · intro p hp
      rw [slots_throwing, owners_cons_none hn] at hp ⊢
      exact hp
    · have he := hi.entered
      cases inside with
      | false => exact he
      | true =>
        cases stack with
        | nil => exact he
        | cons d stack =>
          cases d with
          | catching b frame m => exact ⟨fun h => absurd h hne, he.2⟩
          | function | throwing | closing => exact he

theorem enter_inv {addr a : Ptr} {tf frame : CxxThrowFrame} {n m : Nat} {stack : List Cell}
    {r : Record Ptr ThrowInfo}
    (hi : Inv target ⟨.throwing addr tf n false :: .catching a frame m :: stack, r⟩)
    (hlinks :
      LinksTo target ⟨.throwing addr tf n false :: .catching a frame m :: stack, r⟩ .enter) :
    Inv target
      ⟨.throwing addr (enterCatchFrame a frame tf) n true :: .catching a frame m :: stack, r⟩ := by
  have ha0 : a ≠ null := fun he => hi.nonnull (he ▸ by simp)
  simp only [enterCatchFrame]
  by_cases ha : tf.exceptionObjectOrLink = a
  · have hnone := head_link hi ha
    rw [if_pos ha]
    exact hi.of_slots (.refl _) (fun p hp => owners_tail (owners_merge rfl rfl hp))
      (hi.linked.copy hi.slots_nodup hnone (.inr ha) rfl) ⟨id, hi.entered⟩
  · rw [if_neg ha]
    by_cases h0 : tf.exceptionObjectOrLink = null
    · have hnone := head_null hi h0
      obtain ⟨x, hx, htarget⟩ := hlinks (.catching a frame m) (by simp [linkTarget, h0])
      rw [if_pos h0]
      cases hx
      refine hi.of_slots (.refl _) ?_
        (hi.linked.link h0 ha0 ⟨_, List.mem_cons_self, rfl, rfl, htarget, rfl⟩)
        ⟨fun h => absurd h ha0, hi.entered⟩
      intro p hp
      rw [slots_throwing, owners_cons_none hnone] at hp ⊢
      exact hp
    · rw [if_neg h0]
      exact hi.of_slots (.refl _) (fun p hp => hp) hi.linked ⟨fun h => absurd h h0, hi.entered⟩

/-- After an unsuccessful search the throw is free of the frame it passes. -/
theorem leave_inv {addr a : Ptr} {tf tf' frame : CxxThrowFrame} {n m : Nat} {stack rest : List Cell}
    {r : Record Ptr ThrowInfo} {calls : List DestroyCall}
    (hi : Inv target ⟨.throwing addr tf n true :: .catching a frame m :: stack, r⟩)
    (h : leaveCatchFrame a frame tf = (tf', calls)) (hslots : slots slot rest = slots slot stack)
    (haddrs : (frameAddrs rest).Sublist (a :: frameAddrs stack)) (hrest : Entered rest) :
    Inv target ⟨.throwing addr tf' n false :: rest, destroyAll r calls⟩ := by
  have hsub : (frameAddrs (.throwing addr tf' n false :: rest)).Sublist
      (frameAddrs (.throwing addr tf n true :: .catching a frame m :: stack)) :=
    haddrs.cons_cons _
  simp only [leaveCatchFrame] at h
  split at h
  · rename_i ha
    have hnone := head_link hi ha
    cases h
    refine hi.of_slots hsub ?_ ?_ hrest
    · intro p hp
      rw [slots_throwing, hslots] at hp
      rw [slots_throwing, owners_cons_none hnone]
      exact hp
    · rw [slots_throwing, hslots]
      exact hi.linked.take hi.slots_nodup hnone (.inr ha) rfl
  · rename_i ha
    cases h
    refine hi.of_slots hsub ?_ ?_ hrest
    · intro p hp
      rw [slots_throwing, hslots] at hp
      exact (owners_swap _ _ _).mem_iff.mp (owners_tail hp)
    · rw [slots_throwing, hslots]
      exact (hi.linked.drop rfl (fun _ => ha) hi.entered.1).destroyAll

theorem entered_tail {c : Cell} {stack : List Cell} (h : Entered (c :: stack)) : Entered stack := by
  cases c with
  | function | catching | closing => exact h
  | throwing addr tf n inside =>
    cases inside with
    | false => exact h
    | true =>
      cases stack with
      | nil => trivial
      | cons d stack =>
        cases d with
        | catching a frame m => exact h.2
        | function | throwing | closing => exact h

theorem land_inv {addr : Ptr} {tf tf' : CxxThrowFrame} {n : Nat} {inside : Bool} {stack : List Cell}
    {r : Record Ptr ThrowInfo} (hi : Inv target ⟨.throwing addr tf n inside :: stack, r⟩)
    (hsame : SameException tf' tf) : Inv target ⟨.catching addr tf' n :: stack, r⟩ := by
  have he : Entered stack := entered_tail hi.entered
  refine hi.of_slots (.refl _) ?_ ?_ he
  · intro p hp
    rw [slots_catching] at hp
    rw [slots_throwing, ← hsame.1, ← hsame.2]
    exact hp
  · simp only [slots_catching, hsame.1, hsame.2]
    exact hi.linked

theorem step_inv {s t : State} {e : Event} (h : Step s e t) (hlinks : LinksTo target s e)
    (hi : Inv target s) : Inv target t := by
  cases h with
  | call => exact hi.of_slots (.refl _) (fun p hp => hp) hi.linked hi.entered
  | ret => exact hi.of_slots (.refl _) (fun p hp => hp) hi.linked hi.entered
  | throwNew _ _ _ _ hframe hobj hne => exact throwNew_inv hi hframe hobj hne
  | rethrow _ _ _ hframe hlive => exact rethrow_inv hi hframe hlive
  | search _ _ _ _ _ _ _ _ _ _ h => exact search_inv hi h hlinks
  | skip => exact hi.of_slots (.refl _) (fun p hp => hp) hi.linked hi.entered
  | land _ _ _ _ _ _ _ hsame => exact land_inv hi hsame
  | enter => exact enter_inv hi hlinks
  | landInside _ _ _ _ _ _ _ _ _ hsame => exact land_inv hi hsame
  | leave _ _ _ _ _ _ _ _ _ h =>
    exact leave_inv hi h rfl (.cons _ (.refl _)) hi.entered.2
  | destroy _ _ _ _ _ _ _ _ _ _ h =>
    exact leave_inv hi h rfl (.refl _) hi.entered.2
  | advance =>
    exact hi.of_slots (.cons_cons _ (.cons _ (.refl _))) (fun p hp => hp) hi.linked hi.entered
  | finish =>
    exact hi.of_slots (.cons _ (.refl _)) (fun p hp => owners_tail hp) hi.linked.2.destroyAll
      hi.entered

theorem slot_of_throwFrame {c : Cell} {tf : CxxThrowFrame} {n : Nat} (h : throwFrame c = some tf)
    (hn : subject c = some n) : ∃ x, slot c = some x ∧ x.ref = tf.exceptionObjectOrLink ∧
      x.info = tf.throwInfoIfOwner ∧ x.subject = n := by
  cases c with
  | function f | closing addr tf' => cases h
  | throwing addr tf' m inside | catching addr tf' m =>
    cases h
    cases hn
    exact ⟨_, rfl, rfl, rfl, rfl⟩

theorem catching_of_slot {x : Slot Ptr ThrowInfo} {stack : List Cell} (hx : x ∈ slots slot stack)
    (hh : x.handling = true) : ∃ tf, .catching x.addr tf x.subject ∈ stack ∧
      x.ref = tf.exceptionObjectOrLink ∧ x.info = tf.throwInfoIfOwner := by
  obtain ⟨c, hm, hs⟩ := mem_slots.mp hx
  cases c with
  | function f | closing addr tf => cases hs
  | throwing addr tf n inside =>
    cases hs
    cases hh
  | catching addr tf n =>
    cases hs
    exact ⟨tf, hm, rfl, rfl⟩

theorem frameAt_catching {stack : List Cell} (hn : (frameAddrs stack).Nodup) {a : Ptr}
    {tf : CxxThrowFrame} {n : Nat} (h : .catching a tf n ∈ stack) : frameAt stack a = some tf := by
  induction stack with
  | nil => cases h
  | cons c stack ih =>
    have hmem : .catching a tf n ∈ stack → a ∈ frameAddrs stack := fun hm =>
      List.mem_filterMap.mpr ⟨_, hm, rfl⟩
    cases c with
    | function f =>
      obtain he | h := List.mem_cons.mp h
      · cases he
      · exact ih hn h
    | throwing b tf' m inside | closing b tf' =>
      obtain ⟨hne, hn⟩ := List.nodup_cons.mp hn
      obtain he | h := List.mem_cons.mp h
      · cases he
      · simp only [frameAt]
        rw [if_neg (fun he : b = a => hne (he ▸ hmem h))]
        exact ih hn h
    | catching b tf' m =>
      obtain ⟨hne, hn⟩ := List.nodup_cons.mp hn
      obtain he | h := List.mem_cons.mp h
      · cases he
        simp [frameAt]
      · simp only [frameAt]
        rw [if_neg (fun he : b = a => hne (he ▸ hmem h))]
        exact ih hn h

theorem inv_pending {s : State} (hi : Inv target s) {pre rest : List Cell} {c : Cell}
    {tf : CxxThrowFrame} {n : Nat} (hs : s.stack = pre ++ c :: rest) (hc : throwFrame c = some tf)
    (hn : subject c = some n) (h0 : tf.exceptionObjectOrLink = null) :
    current (slots slot (c :: rest)) = some n := by
  obtain ⟨x, hx, hr, ht, rfl⟩ := slot_of_throwFrame hc hn
  have hl := hi.linked
  rw [slots_split hs hx] at hl
  rw [slots_cons hx]
  obtain ⟨-, -, hcur⟩ | ⟨hne, -⟩ := hl.append.1
  · simp only [current]
    split
    · rfl
    · exact hcur
  · exact absurd (hr.trans h0) hne

theorem inv_link {s : State} (hi : Inv target s) {pre rest : List Cell} {c : Cell}
    {tf : CxxThrowFrame} {n : Nat} (hs : s.stack = pre ++ c :: rest) (hc : throwFrame c = some tf)
    (hn : subject c = some n) (ht : tf.throwInfoIfOwner = none)
    (h0 : tf.exceptionObjectOrLink ≠ null) :
    ∃ g x, .catching tf.exceptionObjectOrLink g n ∈ rest ∧ x.info = g.throwInfoIfOwner ∧
      x.ref = g.exceptionObjectOrLink ∧ target x := by
  obtain ⟨x, hx, hr, hxt, rfl⟩ := slot_of_throwFrame hc hn
  have hl := hi.linked
  rw [slots_split hs hx] at hl
  obtain ⟨hz, -⟩ | ⟨-, ⟨t, hxi, -⟩ | ⟨-, k, hk, hh, ha, hko, hks⟩⟩ := hl.append.1
  · exact absurd (hr ▸ hz) h0
  · rw [hxt, ht] at hxi
    cases hxi
  · obtain ⟨g, hg, hkr, hki⟩ := catching_of_slot hk hh
    exact ⟨g, k, ha.trans hr ▸ hks ▸ hg, hki, hkr, hko⟩

theorem eq_of_frameAddr {stack : List Cell} (hn : (frameAddrs stack).Nodup) {c d : Cell} {a : Ptr}
    (hc : c ∈ stack) (hd : d ∈ stack) (hca : frameAddr c = some a) (hda : frameAddr d = some a) :
    c = d := by
  induction stack with
  | nil => cases hc
  | cons e stack ih =>
    have htail : (frameAddrs stack).Nodup := hn.sublist ((List.sublist_cons_self _ _).filterMap _)
    have hhead : ∀ x ∈ stack, frameAddr x = some a → frameAddr e ≠ some a := by
      intro x hx hxa hea
      rw [frameAddrs, List.filterMap_cons_some hea] at hn
      exact (List.nodup_cons.mp hn).1 (List.mem_filterMap.mpr ⟨x, hx, hxa⟩)
    obtain hce | hc' := List.mem_cons.mp hc <;> obtain hde | hd' := List.mem_cons.mp hd
    · rw [hce, hde]
    · exact absurd (hce ▸ hca) (hhead d hd' hda)
    · exact absurd (hde ▸ hda) (hhead c hc' hca)
    · exact ih htail hc' hd'

theorem firstCatch_mem {stack : List Cell} {c : Cell} (h : firstCatch stack = some c) :
    c ∈ stack := by
  induction stack with
  | nil => cases h
  | cons d stack ih =>
    cases d with
    | function | throwing => exact List.mem_cons_of_mem _ (ih h)
    | catching | closing =>
      cases h
      exact List.mem_cons_self

theorem linked_to {s t : State} {e : Event} {c : Cell} (hi : Inv target s) (h : Step s e t)
    (hc : linkTarget s e = some c) : ∃ addr tf n inside rest,
      t.stack = .throwing addr tf n inside :: rest ∧ tf.throwInfoIfOwner = none ∧
      tf.exceptionObjectOrLink ≠ null ∧ frameAddr c = some tf.exceptionObjectOrLink ∧ c ∈ rest ∧
      (frameAddrs rest).Nodup := by
  cases h with
  | search addr tf n inside stack r v handler tf' hat h =>
    obtain ⟨hne, -⟩ | ⟨h0, c', a, hc', ha, hne, rfl⟩ := search_spec hi h
    · simp [linkTarget, hne] at hc
    · simp only [linkTarget, h0, if_true, hc', Option.some.injEq] at hc
      subst hc
      have hnone := head_null hi h0
      exact ⟨addr, _, n, inside, stack, rfl, hnone, hne, ha, firstCatch_mem hc',
        (List.nodup_cons.mp hi.addrs_nodup).2⟩
  | enter addr tf n a frame m stack r =>
    simp only [linkTarget] at hc
    split at hc
    · rename_i h0
      cases hc
      have hnone := head_null hi h0
      have ha0 : a ≠ null := fun he => hi.nonnull (he ▸ by simp)
      have hta : tf.exceptionObjectOrLink ≠ a := fun he => ha0 (he.symm.trans h0)
      have htf : enterCatchFrame a frame tf = { tf with exceptionObjectOrLink := a } := by
        rw [enterCatchFrame, if_neg hta, if_pos h0]
      refine ⟨addr, _, n, true, _, rfl, ?_⟩
      rw [htf]
      exact ⟨hnone, ha0, rfl, List.mem_cons_self, (List.nodup_cons.mp hi.addrs_nodup).2⟩
    · cases hc
  | call | ret | throwNew | rethrow | skip | land | landInside | leave | destroy | advance
  | finish =>
    cases hc

end Vcrtl.X86.Invariant

import Vcrtl.Lib.Custody

namespace Vcrtl.Lib.Links

open Custody

variable {P T : Type}

/-- A holder of an object. With `info` it owns what `ref` points at, without
it `ref` points at another slot. `subject` is the object it stands for. -/
structure Slot (P T : Type) where
  addr : P
  ref : P
  info : Option T
  subject : Nat
  handling : Bool

def owned (c : Slot P T) : Option (P × T) := c.info.map fun t => (c.ref, t)

def owners (st : List (Slot P T)) : List (P × T) := st.filterMap owned

def addrs (st : List (Slot P T)) : List P := st.map Slot.addr

def slots {C : Type} (slot : C → Option (Slot P T)) (stack : List C) : List (Slot P T) :=
  stack.filterMap slot

def current : List (Slot P T) → Option Nat
  | [] => none
  | c :: st => if c.handling then some c.subject else current st

/-- What must be destroyed when a slot gives up its object. -/
def doomed (audible : T → Bool) (c : Slot P T) : List P :=
  match c.info with
  | some t => if audible t then [c.ref] else []
  | none => []

/-- A slot owns its subject or points at a handling slot below that is about
the same one and is such as `target` allows. -/
def Resolves (target : Slot P T → Prop) (r : Record P T) (c : Slot P T) (st : List (Slot P T)) :
    Prop :=
  (∃ t, c.info = some t ∧ r.Has c.subject (c.ref, t)) ∨
    (c.info = none ∧ ∃ g ∈ st, g.handling = true ∧ g.addr = c.ref ∧ target g ∧
      g.subject = c.subject)

/-- Every slot resolves, or is still empty and stands for the current subject. -/
def Linked (target : Slot P T → Prop) (null : P) (r : Record P T) : List (Slot P T) → Prop
  | [] => True
  | c :: st => (c.ref = null ∧ c.info = none ∧ current st = some c.subject ∨
      c.ref ≠ null ∧ Resolves target r c st) ∧ Linked target null r st

def Owner (g : Slot P T) : Prop := g.info.isSome = true

abbrev Direct (null : P) (r : Record P T) (st : List (Slot P T)) : Prop := Linked Owner null r st

variable {target : Slot P T → Prop} {null : P} {r : Record P T} {c g : Slot P T}
  {st : List (Slot P T)}

section

variable {C : Type} {slot : C → Option (Slot P T)}

theorem mem_slots {stack : List C} : c ∈ slots slot stack ↔ ∃ x ∈ stack, slot x = some c :=
  List.mem_filterMap

theorem slots_append (as bs : List C) : slots slot (as ++ bs) = slots slot as ++ slots slot bs :=
  List.filterMap_append

theorem slots_cons {x : C} {stack : List C} (hx : slot x = some c) :
    slots slot (x :: stack) = c :: slots slot stack :=
  List.filterMap_cons_some hx

theorem slots_split {stack pre rest : List C} {x : C} (hs : stack = pre ++ x :: rest)
    (hx : slot x = some c) : slots slot stack = slots slot pre ++ c :: slots slot rest := by
  rw [hs, slots_append, slots_cons hx]

end

theorem owners_cons_none (h : c.info = none) : owners (c :: st) = owners st := by
  simp [owners, owned, h]

theorem owners_cons_some {t : T} (h : c.info = some t) :
    owners (c :: st) = (c.ref, t) :: owners st := by
  simp [owners, owned, h]

theorem mem_owners {p : P × T} :
    p ∈ owners st ↔ ∃ c ∈ st, c.ref = p.1 ∧ c.info = some p.2 := by
  simp only [owners, owned, List.mem_filterMap, Option.map_eq_some_iff, Prod.ext_iff]
  constructor
  · rintro ⟨c, hc, t, ht, h1, h2⟩
    exact ⟨c, hc, h1, h2 ▸ ht⟩
  · rintro ⟨c, hc, h1, h2⟩
    exact ⟨c, hc, p.2, h2, h1, rfl⟩

theorem eq_doomed {audible : T → Bool} {os : List P} (hnone : c.info = none → os = [])
    (hsome : ∀ t, c.info = some t → os = if audible t then [c.ref] else []) :
    os = doomed audible c := by
  cases hc : c.info with
  | none => simpa only [doomed, hc] using hnone hc
  | some t => simpa only [doomed, hc] using hsome t hc

theorem kept_doomed {audible : T → Bool} {as : List P} (h : Kept audible as (owners (c :: st)) r) :
    Kept audible as (owners st) (r.destroyAll (doomed audible c)) := by
  cases hc : c.info with
  | none =>
    rw [owners_cons_none hc] at h
    simp only [doomed, hc]
    exact h
  | some t =>
    rw [owners_cons_some hc] at h
    simp only [doomed, hc]
    by_cases ht : audible t = true
    · rw [if_pos ht]
      exact h.destroy ht
    · rw [if_neg ht]
      exact h.release (by simpa using ht)

theorem owners_swap (c g : Slot P T) (st : List (Slot P T)) :
    (owners (c :: g :: st)).Perm (owners (g :: c :: st)) :=
  (List.Perm.swap g c st).filterMap _

theorem owners_tail {p : P × T} (h : p ∈ owners st) : p ∈ owners (c :: st) := by
  obtain ⟨d, hd, hp⟩ := mem_owners.mp h
  exact mem_owners.mpr ⟨d, List.mem_cons_of_mem _ hd, hp⟩

theorem owners_merge (hr : c.ref = g.ref) (hi : c.info = g.info) {p : P × T}
    (h : p ∈ owners (c :: g :: st)) : p ∈ owners (g :: st) := by
  obtain ⟨d, hd, hp⟩ := mem_owners.mp h
  obtain rfl | hd := List.mem_cons.mp hd
  · exact mem_owners.mpr ⟨g, List.mem_cons_self, hr ▸ hp.1, hi ▸ hp.2⟩
  · exact mem_owners.mpr ⟨d, hd, hp⟩

theorem Linked.hand [DecidableEq P] {o : P} {t : T} (h : Linked target null r st)
    (ho : o ∉ (owners st).map Prod.fst) : Linked target null (r.hand o t) st := by
  induction st with
  | nil => trivial
  | cons c st ih =>
    have hst : o ∉ (owners st).map Prod.fst := fun hm => by
      obtain ⟨p, hp, he⟩ := List.mem_map.mp hm
      exact ho (he ▸ List.mem_map_of_mem (owners_tail hp))
    refine ⟨h.1.imp id fun hc => ⟨hc.1, hc.2.imp ?_ id⟩, ih h.2 hst⟩
    rintro ⟨t', ht, hn⟩
    refine ⟨t', ht, hn.hand fun he => ho ?_⟩
    rw [owners_cons_some ht]
    exact he ▸ List.mem_cons_self

theorem Linked.destroyAll {os : List P} (h : Linked target null r st) :
    Linked target null (r.destroyAll os) st := by
  induction st with
  | nil => trivial
  | cons c st ih =>
    refine ⟨h.1.imp id fun hc => ⟨hc.1, hc.2.imp ?_ id⟩, ih h.2⟩
    simp only [Record.Has, destroyAll_occupant, destroyAll_thrown, imp_self]

theorem Linked.append {pre : List (Slot P T)} (h : Linked target null r (pre ++ st)) :
    Linked target null r st := by
  induction pre with
  | nil => exact h
  | cons c pre ih => exact ih h.2

theorem Linked.owner {t : T} (h : Linked target null r st) (hc : c ∈ st)
    (ht : c.info = some t) : c.ref ≠ null ∧ r.Has c.subject (c.ref, t) := by
  obtain ⟨pre, post, rfl⟩ := List.append_of_mem hc
  obtain ⟨-, hn, -⟩ | ⟨hne, ⟨t', ht', hk⟩ | ⟨hn, -⟩⟩ := h.append.1
  · rw [hn] at ht
    cases ht
  · rw [ht] at ht'
    cases ht'
    exact ⟨hne, hk⟩
  · rw [hn] at ht
    cases ht

theorem current_mem {n : Nat} (h : current st = some n) :
    ∃ g ∈ st, g.handling = true ∧ g.subject = n := by
  induction st with
  | nil => cases h
  | cons c st ih =>
    simp only [current] at h
    split at h
    · exact ⟨c, by simp, by assumption, Option.some.inj h⟩
    · obtain ⟨g, hg, hh⟩ := ih h
      exact ⟨g, List.mem_cons_of_mem _ hg, hh⟩

/-- Whatever a slot is about is owned there or further down. -/
theorem Linked.kept (h : Linked target null r st) (hc : c ∈ st) :
    ∃ g ∈ st, Owner g ∧ g.subject = c.subject := by
  induction st generalizing c with
  | nil => cases hc
  | cons d st ih =>
    have hbelow : ∀ g ∈ st, ∃ k ∈ d :: st, Owner k ∧ k.subject = g.subject := fun g hg => by
      obtain ⟨k, hk, ho⟩ := ih h.2 hg
      exact ⟨k, List.mem_cons_of_mem _ hk, ho⟩
    obtain rfl | hc := List.mem_cons.mp hc
    · obtain ⟨-, -, hcur⟩ | ⟨-, ⟨t, ht, -⟩ | ⟨-, g, hg, -, -, -, hs⟩⟩ := h.1
      · obtain ⟨g, hg, -, hs⟩ := current_mem hcur
        exact hs ▸ hbelow g hg
      · exact ⟨c, by simp, Option.isSome_of_eq_some ht, rfl⟩
      · exact hs ▸ hbelow g hg
    · exact hbelow c hc

theorem eq_of_addr {g' : Slot P T} (h : (addrs st).Nodup) (hg : g ∈ st) (hg' : g' ∈ st)
    (he : g.addr = g'.addr) : g = g' :=
  List.inj_on_of_nodup_map h hg hg' he

theorem Linked.subject (h : Linked target null r (c :: g :: st))
    (hn : (addrs (c :: g :: st)).Nodup) (hc : c.info = none) (hr : c.ref = null ∨ c.ref = g.addr)
    (hg : g.handling = true) : g.subject = c.subject := by
  obtain ⟨-, -, hcur⟩ | ⟨hne, ⟨t, ht, -⟩ | ⟨-, k, hk, -, ha, -, hks⟩⟩ := h.1
  · simpa [current, hg] using hcur
  · rw [hc] at ht
    cases ht
  · have hka : k.addr = g.addr := ha.trans (hr.resolve_left hne)
    rw [← eq_of_addr (List.nodup_cons.mp hn).2 hk (by simp) hka]
    exact hks

theorem Linked.take (h : Linked target null r (c :: g :: st))
    (hn : (addrs (c :: g :: st)).Nodup) (hc : c.info = none) (hr : c.ref = null ∨ c.ref = g.addr)
    (hg : g.handling = true) :
    Linked target null r ({ c with ref := g.ref, info := g.info } :: st) := by
  have hs := h.subject hn hc hr hg
  obtain ⟨-, hg', hst⟩ := h
  refine ⟨?_, hst⟩
  obtain ⟨h0, hi, hcur⟩ | ⟨hne, ⟨t, ht, hk⟩ | ⟨hi, k, hk, hh, ha, ho, hks⟩⟩ := hg'
  · exact .inl ⟨h0, hi, hs ▸ hcur⟩
  · exact .inr ⟨hne, .inl ⟨t, ht, hs ▸ hk⟩⟩
  · exact .inr ⟨hne, .inr ⟨hi, k, hk, hh, ha, ho, hks.trans hs⟩⟩

theorem Linked.copy (h : Linked target null r (c :: g :: st))
    (hn : (addrs (c :: g :: st)).Nodup) (hc : c.info = none) (hr : c.ref = null ∨ c.ref = g.addr)
    (hg : g.handling = true) :
    Linked target null r ({ c with ref := g.ref, info := g.info } :: g :: st) := by
  have hs := h.subject hn hc hr hg
  obtain ⟨-, hg', hst⟩ := h
  refine ⟨?_, hg', hst⟩
  obtain ⟨h0, hi, -⟩ | ⟨hne, ⟨t, ht, hk⟩ | ⟨hi, k, hk, hh, ha, ho, hks⟩⟩ := hg'
  · exact .inl ⟨h0, hi, by simp [current, hg, hs]⟩
  · exact .inr ⟨hne, .inl ⟨t, ht, hs ▸ hk⟩⟩
  · exact .inr ⟨hne, .inr ⟨hi, k, List.mem_cons_of_mem _ hk, hh, ha, ho, hks.trans hs⟩⟩

theorem Linked.drop (h : Linked target null r (c :: g :: st)) (hg : g.handling = true)
    (hr : c.info = none → c.ref ≠ g.addr) (h0 : c.ref = null → g.ref = null) :
    Linked target null r (c :: st) := by
  obtain ⟨hc, hgr, hst⟩ := h
  refine ⟨?_, hst⟩
  obtain ⟨hz, hi, hcur⟩ | ⟨hne, hown | ⟨hi, k, hk, hh, ha, ho⟩⟩ := hc
  · obtain ⟨-, -, hcg⟩ | ⟨hgz, -⟩ := hgr
    · refine .inl ⟨hz, hi, hcg.trans ?_⟩
      simpa [current, hg] using hcur
    · exact absurd (h0 hz) hgz
  · exact .inr ⟨hne, .inl hown⟩
  · obtain rfl | hk := List.mem_cons.mp hk
    · exact absurd ha.symm (hr hi)
    · exact .inr ⟨hne, .inr ⟨hi, k, hk, hh, ha, ho⟩⟩

theorem Linked.link (h : Linked target null r (c :: st)) (h0 : c.ref = null)
    {p : P} (hp : p ≠ null)
    (hg : ∃ g ∈ st, g.handling = true ∧ g.addr = p ∧ target g ∧ current st = some g.subject) :
    Linked target null r ({ c with ref := p } :: st) := by
  obtain ⟨⟨-, hc, hcur⟩ | ⟨hne, -⟩, hst⟩ := h
  · obtain ⟨g, hm, hh, ha, ho, hs⟩ := hg
    rw [hs] at hcur
    exact ⟨.inr ⟨hp, .inr ⟨hc, g, hm, hh, ha, ho, Option.some.inj hcur⟩⟩, hst⟩
  · exact absurd h0 hne

end Vcrtl.Lib.Links

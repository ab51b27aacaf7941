import Mathlib.Data.List.Nodup
import Mathlib.Data.List.Perm.Basic
import Mathlib.Logic.Function.Basic

namespace Vcrtl.Lib.Custody

variable {P T : Type}

/-- What has happened to the objects so far. An object is known by its number,
the position at which it was handed in; `occupant` is the last one put at an
address, and `log` lists the destructor calls by the object they fell on. -/
structure Record (P T : Type) where
  thrown : List (P × T)
  occupant : P → Option Nat
  log : List (Option Nat)

def Record.empty : Record P T := ⟨[], fun _ => none, []⟩

def Record.hand [DecidableEq P] (r : Record P T) (o : P) (t : T) : Record P T :=
  ⟨r.thrown ++ [(o, t)], Function.update r.occupant o (some r.thrown.length), r.log⟩

def Record.Has (r : Record P T) (n : Nat) (p : P × T) : Prop :=
  r.occupant p.1 = some n ∧ r.thrown[n]? = some p

def Record.destroy (r : Record P T) (o : P) : Record P T :=
  { r with log := r.log ++ [r.occupant o] }

def Record.destroyAll (r : Record P T) (os : List P) : Record P T := os.foldl Record.destroy r

/-- The owners at the addresses `addrs` keep exactly the objects `owners`. Each
object that can be destroyed has been, once, unless it is still kept. -/
structure Kept (audible : T → Bool) (addrs : List P) (owners : List (P × T)) (r : Record P T) :
    Prop where
  addrs_nodup : addrs.Nodup
  owners_nodup : (owners.map Prod.fst).Nodup
  apart : ∀ a ∈ addrs, a ∉ owners.map Prod.fst
  known : ∀ p ∈ owners, ∃ n, r.Has n p
  count : ∀ n p, r.thrown[n]? = some p → r.log.count (some n) =
    if audible p.2 ∧ ¬ ∃ q ∈ owners, r.occupant q.1 = some n then 1 else 0
  logged : ∀ x ∈ r.log, ∃ n < r.thrown.length, x = some n

variable {audible : T → Bool} {addrs addrs' : List P} {owners owners' : List (P × T)}
  {r : Record P T} {a o : P} {t : T}

@[simp] theorem destroyAll_thrown (r : Record P T) (os : List P) :
    (r.destroyAll os).thrown = r.thrown := by
  induction os generalizing r with
  | nil => rfl
  | cons o os ih => exact ih (r.destroy o)

@[simp] theorem destroyAll_occupant (r : Record P T) (os : List P) :
    (r.destroyAll os).occupant = r.occupant := by
  induction os generalizing r with
  | nil => rfl
  | cons o os ih => exact ih (r.destroy o)

theorem has_hand [DecidableEq P] : (r.hand o t).Has r.thrown.length (o, t) :=
  ⟨Function.update_self .., by simp [Record.hand]⟩

theorem Record.Has.hand [DecidableEq P] {n : Nat} {p : P × T} (h : r.Has n p) (hne : p.1 ≠ o) :
    (r.hand o t).Has n p := by
  refine ⟨(Function.update_of_ne hne _ _).trans h.1, ?_⟩
  simp only [Record.hand]
  rw [List.getElem?_append_left (List.getElem?_eq_some_iff.mp h.2).1, h.2]

theorem kept_empty : Kept audible [] [] (Record.empty : Record P T) := by
  refine ⟨List.nodup_nil, List.nodup_nil, ?_, ?_, ?_, ?_⟩ <;> simp [Record.empty]

theorem Kept.perm (h : Kept audible addrs owners r) (ha : addrs'.Sublist addrs)
    (ho : owners.Perm owners') : Kept audible addrs' owners' r := by
  refine ⟨h.addrs_nodup.sublist ha, (ho.map Prod.fst).nodup_iff.mp h.owners_nodup, ?_, ?_, ?_,
    h.logged⟩
  · intro a hm ho'
    exact h.apart a (ha.subset hm) ((ho.map Prod.fst).mem_iff.mpr ho')
  · exact fun p hp => h.known p (ho.mem_iff.mpr hp)
  · intro n p hn
    have he : (∃ q ∈ owners', r.occupant q.1 = some n) ↔ ∃ q ∈ owners, r.occupant q.1 = some n := by
      simp only [ho.mem_iff]
    rw [h.count n p hn]
    simp only [he]

theorem Kept.enter (h : Kept audible addrs owners r) (ha : a ∉ addrs)
    (ho : a ∉ owners.map Prod.fst) : Kept audible (a :: addrs) owners r := by
  refine ⟨List.nodup_cons.mpr ⟨ha, h.addrs_nodup⟩, h.owners_nodup, ?_, h.known, h.count, h.logged⟩
  intro b hb
  obtain rfl | hb := List.mem_cons.mp hb
  · exact ho
  · exact h.apart b hb

theorem Kept.hand [DecidableEq P] (h : Kept audible addrs owners r) (ha : o ∉ addrs)
    (ho : o ∉ owners.map Prod.fst) : Kept audible addrs ((o, t) :: owners) (r.hand o t) := by
  have hne : ∀ p ∈ owners, p.1 ≠ o := fun p hp he => ho (he ▸ List.mem_map_of_mem hp)
  have hold : ∀ p ∈ owners, (r.hand o t).occupant p.1 = r.occupant p.1 :=
    fun p hp => Function.update_of_ne (hne p hp) _ _
  have hnew : (r.hand o t).occupant o = some r.thrown.length := has_hand.1
  refine ⟨h.addrs_nodup, List.nodup_cons.mpr ⟨ho, h.owners_nodup⟩, ?_, ?_, ?_, ?_⟩
  · intro b hb hm
    obtain rfl | hm := List.mem_cons.mp hm
    · exact ha hb
    · exact h.apart b hb hm
  · intro p hp
    obtain rfl | hp := List.mem_cons.mp hp
    · exact ⟨_, has_hand⟩
    · obtain ⟨n, hn⟩ := h.known p hp
      exact ⟨n, hn.hand (hne p hp)⟩
  · intro n p hp
    by_cases hn : n < r.thrown.length
    · have ht : r.thrown[n]? = some p := by
        simp only [Record.hand] at hp
        rwa [List.getElem?_append_left hn] at hp
      have he : (∃ q ∈ (o, t) :: owners, (r.hand o t).occupant q.1 = some n) ↔
          ∃ q ∈ owners, r.occupant q.1 = some n := by
        constructor
        · rintro ⟨q, hq, hqn⟩
          obtain rfl | hq := List.mem_cons.mp hq
          · rw [hnew] at hqn
            have hlen : r.thrown.length = n := by simpa using hqn
            omega
          · exact ⟨q, hq, (hold q hq).symm.trans hqn⟩
        · rintro ⟨q, hq, hqn⟩
          exact ⟨q, List.mem_cons_of_mem _ hq, (hold q hq).trans hqn⟩
      have hc := h.count n p ht
      simp only [he]
      exact hc
    · have hlen : n < (r.thrown ++ [(o, t)]).length := (List.getElem?_eq_some_iff.mp hp).1
      have hn' : n = r.thrown.length := by
        simp only [List.length_append, List.length_singleton] at hlen
        omega
      subst hn'
      have hz : r.log.count (some r.thrown.length) = 0 := by
        apply List.count_eq_zero.mpr
        intro hm
        obtain ⟨k, hk, he⟩ := h.logged _ hm
        have := Option.some.inj he
        omega
      have hex : ∃ q ∈ (o, t) :: owners, (r.hand o t).occupant q.1 = some r.thrown.length :=
        ⟨(o, t), by simp, hnew⟩
      rw [if_neg (fun hcon => hcon.2 hex)]
      exact hz
  · intro x hx
    obtain ⟨n, hn, he⟩ := h.logged x hx
    refine ⟨n, ?_, he⟩
    simp only [Record.hand, List.length_append]
    omega

theorem Kept.occupant_inj (h : Kept audible addrs ((o, t) :: owners) r) {q : P × T}
    (hq : q ∈ owners) : r.occupant q.1 ≠ r.occupant o := by
  intro he
  obtain ⟨n, hn, ht⟩ := h.known (o, t) (by simp)
  obtain ⟨k, hk, hs⟩ := h.known q (List.mem_cons_of_mem _ hq)
  rw [he, hn] at hk
  cases hk
  rw [ht] at hs
  cases hs
  exact (List.nodup_cons.mp h.owners_nodup).1 (List.mem_map_of_mem hq)

theorem Kept.release (h : Kept audible addrs ((o, t) :: owners) r) (ht : audible t = false) :
    Kept audible addrs owners r := by
  refine ⟨h.addrs_nodup, (List.nodup_cons.mp h.owners_nodup).2, ?_, ?_, ?_, h.logged⟩
  · exact fun b hb hm => h.apart b hb (List.mem_cons_of_mem _ hm)
  · exact fun p hp => h.known p (List.mem_cons_of_mem _ hp)
  · intro n p hp
    rw [h.count n p hp]
    by_cases hn : r.occupant o = some n
    · obtain ⟨k, hk, hs⟩ := h.known (o, t) (by simp)
      rw [hn] at hk
      cases hk
      rw [hp] at hs
      cases hs
      simp [ht]
    · have he : (∃ q ∈ (o, t) :: owners, r.occupant q.1 = some n) ↔
          ∃ q ∈ owners, r.occupant q.1 = some n := by
        simp [hn]
      simp only [he]

theorem Kept.destroy (h : Kept audible addrs ((o, t) :: owners) r) (ht : audible t = true) :
    Kept audible addrs owners (r.destroy o) := by
  obtain ⟨k, hk, hs⟩ := h.known (o, t) (by simp)
  refine ⟨h.addrs_nodup, (List.nodup_cons.mp h.owners_nodup).2, ?_, ?_, ?_, ?_⟩
  · exact fun b hb hm => h.apart b hb (List.mem_cons_of_mem _ hm)
  · exact fun p hp => h.known p (List.mem_cons_of_mem _ hp)
  · intro n p hp
    have hc := h.count n p hp
    simp only [Record.destroy, hk, List.count_append]
    by_cases hn : n = k
    · subst hn
      have hp' : r.thrown[n]? = some p := hp
      rw [hs] at hp'
      cases hp'
      have hno : ¬ ∃ q ∈ owners, r.occupant q.1 = some n := by
        rintro ⟨q, hq, hqn⟩
        exact h.occupant_inj hq (hqn.trans hk.symm)
      rw [if_neg (fun hcon => hcon.2 ⟨(o, t), by simp, hk⟩)] at hc
      rw [hc, if_pos ⟨ht, hno⟩]
      simp
    · have hne : r.occupant o ≠ some n := by rw [hk]; simpa using Ne.symm hn
      have he : (∃ q ∈ (o, t) :: owners, r.occupant q.1 = some n) ↔
          ∃ q ∈ owners, r.occupant q.1 = some n := by
        simp [hne]
      simp only [he] at hc
      rw [hc]
      simp [Ne.symm hn]
  · intro x hx
    obtain hx | hx := List.mem_append.mp hx
    · exact h.logged x hx
    · refine ⟨k, (List.getElem?_eq_some_iff.mp hs).1, ?_⟩
      rw [List.mem_singleton.mp hx, hk]

theorem Kept.arrive [DecidableEq P] (h : Kept audible addrs owners r)
    (ha : a ∉ addrs) (hao : a ∉ owners.map Prod.fst)
    (ho : o ∉ addrs) (hoo : o ∉ owners.map Prod.fst) (hne : o ≠ a) :
    Kept audible (a :: addrs) ((o, t) :: owners) (r.hand o t) := by
  apply (h.hand ho hoo).enter ha
  intro hm
  obtain he | hm := List.mem_cons.mp hm
  · exact hne he.symm
  · exact hao hm

theorem Kept.spared (h : Kept audible addrs owners r) {n : Nat} {p : P × T}
    (hn : r.thrown[n]? = some p) (ho : ∃ q ∈ owners, r.occupant q.1 = some n) :
    r.log.count (some n) = 0 := by
  rw [h.count n p hn, if_neg fun hcon => hcon.2 ho]

theorem Kept.ended (h : Kept audible addrs owners r) {n : Nat} {p : P × T}
    (hn : r.thrown[n]? = some p) (ht : audible p.2 = true)
    (ho : ¬ ∃ q ∈ owners, r.occupant q.1 = some n) : r.log.count (some n) = 1 := by
  rw [h.count n p hn, if_pos ⟨ht, ho⟩]

theorem Kept.audible_of_logged (h : Kept audible addrs owners r) {x : Option Nat}
    (hx : x ∈ r.log) : ∃ n p, x = some n ∧ r.thrown[n]? = some p ∧ audible p.2 = true := by
  obtain ⟨n, hlt, rfl⟩ := h.logged x hx
  have hn : r.thrown[n]? = some r.thrown[n] := List.getElem?_eq_getElem hlt
  refine ⟨n, _, rfl, hn, ?_⟩
  by_contra ht
  have hc := h.count n _ hn
  rw [if_neg fun hcon => ht hcon.1] at hc
  exact List.count_eq_zero.mp hc hx

end Vcrtl.Lib.Custody

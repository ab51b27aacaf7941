import Vcrtl.BugCheck
import Vcrtl.Lib.Bisect
import Vcrtl.Lib.Loops

namespace Vcrtl.Algorithm

open BugCheck Lib.Bisect Lib.Loops

variable {α : Type}

def elementAt (xs : List α) (i : Int) : Exec α :=
  if 0 ≤ i then
    match xs[i.toNat]? with
    | some x => .ok x
    | none => .error .fault
  else
    .error .fault

theorem elementAt_eq_ok {xs : List α} {i : Int} {x : α} :
    elementAt xs i = .ok x ↔ 0 ≤ i ∧ xs[i.toNat]? = some x := by
  rw [elementAt]
  by_cases hi : 0 ≤ i
  · rw [if_pos hi, and_iff_right hi]
    cases xs[i.toNat]? <;> simp
  · simp [hi]

theorem elementAt_natCast {xs : List α} {n : Nat} (h : n < xs.length) :
    elementAt xs n = .ok xs[n] :=
  elementAt_eq_ok.mpr ⟨Int.natCast_nonneg n, List.getElem?_eq_getElem h⟩

theorem mem_of_elementAt {xs : List α} {i : Int} {x : α} (h : elementAt xs i = .ok x) : x ∈ xs :=
  List.mem_of_getElem? (elementAt_eq_ok.mp h).2

theorem elementAt_no_bugCheck (xs : List α) (i : Int) (reason : BugCheckReason) :
    elementAt xs i ≠ .error (.bugCheck reason) := by
  rw [elementAt]
  split
  · cases xs[i.toNat]? <;> simp
  · simp

theorem elementAt_map {β : Type} (f : α → β) (xs : List α) (i : Int) :
    elementAt (xs.map f) i = f <$> elementAt xs i := by
  simp only [elementAt, List.getElem?_map]
  split
  · cases xs[i.toNat]? <;> rfl
  · rfl

/-- The loop of `binary_search` between two positions. Each turn at least
halves the distance, so as many turns as there are positions are enough. -/
def searchBetween (lt : α → α → Bool) (xs : List α) (value : α) : Nat → Nat → Nat → Option Bool
  | 0, first, last => if first = last then some false else none
  | fuel + 1, first, last =>
    if first = last then
      some false
    else
      let mid := first + (last - first) / 2
      match xs[mid]? with
      | none => none
      | some x =>
        if lt value x then
          searchBetween lt xs value fuel first mid
        else if lt x value then
          searchBetween lt xs value fuel (mid + 1) last
        else
          some true

def binarySearch (lt : α → α → Bool) (xs : List α) (value : α) : Option Bool :=
  searchBetween lt xs value xs.length 0 xs.length

def compareAt (lt : α → α → Bool) (xs : List α) (value : α) (i : Nat) : Ordering :=
  match xs[i]? with
  | none => .lt
  | some x => if lt value x then .lt else if lt x value then .gt else .eq

/-- No element comes before one that it is behind. -/
def Sorted (lt : α → α → Bool) (xs : List α) : Prop := xs.Pairwise fun a b => lt b a = false

instance (lt : α → α → Bool) (xs : List α) : Decidable (Sorted lt xs) :=
  inferInstanceAs (Decidable (xs.Pairwise fun a b => lt b a = false))

def Equivalent (lt : α → α → Bool) (a b : α) : Prop := lt a b = false ∧ lt b a = false

def middle (first last : Nat) : Nat := first + (last - first) / 2

/-- One turn of the loop of `binary_search`, with its bounds. -/
def searchTurn (lt : α → α → Bool) (xs : List α) (value : α) :
    Nat × Nat → Except Unit (Nat × Nat ⊕ Bool)
  | (first, last) =>
    if first = last then
      return .inr false
    else
      match xs[middle first last]? with
      | none => throw ()
      | some x =>
        if lt value x then
          return .inl (first, middle first last)
        else if lt x value then
          return .inl (middle first last + 1, last)
        else
          return .inr true

structure Searches (lt : α → α → Bool) (xs : List α) (value : α) (first last : Nat)
    (found : Bool) : Prop where
  within : ∀ n f l, Goes (searchTurn lt xs value) n (first, last) (f, l) →
    f ≠ l → first ≤ middle f l ∧ middle f l < last
  turns : ∀ n f l, Goes (searchTurn lt xs value) n (first, last) (f, l) → n ≤ last - first
  ends : ∃ n x, Goes (searchTurn lt xs value) n (first, last) x ∧
    searchTurn lt xs value x = .ok (.inr found)
  returns : ∀ fuel, last - first ≤ fuel →
    searchBetween lt xs value fuel first last = some found

variable {lt : α → α → Bool} {xs : List α} {value : α} {i j : Nat}

theorem compareAt_of_lt (h : i < xs.length) : compareAt lt xs value i =
    if lt value xs[i] then .lt else if lt xs[i] value then .gt else .eq := by
  rw [compareAt, List.getElem?_eq_getElem h]

theorem compareAt_lt_iff (h : i < xs.length) :
    compareAt lt xs value i = .lt ↔ lt value xs[i] = true := by
  rw [compareAt_of_lt h]
  cases lt value xs[i] <;> cases lt xs[i] value <;> simp

theorem compareAt_eq_iff (h : i < xs.length) :
    compareAt lt xs value i = .eq ↔ Equivalent lt value xs[i] := by
  rw [compareAt_of_lt h, Equivalent]
  cases lt value xs[i] <;> cases lt xs[i] value <;> simp

theorem searchBetween_bisect {fuel first last : Nat} (hle : first ≤ last)
    (hlast : last ≤ xs.length) (hfuel : last - first ≤ fuel) :
    searchBetween lt xs value fuel first last =
      some (bisect (compareAt lt xs value) first last).isSome := by
  induction fuel generalizing first last with
  | zero =>
    have heq : first = last := by omega
    rw [searchBetween, if_pos heq, bisect, if_neg (by omega)]
    rfl
  | succ fuel ih =>
    by_cases heq : first = last
    · rw [searchBetween, if_pos heq, bisect, if_neg (by omega)]
      rfl
    · have hin : first + (last - first) / 2 < xs.length := by omega
      have hget := List.getElem?_eq_getElem hin
      rw [searchBetween, if_neg heq, bisect, if_pos (by omega)]
      simp only [compareAt, hget]
      split
      · exact ih (by omega) (by omega) (by omega)
      · split
        · exact ih (by omega) hlast (by omega)
        · rfl

theorem binarySearch_bisect (lt : α → α → Bool) (xs : List α) (value : α) :
    binarySearch lt xs value = some (bisect (compareAt lt xs value) 0 xs.length).isSome :=
  searchBetween_bisect (Nat.zero_le _) (Nat.le_refl _) (Nat.le_refl _)

theorem binarySearch_true (h : binarySearch lt xs value = some true) :
    ∃ x ∈ xs, lt value x = false ∧ lt x value = false := by
  rw [binarySearch_bisect, Option.some.injEq] at h
  obtain ⟨i, hfound⟩ := Option.isSome_iff_exists.mp h
  obtain ⟨-, hi, heq⟩ := bisect_found hfound
  exact ⟨xs[i], List.getElem_mem hi, (compareAt_eq_iff hi).mp heq⟩

section

variable {first last f l fuel n : Nat} {found : Bool}

theorem searchBetween_succ : searchBetween lt xs value (fuel + 1) first last =
    (searchTurn lt xs value (first, last)).toOption.bind
      (Sum.elim (fun x => searchBetween lt xs value fuel x.1 x.2) some) := by
  rw [searchBetween, searchTurn, ← middle]
  by_cases heq : first = last
  · rw [if_pos heq, if_pos heq]
    rfl
  · rw [if_neg heq, if_neg heq]
    cases hget : xs[middle first last]? with
    | none =>
      simp only [hget]
      rfl
    | some x =>
      simp only [hget]
      cases lt value x with
      | true => rfl
      | false => cases lt x value <;> rfl

theorem searchBetween_goes (h : Goes (searchTurn lt xs value) n (first, last) (f, l)) :
    searchBetween lt xs value (n + fuel) first last = searchBetween lt xs value fuel f l := by
  generalize hs : (first, last) = s at h
  generalize ht : (f, l) = t at h
  induction h generalizing first last with
  | here s =>
    obtain ⟨rfl, rfl⟩ := Prod.mk.inj (hs.trans ht.symm)
    rw [Nat.zero_add]
  | @turn n s u t hturn hrest ih =>
    subst hs
    obtain ⟨f', l'⟩ := u
    rw [Nat.add_right_comm, searchBetween_succ, hturn]
    exact ih rfl ht

theorem searchTurn_on (h : searchTurn lt xs value (first, last) = .ok (.inl (f, l))) :
    first ≠ last ∧
      ((f = first ∧ l = middle first last) ∨ (f = middle first last + 1 ∧ l = last)) := by
  rw [searchTurn] at h
  split at h
  · cases h
  · rename_i hne
    refine ⟨hne, ?_⟩
    split at h
    · cases h
    · split at h
      · cases h
        exact .inl ⟨rfl, rfl⟩
      · split at h
        · cases h
          exact .inr ⟨rfl, rfl⟩
        · cases h

theorem searchTurn_lowers : Lowers (searchTurn lt xs value)
    (fun x => first ≤ x.1 ∧ x.1 ≤ x.2 ∧ x.2 ≤ last) fun x => x.2 - x.1 := by
  have hturn : ∀ f l f' l', first ≤ f ∧ f ≤ l ∧ l ≤ last →
      searchTurn lt xs value (f, l) = .ok (.inl (f', l')) →
        (first ≤ f' ∧ f' ≤ l' ∧ l' ≤ last) ∧ l' - f' < l - f := by
    intro f l f' l' hbounds h
    obtain ⟨hne, ⟨rfl, rfl⟩ | ⟨rfl, rfl⟩⟩ := searchTurn_on h
    · rw [middle]
      omega
    · rw [middle]
      omega
  refine ⟨?_, ?_⟩
  · rintro ⟨f, l⟩ ⟨f', l'⟩ hbounds h
    exact (hturn f l f' l' hbounds h).1
  · rintro ⟨f, l⟩ ⟨f', l'⟩ hbounds h
    exact (hturn f l f' l' hbounds h).2

theorem searches (hle : first ≤ last) (hlast : last ≤ xs.length) :
    Searches lt xs value first last (bisect (compareAt lt xs value) first last).isSome := by
  have hgoes : ∀ n f l, Goes (searchTurn lt xs value) n (first, last) (f, l) →
      (first ≤ f ∧ f ≤ l ∧ l ≤ last) ∧ l - f + n ≤ last - first := by
    intro n f l h
    exact h.measure_le searchTurn_lowers ⟨Nat.le_refl _, hle, Nat.le_refl _⟩
  refine ⟨?_, ?_, ?_, ?_⟩
  · intro n f l h hne
    obtain ⟨hbounds, -⟩ := hgoes n f l h
    rw [middle]
    omega
  · intro n f l h
    obtain ⟨-, hturns⟩ := hgoes n f l h
    omega
  · obtain ⟨n, ⟨f, l⟩, h, hlast'⟩ := searchTurn_lowers.ends (s := (first, last))
      ⟨Nat.le_refl first, hle, Nat.le_refl last⟩
    refine ⟨n, (f, l), h, ?_⟩
    obtain ⟨hbounds, hturns⟩ := hgoes n f l h
    have hresult : searchBetween lt xs value (last - first + 1) first last = some _ :=
      searchBetween_bisect hle hlast (Nat.le_succ _)
    have hfuel : last - first + 1 = n + (last - first - n + 1) := by omega
    rw [hfuel, searchBetween_goes h, searchBetween_succ] at hresult
    cases hturn : searchTurn lt xs value (f, l) with
    | error e =>
      rw [hturn] at hresult
      cases hresult
    | ok r =>
      rw [hturn] at hresult
      cases r with
      | inl x => exact absurd hturn (hlast' x)
      | inr found => rw [Option.some.inj hresult]
  · intro fuel hfuel
    exact searchBetween_bisect hle hlast hfuel

end

theorem compareAt_append (before after range : List α) (h : i < range.length) :
    compareAt lt (before ++ (range ++ after)) value (before.length + i) =
      compareAt lt range value i := by
  rw [compareAt, compareAt, List.getElem?_append_right (Nat.le_add_right _ _),
    Nat.add_sub_cancel_left, List.getElem?_append_left h]

theorem searches_append (before range after : List α) :
    Searches lt (before ++ (range ++ after)) value before.length (before.length + range.length)
      (bisect (compareAt lt range value) 0 range.length).isSome := by
  have hlength : before.length + range.length ≤ (before ++ (range ++ after)).length := by
    rw [List.length_append, List.length_append]
    omega
  have hshift : bisect (compareAt lt (before ++ (range ++ after)) value) before.length
      (before.length + range.length) =
        (bisect (compareAt lt range value) 0 range.length).map (before.length + ·) :=
    bisect_shift (l := 0) fun i _ hi => compareAt_append before after range hi
  rw [← Option.isSome_map, ← hshift]
  exact searches (Nat.le_add_right _ _) hlength

section

variable [IsStrictWeakOrder α fun a b => lt a b = true]

theorem lt_or_lt {a c : α} (b : α) (h : lt a c = true) : lt a b = true ∨ lt b c = true :=
  (orderConnected fun a b => lt a b = true).conn a b c h

theorem not_lt_of_lt {a b : α} (h : lt a b = true) : ¬ lt b a = true :=
  asymm_of (fun a b => lt a b = true) h

theorem Sorted.not_lt (h : Sorted lt xs) (hij : i ≤ j) (hj : j < xs.length) :
    ¬ lt xs[j] xs[i] = true := by
  obtain hlt | rfl := Nat.lt_or_eq_of_le hij
  · rw [Bool.not_eq_true]
    exact List.pairwise_iff_getElem.mp h i j (Nat.lt_trans hlt hj) hj hlt
  · exact irrefl_of (fun a b => lt a b = true) xs[i]

theorem compareAt_gt_iff (h : i < xs.length) :
    compareAt lt xs value i = .gt ↔ lt xs[i] value = true := by
  rw [compareAt_of_lt h]
  by_cases hgt : lt xs[i] value = true
  · rw [if_neg (not_lt_of_lt hgt), if_pos hgt]
    exact iff_of_true rfl hgt
  · rw [if_neg hgt]
    cases lt value xs[i] <;> simp [hgt]

theorem compareAt_ordered (h : Sorted lt xs) : Ordered (compareAt lt xs value) xs.length := by
  refine ⟨?_, ?_⟩
  · intro i j hij hj hbefore
    rw [compareAt_lt_iff (Nat.lt_of_le_of_lt hij hj)] at hbefore
    rw [compareAt_lt_iff hj]
    exact (lt_or_lt xs[j] hbefore).resolve_right (h.not_lt hij hj)
  · intro i j hij hj hbehind
    rw [compareAt_gt_iff hj] at hbehind
    rw [compareAt_gt_iff (Nat.lt_of_le_of_lt hij hj)]
    exact (lt_or_lt xs[i] hbehind).resolve_left (h.not_lt hij hj)

/-- On a sorted table the search tells whether there is an equivalent element. -/
theorem bisect_equivalent_iff (h : Sorted lt xs) :
    (bisect (compareAt lt xs value) 0 xs.length).isSome ↔ ∃ x ∈ xs, Equivalent lt value x := by
  rw [bisect_isSome_iff (compareAt_ordered h), List.exists_mem_iff_exists_getElem]
  refine ⟨?_, ?_⟩
  · rintro ⟨i, hi, heq⟩
    exact ⟨i, hi, (compareAt_eq_iff hi).mp heq⟩
  · rintro ⟨i, hi, hequivalent⟩
    exact ⟨i, hi, (compareAt_eq_iff hi).mpr hequivalent⟩

theorem binarySearch_equivalent_iff (h : Sorted lt xs) :
    binarySearch lt xs value = some true ↔ ∃ x ∈ xs, Equivalent lt value x := by
  rw [binarySearch_bisect, Option.some.injEq]
  exact bisect_equivalent_iff h

end

theorem byKey (key : α → Nat) : IsStrictWeakOrder α fun a b => decide (key a < key b) = true := by
  simp only [decide_eq_true_eq]
  refine { irrefl := ?_, trans := ?_, incomp_trans := ?_ }
  · intro a
    exact Nat.lt_irrefl (key a)
  · intro a b c
    exact Nat.lt_trans
  · rintro a b c ⟨hab, hba⟩ ⟨hbc, hcb⟩
    have heq : key a = key c := by omega
    rw [heq]
    exact ⟨Nat.lt_irrefl _, Nat.lt_irrefl _⟩

section

variable {w : Nat} {a b : BitVec w}

instance bitVecOrder : IsStrictWeakOrder (BitVec w) fun a b => decide (a < b) = true := by
  have hkeys := byKey (BitVec.toNat (w := w))
  simp only [decide_eq_true_eq, BitVec.lt_def] at hkeys ⊢
  exact hkeys

theorem equivalent_iff_eq : Equivalent (fun a b => decide (a < b)) a b ↔ a = b := by
  refine ⟨?_, ?_⟩
  · rintro ⟨hge, hle⟩
    apply BitVec.le_antisymm
    · exact BitVec.not_lt.mp (of_decide_eq_false hle)
    · exact BitVec.not_lt.mp (of_decide_eq_false hge)
  · rintro rfl
    have hirrefl : decide (a < a) = false := decide_eq_false (BitVec.lt_irrefl a)
    exact ⟨hirrefl, hirrefl⟩

end

end Vcrtl.Algorithm

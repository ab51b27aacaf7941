namespace Vcrtl.Lib.Loops

variable {σ β ε : Type}

/-- A number of turns takes a loop from one state to another. A turn stops the
loop, leaves it with a result, or goes on. -/
inductive Goes (turn : σ → Except ε (σ ⊕ β)) : Nat → σ → σ → Prop
  | here (s) : Goes turn 0 s s
  | turn {n s t u} (hturn : turn s = .ok (.inl t)) (hrest : Goes turn n t u) :
      Goes turn (n + 1) s u

structure Lowers (turn : σ → Except ε (σ ⊕ β)) (inv : σ → Prop) (measure : σ → Nat) : Prop where
  keeps : ∀ s t, inv s → turn s = .ok (.inl t) → inv t
  lowers : ∀ s t, inv s → turn s = .ok (.inl t) → measure t < measure s

def loop (turn : σ → Except ε (σ ⊕ β)) (hang : ε) : Nat → σ → Except ε β
  | 0, _ => .error hang
  | fuel + 1, s => do
    match ← turn s with
    | .inl t => loop turn hang fuel t
    | .inr b => return b

variable {turn : σ → Except ε (σ ⊕ β)} {inv : σ → Prop} {measure : σ → Nat} {hang : ε}
  {n fuel : Nat} {s t : σ}

theorem Goes.measure_le (h : Goes turn n s t) (hlowers : Lowers turn inv measure) (hs : inv s) :
    inv t ∧ measure t + n ≤ measure s := by
  induction h with
  | here s => exact ⟨hs, Nat.le_refl _⟩
  | turn hturn hrest ih =>
    obtain ⟨ht, hle⟩ := ih (hlowers.keeps _ _ hs hturn)
    have hlt := hlowers.lowers _ _ hs hturn
    exact ⟨ht, by omega⟩

theorem Lowers.ends (h : Lowers turn inv measure) (hs : inv s) :
    ∃ n t, Goes turn n s t ∧ ∀ u, turn t ≠ .ok (.inl u) := by
  induction hm : measure s using Nat.strongRecOn generalizing s with
  | ind m ih =>
    by_cases hturn : ∃ t, turn s = .ok (.inl t)
    · obtain ⟨t, hturn⟩ := hturn
      have hlt : measure t < m := hm ▸ h.lowers s t hs hturn
      obtain ⟨n, u, hgoes, hlast⟩ := ih _ hlt (h.keeps s t hs hturn) rfl
      exact ⟨n + 1, u, .turn hturn hgoes, hlast⟩
    · exact ⟨0, s, .here s, not_exists.mp hturn⟩

theorem Goes.loop_eq (h : Goes turn n s t) :
    loop turn hang (n + fuel) s = loop turn hang fuel t := by
  induction h with
  | here s => rw [Nat.zero_add]
  | @turn n s t u hturn hrest ih =>
    rw [Nat.add_right_comm, loop, hturn]
    exact ih

theorem loop_error {e : ε} (h : turn s = .error e) : loop turn hang (fuel + 1) s = .error e := by
  rw [loop, h]
  rfl

theorem loop_leave {b : β} (h : turn s = .ok (.inr b)) : loop turn hang (fuel + 1) s = .ok b := by
  rw [loop, h]
  rfl

end Vcrtl.Lib.Loops

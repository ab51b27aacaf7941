namespace Vcrtl.Lib.Runs

variable {σ ε : Type} {Step : σ → ε → σ → Prop} {init : σ}

/-- A run with the steps it took, each with the state it started from. -/
inductive Run (Step : σ → ε → σ → Prop) (init : σ) : List (σ × ε) → σ → Prop
  | nil : Run Step init [] init
  | snoc {tr s e t} : Run Step init tr s → Step s e t → Run Step init (tr ++ [(s, e)]) t

def Throughout (good : σ → Prop) (tr : List (σ × ε)) (s : σ) : Prop :=
  (∀ p ∈ tr, good p.1) ∧ good s

theorem throughout_snoc {good : σ → Prop} {tr : List (σ × ε)} {s t : σ} {e : ε} :
    Throughout good (tr ++ [(s, e)]) t ↔ Throughout good tr s ∧ good t := by
  simp only [Throughout, List.mem_append, List.mem_singleton, or_imp, forall_and, forall_eq]

/-- If steps of one kind keep the invariant and steps of the other kind spoil
what is good, the runs that stay good are those with steps of the first kind. -/
theorem run_iff {inv good : σ → Prop} {clean : σ → ε → Prop} (hinit : inv init)
    (hgood : ∀ s, inv s → good s)
    (hclean : ∀ s e t, inv s → Step s e t → clean s e → inv t)
    (hspoil : ∀ s e t, inv s → Step s e t → ¬ clean s e → ¬ good t)
    {tr : List (σ × ε)} {s : σ} (h : Run Step init tr s) :
    Throughout good tr s ↔ ∀ p ∈ tr, clean p.1 p.2 := by
  suffices hboth : (Throughout good tr s ↔ ∀ p ∈ tr, clean p.1 p.2) ∧
      ((∀ p ∈ tr, clean p.1 p.2) → inv s) from hboth.1
  induction h with
  | nil => exact ⟨by simp [Throughout, hgood _ hinit], fun _ => hinit⟩
  | @snoc tr s e t _ hst ih =>
    have hall : (∀ p ∈ tr ++ [(s, e)], clean p.1 p.2) ↔ (∀ p ∈ tr, clean p.1 p.2) ∧ clean s e := by
      simp only [List.mem_append, List.mem_singleton, or_imp, forall_and, forall_eq]
    rw [throughout_snoc, hall, ih.1]
    constructor
    · constructor
      · rintro ⟨htr, ht⟩
        refine ⟨htr, ?_⟩
        by_cases hc : clean s e
        · exact hc
        · exact absurd ht (hspoil s e t (ih.2 htr) hst hc)
      · rintro ⟨htr, hc⟩
        exact ⟨htr, hgood t (hclean s e t (ih.2 htr) hst hc)⟩
    · rintro ⟨htr, hc⟩
      exact hclean s e t (ih.2 htr) hst hc

/-- Forward simulation: what is matched step by step is matched by a run that looks the same. -/
theorem run_simulates {σ' ε' : Type} {Step' : σ' → ε' → σ' → Prop} {init' : σ'}
    (R : σ → σ' → Prop) (look : ε' → ε) (hinit : R init init')
    (hstep : ∀ s e t s', R s s' → Step s e t → ∃ e' t', Step' s' e' t' ∧ look e' = e ∧ R t t')
    {tr : List (σ × ε)} {s : σ} (h : Run Step init tr s) :
    ∃ tr' s', Run Step' init' tr' s' ∧ tr.map Prod.snd = tr'.map (fun p => look p.2) ∧ R s s' := by
  induction h with
  | nil => exact ⟨[], init', .nil, rfl, hinit⟩
  | @snoc tr s e t _ hst ih =>
    obtain ⟨tr', s', hrun, hlook, hrel⟩ := ih
    obtain ⟨e', t', hst', rfl, hrel'⟩ := hstep s e t s' hrel hst
    refine ⟨tr' ++ [(s', e')], t', .snoc hrun hst', ?_, hrel'⟩
    rw [List.map_append, List.map_append, hlook]
    rfl

end Vcrtl.Lib.Runs

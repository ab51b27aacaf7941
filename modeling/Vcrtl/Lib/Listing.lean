namespace Vcrtl.Lib.Listing

variable {φ ι γ κ σ : Type}

/-- A line of a listing that has no loops: an instruction, a call, or a jump
over some of the next lines. -/
inductive Line (ι γ κ : Type)
  | instr (i : ι)
  | call (k : κ)
  | skip (c : γ) (n : Nat)

abbrev Lines (φ ι γ κ : Type) := List (φ × Line ι γ κ)

/-- An instruction that faults has no result. A call returns in several ways,
or not at all. -/
structure Machine (ι γ κ σ : Type) where
  exec : ι → σ → Option σ
  test : γ → σ → Bool
  returns : κ → σ → σ → Prop

def lines (f : φ) (is : List ι) : Lines φ ι γ κ := is.map fun i => (f, .instr i)

/-- A call that has returned, with the states before and after it. -/
structure Called (κ σ : Type) where
  callee : κ
  before : σ
  after : σ

/-- The machine gets from one place to another with some calls. -/
inductive Gets (M : Machine ι γ κ σ) :
    Lines φ ι γ κ → σ → List (Called κ σ) → Lines φ ι γ κ → σ → Prop
  | here (code s) : Gets M code s [] code s
  | instr {f i rest s t calls code u} (hexec : M.exec i s = some t)
      (hrest : Gets M rest t calls code u) : Gets M ((f, .instr i) :: rest) s calls code u
  | call {f k rest s t calls code u} (hreturns : M.returns k s t)
      (hrest : Gets M rest t calls code u) :
      Gets M ((f, .call k) :: rest) s (⟨k, s, t⟩ :: calls) code u
  | skip {f c n rest s calls code u}
      (hrest : Gets M (if M.test c s then rest.drop n else rest) s calls code u) :
      Gets M ((f, .skip c n) :: rest) s calls code u

def run (M : Machine ι γ κ σ) : List ι → σ → Option σ
  | [], s => some s
  | i :: is, s => (M.exec i s).bind (run M is)

def Ready (M : Machine ι γ κ σ) (code : Lines φ ι γ κ) (s : σ) : Prop :=
  ∀ f i, code.head? = some (f, .instr i) → M.exec i s ≠ none

/-- Whatever the calls do after the `past` ones, `inv` holds before every line,
no line faults, and `post` holds behind the last one. -/
structure Safe (M : Machine ι γ κ σ) (inv : List (Called κ σ) → Lines φ ι γ κ → σ → Prop)
    (post : List (Called κ σ) → σ → Prop) (past : List (Called κ σ)) (code : Lines φ ι γ κ)
    (s : σ) : Prop where
  inv : ∀ calls code' t, Gets M code s calls code' t → code' ≠ [] → inv (past ++ calls) code' t
  ready : ∀ calls code' t, Gets M code s calls code' t → Ready M code' t
  post : ∀ calls t, Gets M code s calls [] t → post (past ++ calls) t

variable {M : Machine ι γ κ σ} {inv : List (Called κ σ) → Lines φ ι γ κ → σ → Prop}
  {post : List (Called κ σ) → σ → Prop} {past : List (Called κ σ)} {code rest : Lines φ ι γ κ}
  {f : φ} {i : ι} {is : List ι} {k : κ} {c : γ} {n : Nat} {s t : σ}

@[simp] theorem run_nil : run M [] s = some s := rfl

@[simp] theorem run_cons : run M (i :: is) s = (M.exec i s).bind (run M is) := rfl

theorem safe_nil (h : post past s) : Safe M inv post past [] s := by
  refine ⟨?_, ?_, ?_⟩
  · intro calls code' t hgets hne
    cases hgets
    exact absurd rfl hne
  · intro calls code' t hgets
    cases hgets
    simp [Ready]
  · intro calls t hgets
    cases hgets
    rwa [List.append_nil]

theorem safe_instr (hinv : inv past ((f, .instr i) :: rest) s) (hexec : M.exec i s = some t)
    (hrest : Safe M inv post past rest t) : Safe M inv post past ((f, .instr i) :: rest) s := by
  have hnext (t' : σ) (h : M.exec i s = some t') : t' = t :=
    Option.some.inj (h.symm.trans hexec)
  refine ⟨?_, ?_, ?_⟩
  · intro calls code' u hgets hne
    cases hgets with
    | here => rwa [List.append_nil]
    | instr h hgets =>
      obtain rfl := hnext _ h
      exact hrest.inv _ _ _ hgets hne
  · intro calls code' u hgets
    cases hgets with
    | here =>
      intro f' i' hhead
      obtain ⟨-, rfl⟩ : f = f' ∧ i = i' := by simpa using hhead
      simp [hexec]
    | instr h hgets =>
      obtain rfl := hnext _ h
      exact hrest.ready _ _ _ hgets
  · intro calls u hgets
    cases hgets with
    | instr h hgets =>
      obtain rfl := hnext _ h
      exact hrest.post _ _ hgets

theorem safe_call (hinv : inv past ((f, .call k) :: rest) s)
    (hrest : ∀ t, M.returns k s t → Safe M inv post (past ++ [⟨k, s, t⟩]) rest t) :
    Safe M inv post past ((f, .call k) :: rest) s := by
  have hsplit (t : σ) (calls : List (Called κ σ)) :
      past ++ ⟨k, s, t⟩ :: calls = past ++ [⟨k, s, t⟩] ++ calls :=
    (List.append_cons _ _ _)
  refine ⟨?_, ?_, ?_⟩
  · intro calls code' u hgets hne
    cases hgets with
    | here => rwa [List.append_nil]
    | call h hgets =>
      rw [hsplit]
      exact (hrest _ h).inv _ _ _ hgets hne
  · intro calls code' u hgets
    cases hgets with
    | here => simp [Ready]
    | call h hgets => exact (hrest _ h).ready _ _ _ hgets
  · intro calls u hgets
    cases hgets with
    | call h hgets =>
      rw [hsplit]
      exact (hrest _ h).post _ _ hgets

theorem safe_skip (hinv : inv past ((f, .skip c n) :: rest) s)
    (hrest : Safe M inv post past (if M.test c s then rest.drop n else rest) s) :
    Safe M inv post past ((f, .skip c n) :: rest) s := by
  refine ⟨?_, ?_, ?_⟩
  · intro calls code' u hgets hne
    cases hgets with
    | here => rwa [List.append_nil]
    | skip hgets => exact hrest.inv _ _ _ hgets hne
  · intro calls code' u hgets
    cases hgets with
    | here => simp [Ready]
    | skip hgets => exact hrest.ready _ _ _ hgets
  · intro calls u hgets
    cases hgets with
    | skip hgets => exact hrest.post _ _ hgets

theorem gets_lines {calls : List (Called κ σ)} {u : σ} (h : run M is s = some t)
    (hrest : Gets M rest t calls code u) : Gets M (lines f is ++ rest) s calls code u := by
  induction is generalizing s with
  | nil =>
    cases h
    exact hrest
  | cons i is ih =>
    obtain ⟨v, hexec, hrun⟩ := Option.bind_eq_some_iff.mp h
    exact .instr hexec (ih hrun)

theorem Gets.split {pre post : List (Called κ σ)} {called : Called κ σ} {u : σ}
    {code' : Lines φ ι γ κ} (h : Gets M code s (pre ++ called :: post) code' u) :
    ∃ f rest, Gets M code s pre ((f, .call called.callee) :: rest) called.before ∧
      M.returns called.callee called.before called.after ∧
        Gets M rest called.after post code' u := by
  generalize hcalls : pre ++ called :: post = calls at h
  induction h generalizing pre with
  | here => simp at hcalls
  | instr hexec hrest ih =>
    obtain ⟨f, rest, hto, hfrom⟩ := ih hcalls
    exact ⟨f, rest, .instr hexec hto, hfrom⟩
  | skip hrest ih =>
    obtain ⟨f, rest, hto, hfrom⟩ := ih hcalls
    exact ⟨f, rest, .skip hto, hfrom⟩
  | call hreturns hrest ih =>
    cases pre with
    | nil =>
      obtain ⟨rfl, rfl⟩ := List.cons.inj hcalls
      exact ⟨_, _, .here _ _, hreturns, hrest⟩
    | cons first pre =>
      obtain ⟨rfl, hcalls'⟩ := List.cons.inj hcalls
      obtain ⟨f, rest, hto, hfrom⟩ := ih hcalls'
      exact ⟨f, rest, .call hreturns hto, hfrom⟩

theorem safe_lines (keep : σ → Prop) (hs : keep s)
    (hinv : ∀ i code t, keep t → inv past ((f, .instr i) :: code) t)
    (hkeep : ∀ i ∈ is, ∀ t, keep t → ∃ u, M.exec i t = some u ∧ keep u)
    (hrest : ∀ t, run M is s = some t → keep t → Safe M inv post past rest t) :
    Safe M inv post past (lines f is ++ rest) s := by
  induction is generalizing s with
  | nil => exact hrest s rfl hs
  | cons i is ih =>
    obtain ⟨hi, his⟩ := List.forall_mem_cons.mp hkeep
    obtain ⟨t, hexec, ht⟩ := hi s hs
    refine safe_instr (hinv i _ s hs) hexec (ih ht his fun u hu => ?_)
    apply hrest u
    rw [run_cons, hexec]
    exact hu

/-- If the calls that it comes to return, the machine gets behind the last line. -/
theorem Safe.ends (h : Safe M inv post past code s) (hcalls : ∀ calls f k rest t,
    Gets M code s calls ((f, .call k) :: rest) t → ∃ u, M.returns k t u) :
    ∃ calls t, Gets M code s calls [] t := by
  have hready := h.ready
  clear h
  induction hlen : code.length using Nat.strongRecOn generalizing code s with
  | ind len ih =>
    cases code with
    | nil => exact ⟨[], s, .here _ _⟩
    | cons line rest =>
      obtain ⟨f, line⟩ := line
      rw [List.length_cons] at hlen
      cases line with
      | instr i =>
        obtain ⟨t, hexec⟩ := Option.ne_none_iff_exists'.mp (hready _ _ _ (.here _ _) f i rfl)
        obtain ⟨calls, u, hgets⟩ := ih rest.length (by omega)
          (fun _ _ _ _ _ hgets => hcalls _ _ _ _ _ (.instr hexec hgets))
          (fun _ _ _ hgets => hready _ _ _ (.instr hexec hgets)) rfl
        exact ⟨calls, u, .instr hexec hgets⟩
      | call k =>
        obtain ⟨t, hreturns⟩ := hcalls _ _ _ _ _ (.here _ _)
        obtain ⟨calls, u, hgets⟩ := ih rest.length (by omega)
          (fun _ _ _ _ _ hgets => hcalls _ _ _ _ _ (.call hreturns hgets))
          (fun _ _ _ hgets => hready _ _ _ (.call hreturns hgets)) rfl
        exact ⟨_, u, .call hreturns hgets⟩
      | skip c n =>
        have hlt : (if M.test c s then rest.drop n else rest).length < len := by
          split
          · rw [List.length_drop]
            omega
          · omega
        obtain ⟨calls, u, hgets⟩ := ih _ hlt
          (fun _ _ _ _ _ hgets => hcalls _ _ _ _ _ (.skip hgets))
          (fun _ _ _ hgets => hready _ _ _ (.skip hgets)) rfl
        exact ⟨calls, u, .skip hgets⟩

end Vcrtl.Lib.Listing

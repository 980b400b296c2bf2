import MatrixNode.GoBytes

/-! Runs of a state machine that handles one input after the other. A step that
panics ends the run. -/
namespace GoLib
open List

variable {σ ι : Type}

/-- The state after a list of inputs. -/
def run (step : σ → ι → Except GoError σ) (s : σ) (inputs : List ι) : Except GoError σ :=
  inputs.foldlM step s

/-- Every step that the inputs make from `s` on is related by `P` to its input. -/
def EachStep (step : σ → ι → Except GoError σ) (P : σ → ι → σ → Prop) : σ → List ι → Prop
  | _, [] => True
  | s, i :: inputs => ∀ s', step s i = .ok s' → P s i s' ∧ EachStep step P s' inputs

theorem run_cons (step : σ → ι → Except GoError σ) (s : σ) (i : ι) (inputs : List ι) :
    run step s (i :: inputs) = step s i >>= fun s' => run step s' inputs := rfl

theorem run_append (step : σ → ι → Except GoError σ) (s : σ) (before after : List ι) :
    run step s (before ++ after) = run step s before >>= fun s' => run step s' after :=
  foldlM_append ..

section Append
variable {step : σ → ι → Except GoError σ} {s s' : σ} {before after : List ι}

/-- Every input of the list meets `P` in the state in which it arrives. -/
def EachBefore (step : σ → ι → Except GoError σ) (P : σ → ι → Prop) : σ → List ι → Prop
  | _, [] => True
  | s, i :: inputs => P s i ∧ ∀ s', step s i = .ok s' → EachBefore step P s' inputs

instance EachBefore.decidable {step : σ → ι → Except GoError σ} {P : σ → ι → Prop}
    [∀ s i, Decidable (P s i)] : ∀ s inputs, Decidable (EachBefore step P s inputs)
  | _, [] => isTrue trivial
  | s, i :: inputs =>
    match h : step s i with
    | .error e => decidable_of_iff (P s i) (by simp [EachBefore, h])
    | .ok s' =>
      have : Decidable (EachBefore step P s' inputs) := EachBefore.decidable s' inputs
      decidable_of_iff (P s i ∧ EachBefore step P s' inputs) (by simp [EachBefore, h])

theorem EachStep.eachBefore {P : σ → ι → σ → Prop} {inputs : List ι} (h : EachStep step P s inputs) :
    EachBefore step (fun s i => ∀ s', step s i = .ok s' → P s i s') s inputs := by
  induction inputs generalizing s with
  | nil => trivial
  | cons i inputs ih => exact ⟨fun s' hs' => (h s' hs').1, fun s' hs' => ih (h s' hs').2⟩

theorem EachBefore.of_append {P : σ → ι → Prop} (h : EachBefore step P s (before ++ after))
    (hrun : run step s before = .ok s') : EachBefore step P s' after := by
  induction before generalizing s with
  | nil =>
    cases hrun
    exact h
  | cons i before ih =>
    rw [run_cons, bind_eq_ok_iff] at hrun
    obtain ⟨s₁, h₁, hrun⟩ := hrun
    exact ih (h.2 s₁ h₁) hrun

end Append

section Invariant
variable {step : σ → ι → Except GoError σ} {Good : ι → Prop} {Inv : σ → Prop}

variable {P : σ → ι → Prop} {s : σ} {inputs : List ι}

/-- What steps preserve whose inputs meet `P` holds at the end of a run whose inputs all do. -/
theorem run_preserves_of_eachBefore (hstep : ∀ s i s', Inv s → P s i → step s i = .ok s' → Inv s')
    {s' : σ} (hs : Inv s) (hbefore : EachBefore step P s inputs)
    (hrun : run step s inputs = .ok s') : Inv s' := by
  induction inputs generalizing s with
  | nil =>
    cases hrun
    exact hs
  | cons i inputs ih =>
    rw [run_cons, bind_eq_ok_iff] at hrun
    obtain ⟨s₁, h₁, hrun⟩ := hrun
    exact ih (hstep s i s₁ hs hbefore.1 h₁) (hbefore.2 s₁ h₁) hrun

variable {Q : σ → ι → σ → Prop}

/-- A property of single steps that an invariant and `P` before the step imply holds at every step of
a run whose inputs all meet `P`. -/
theorem eachStep_of_eachBefore (hstep : ∀ s i s', Inv s → P s i → step s i = .ok s' → Inv s')
    (hQ : ∀ s i s', Inv s → P s i → step s i = .ok s' → Q s i s') (hs : Inv s)
    (hbefore : EachBefore step P s inputs) : EachStep step Q s inputs := by
  induction inputs generalizing s with
  | nil => trivial
  | cons i inputs ih =>
    intro s' h
    exact ⟨hQ s i s' hs hbefore.1 h, ih (hstep s i s' hs hbefore.1 h) (hbefore.2 s' h)⟩

theorem eachBefore_of_forall (hgood : ∀ i ∈ inputs, Good i) (s : σ) :
    EachBefore step (fun _ i => Good i) s inputs := by
  induction inputs generalizing s with
  | nil => trivial
  | cons i inputs ih =>
    refine ⟨hgood i (mem_cons_self ..), ?_⟩
    intro s' _
    exact ih (fun j hj => hgood j (mem_cons_of_mem _ hj)) s'

theorem EachBefore.and {Q : σ → ι → Prop} (hP : EachBefore step P s inputs)
    (hQ : EachBefore step Q s inputs) : EachBefore step (fun s i => P s i ∧ Q s i) s inputs := by
  induction inputs generalizing s with
  | nil => trivial
  | cons i inputs ih =>
    refine ⟨⟨hP.1, hQ.1⟩, ?_⟩
    intro s' hs'
    exact ih (hP.2 s' hs') (hQ.2 s' hs')

/-- What good inputs preserve holds at the end of a run on good inputs. -/
theorem run_preserves (hstep : ∀ s i s', Good i → Inv s → step s i = .ok s' → Inv s') {s' : σ}
    (hgood : ∀ i ∈ inputs, Good i) (hs : Inv s) (hrun : run step s inputs = .ok s') : Inv s' :=
  run_preserves_of_eachBefore (fun s i s' hs hi h => hstep s i s' hi hs h) hs
    (eachBefore_of_forall hgood s) hrun

/-- A property of single steps that an invariant implies holds at every step of a run. -/
theorem eachStep_of_preserves {P : σ → ι → σ → Prop}
    (hstep : ∀ s i s', Good i → Inv s → step s i = .ok s' → Inv s')
    (hP : ∀ s i s', Good i → Inv s → step s i = .ok s' → P s i s') (hgood : ∀ i ∈ inputs, Good i)
    (hs : Inv s) : EachStep step P s inputs :=
  eachStep_of_eachBefore (fun s i s' hs hi h => hstep s i s' hi hs h)
    (fun s i s' hs hi h => hP s i s' hi hs h) hs (eachBefore_of_forall hgood s)

/-- If `P` before a step says whether the step has the property `Q`, it says so for whole runs. Inputs
that do not meet `P` must not panic, since `Q` says nothing about a step that does. -/
theorem eachStep_iff_eachBefore (hreturns : ∀ s i, Inv s → ¬ P s i → ∃ s', step s i = .ok s')
    (hiff : ∀ s i s', Inv s → step s i = .ok s' → (Q s i s' ↔ P s i))
    (hstep : ∀ s i s', Inv s → Q s i s' → step s i = .ok s' → Inv s') (hs : Inv s) :
    EachStep step Q s inputs ↔ EachBefore step P s inputs := by
  induction inputs generalizing s with
  | nil => exact Iff.rfl
  | cons i inputs ih =>
    constructor
    · intro heach
      refine ⟨?_, ?_⟩
      · by_contra hP
        obtain ⟨s₁, h₁⟩ := hreturns s i hs hP
        exact hP ((hiff s i s₁ hs h₁).mp (heach s₁ h₁).1)
      · intro s₁ h₁
        obtain ⟨hQ, hrest⟩ := heach s₁ h₁
        exact (ih (hstep s i s₁ hs hQ h₁)).mp hrest
    · rintro ⟨hP, hrest⟩ s₂ h₂
      have hQ := (hiff s i s₂ hs h₂).mpr hP
      exact ⟨hQ, (ih (hstep s i s₂ hs hQ h₂)).mpr (hrest s₂ h₂)⟩

/-- If under an invariant `P` says which steps return, it says which runs do. -/
theorem run_returns_iff (hstep : ∀ s i s', Inv s → step s i = .ok s' → Inv s')
    (hreturns : ∀ s i, Inv s → ((∃ s', step s i = .ok s') ↔ P s i)) (hs : Inv s) :
    (∃ s', run step s inputs = .ok s') ↔ EachBefore step P s inputs := by
  induction inputs generalizing s with
  | nil => exact iff_of_true ⟨s, rfl⟩ trivial
  | cons i inputs ih =>
    constructor
    · rintro ⟨s', hrun⟩
      rw [run_cons, bind_eq_ok_iff] at hrun
      obtain ⟨s₁, h₁, hrun⟩ := hrun
      refine ⟨(hreturns s i hs).mp ⟨s₁, h₁⟩, ?_⟩
      intro s₂ h₂
      rw [h₁] at h₂
      cases h₂
      exact (ih (hstep s i s₁ hs h₁)).mp ⟨s', hrun⟩
    · rintro ⟨hP, hrest⟩
      obtain ⟨s₁, h₁⟩ := (hreturns s i hs).mpr hP
      obtain ⟨s', hrun⟩ := (ih (hstep s i s₁ hs h₁)).mpr (hrest s₁ h₁)
      refine ⟨s', ?_⟩
      rw [run_cons, h₁]
      exact hrun

end Invariant

end GoLib

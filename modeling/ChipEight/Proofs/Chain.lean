/-! Steps one after the other, each of which goes on from what the one before it has left. -/

namespace ChipEight

/-- The listed steps lead from the first state to the last one. -/
inductive Chain {σ τ : Type} (R : σ → τ → σ → Prop) : σ → List τ → σ → Prop
  | nil (s : σ) : Chain R s [] s
  | cons {s s₁ s' : σ} {step : τ} {steps : List τ} (hstep : R s step s₁)
      (hrest : Chain R s₁ steps s') : Chain R s (step :: steps) s'

namespace Chain

variable {σ τ β : Type} {R : σ → τ → σ → Prop} {s t s' : σ} {step : τ}
  {steps before after : List τ}

theorem single (hstep : R s step s') : Chain R s [step] s' :=
  .cons hstep (.nil s')

theorem append (hbefore : Chain R s before t) (hafter : Chain R t after s') :
    Chain R s (before ++ after) s' := by
  induction hbefore with
  | nil => exact hafter
  | cons hstep _ ih => exact .cons hstep (ih hafter)

theorem concat (hsteps : Chain R s steps t) (hstep : R t step s') :
    Chain R s (steps ++ [step]) s' :=
  hsteps.append (.single hstep)

theorem split (hsteps : Chain R s (before ++ after) s') :
    ∃ t, Chain R s before t ∧ Chain R t after s' := by
  induction before generalizing s with
  | nil => exact ⟨s, .nil s, hsteps⟩
  | cons step before ih =>
    cases hsteps with
    | cons hstep hrest =>
      obtain ⟨t, hbefore, hafter⟩ := ih hrest
      exact ⟨t, .cons hstep hbefore, hafter⟩

theorem middle (hsteps : Chain R s (before ++ step :: after) s') :
    ∃ t t', Chain R s before t ∧ R t step t' ∧ Chain R t' after s' := by
  obtain ⟨t, hbefore, hafter⟩ := hsteps.split
  cases hafter with
  | cons hstep hrest => exact ⟨t, _, hbefore, hstep, hrest⟩

theorem last (hsteps : Chain R s (before ++ [step]) s') :
    ∃ t, Chain R s before t ∧ R t step s' := by
  obtain ⟨t, t', hbefore, hstep, hnil⟩ := hsteps.middle
  cases hnil
  exact ⟨t, hbefore, hstep⟩

theorem exists_of_mem (hsteps : Chain R s steps s') (hmem : step ∈ steps) :
    ∃ t t', R t step t' := by
  obtain ⟨before, after, rfl⟩ := List.append_of_mem hmem
  obtain ⟨t, t', -, hstep, -⟩ := hsteps.middle
  exact ⟨t, t', hstep⟩

theorem keeps {P : σ → Prop} (hsteps : Chain R s steps s') (hs : P s)
    (hkeeps : ∀ step ∈ steps, ∀ {t t' : σ}, P t → R t step t' → P t') : P s' := by
  induction hsteps with
  | nil => exact hs
  | cons hstep _ ih =>
    rw [List.forall_mem_cons] at hkeeps
    exact ih (hkeeps.1 hs hstep) hkeeps.2

theorem view_eq (view : σ → β) (hsteps : Chain R s steps s')
    (hview : ∀ step ∈ steps, ∀ {t t' : σ}, R t step t' → view t' = view t) :
    view s' = view s :=
  hsteps.keeps (P := fun t => view t = view s) rfl
    fun step hmem _ _ ht hstep => (hview step hmem hstep).trans ht

end Chain

end ChipEight

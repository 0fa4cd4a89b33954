import Mathlib.Data.List.Basic

/-!
Contract: finite runs of a partial step function.

Owns: the run of a list of labels, the predicate that every step of a run
meets a condition on its label and the state before it, and the two induction
rules the systems of this development are verified with.

Does not own: any particular system. `step` returns `none` where a label is
not enabled, and then the run has no result.
-/

namespace TangraAuth.Library

variable {σ α : Type}

/-- The state after the labels, in order, if every one of them is enabled. -/
def run (step : σ → α → Option σ) : σ → List α → Option σ
  | st, [] => some st
  | st, label :: rest =>
    match step st label with
    | none => none
    | some next => run step next rest

/-- Every step of the run meets `cond` at the state it starts from. -/
def EveryStep (step : σ → α → Option σ) (cond : σ → α → Prop) : σ → List α → Prop
  | _, [] => True
  | st, label :: rest =>
    cond st label ∧ ∀ next, step st label = some next → EveryStep step cond next rest

instance EveryStep.decidable {step : σ → α → Option σ} {cond : σ → α → Prop}
    [∀ st label, Decidable (cond st label)] :
    ∀ (st : σ) (labels : List α), Decidable (EveryStep step cond st labels)
  | _, [] => .isTrue True.intro
  | st, label :: rest =>
    @instDecidableAnd _ _ inferInstance
      (@Option.decidableForallMem _ _ (fun next => EveryStep.decidable next rest) (step st label))

@[simp] theorem run_nil (step : σ → α → Option σ) (st : σ) : run step st [] = some st := rfl

theorem run_cons_eq_some {step : σ → α → Option σ} {st fin : σ} {label : α}
    {rest : List α} :
    run step st (label :: rest) = some fin ↔
      ∃ next, step st label = some next ∧ run step next rest = some fin := by
  simp only [run]
  cases step st label <;> simp

theorem run_append_eq_some {step : σ → α → Option σ} {st fin : σ}
    {pre post : List α} :
    run step st (pre ++ post) = some fin ↔
      ∃ middle, run step st pre = some middle ∧ run step middle post = some fin := by
  induction pre generalizing st with
  | nil => simp
  | cons label rest ih =>
    simp only [List.cons_append, run_cons_eq_some, ih]
    constructor
    · rintro ⟨next, taken, middle, reaches, finishes⟩
      exact ⟨middle, ⟨next, taken, reaches⟩, finishes⟩
    · rintro ⟨middle, ⟨next, taken, reaches⟩, finishes⟩
      exact ⟨next, taken, middle, reaches, finishes⟩

theorem everyStep_append {step : σ → α → Option σ} {cond : σ → α → Prop} {st : σ}
    {pre post : List α} :
    EveryStep step cond st (pre ++ post) ↔ EveryStep step cond st pre
        ∧ ∀ middle, run step st pre = some middle → EveryStep step cond middle post := by
  induction pre generalizing st with
  | nil => simp [EveryStep]
  | cons label rest ih =>
    simp only [List.cons_append, EveryStep, run_cons_eq_some, ih]
    constructor
    · grind
    grind

theorem everyStep_of_forall_mem {step : σ → α → Option σ} {cond : α → Prop}
    {labels : List α} (always : ∀ label ∈ labels, cond label) (st : σ) :
    EveryStep step (fun _ label => cond label) st labels := by
  induction labels generalizing st with
  | nil => trivial
  | cons label rest ih =>
    refine ⟨always label List.mem_cons_self, ?_⟩
    intro next _
    exact ih (fun other mem => always other (List.mem_cons_of_mem _ mem))
      next

/-- What each permitted step preserves, a whole permitted run preserves. -/
theorem run_preserves {step : σ → α → Option σ} {cond : σ → α → Prop}
    {inv : σ → Prop}
    (stepPreserves : ∀ st label next, inv st → cond st label → step st label = some next → inv next)
    {st fin : σ} {labels : List α} (holds : inv st)
    (permitted : EveryStep step cond st labels)
    (reaches : run step st labels = some fin) : inv fin := by
  induction labels generalizing st with
  | nil =>
    rw [run_nil] at reaches
    exact Option.some.inj reaches ▸ holds
  | cons label rest ih =>
    obtain ⟨next, taken, continues⟩ := run_cons_eq_some.mp reaches
    exact ih (stepPreserves st label next holds permitted.1 taken)
      (permitted.2 next taken) continues

/-- What every step preserves, every run preserves. -/
theorem run_preserves_always {step : σ → α → Option σ} {inv : σ → Prop}
    (stepPreserves : ∀ st label next, inv st → step st label = some next → inv next)
    {st fin : σ} {labels : List α} (holds : inv st)
    (reaches : run step st labels = some fin) : inv fin :=
  run_preserves (fun st label next held _ taken => stepPreserves st label next held taken)
    holds (everyStep_of_forall_mem (fun _ _ => True.intro) st) reaches

/-- A property of single steps that the invariant implies holds along a permitted run. -/
theorem everyStep_of_preserves {step : σ → α → Option σ} {cond property : σ → α → Prop}
    {inv : σ → Prop}
    (stepPreserves : ∀ st label next, inv st → cond st label → step st label = some next → inv next)
    (implied : ∀ st label, inv st → cond st label → property st label)
    {st : σ} {labels : List α} (holds : inv st)
    (permitted : EveryStep step cond st labels) :
    EveryStep step property st labels := by
  induction labels generalizing st with
  | nil => trivial
  | cons label rest ih =>
    refine ⟨implied st label holds permitted.1, ?_⟩
    intro next taken
    have kept := stepPreserves st label next holds permitted.1 taken
    exact ih kept (permitted.2 next taken)

end TangraAuth.Library

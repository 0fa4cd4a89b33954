import TangraAuth.Library.Threads

/-!
Contract: programs that remember what their calls did.

Owns: the program that runs another one unchanged and keeps a log beside its state,
every flow under the tag it was started with.

Does not own: what is logged. No action of the recorded program reads the log or a tag.
-/

namespace TangraAuth.Library

variable {σ φ χ ε τ α : Type}

/-- A state with what has happened so far, oldest first. -/
structure Recorded (σ α : Type) where
  state : σ
  log : List α

/-- A flow with the tag it was started under. -/
structure Tagged (τ φ : Type) where
  tag : τ
  flow : φ

/-- The program with a log: `label` is the tag of a new flow, `notes` what an action adds. -/
def Program.recorded [DecidableEq τ] (program : Program σ φ χ ε) (label : φ → τ)
    (notes : τ → σ → φ → χ → List α) :
    Program (Recorded σ α) (Tagged τ φ) χ ε where
  entry recorded held :=
    decide (held.tag = label held.flow) && program.entry recorded.state held.flow
  act recorded held choice :=
    match program.act recorded.state held.flow choice with
    | none => none
    | some (st, rest) =>
      some (⟨st, recorded.log ++ notes held.tag recorded.state held.flow choice⟩,
        rest.map (⟨held.tag, ·⟩))
  environment recorded event :=
    match program.environment recorded.state event with
    | none => none
    | some st => some ⟨st, recorded.log⟩

section Inversion

variable [DecidableEq τ] {program : Program σ φ χ ε} {label : φ → τ}
  {notes : τ → σ → φ → χ → List α}

variable {recorded next : Recorded σ α} {held : Tagged τ φ}

theorem Program.recorded_entry : (program.recorded label notes).entry recorded held = true ↔
      held.tag = label held.flow ∧ program.entry recorded.state held.flow = true := by
  simp [Program.recorded]

theorem Program.recorded_act {choice : χ} {rest : Option (Tagged τ φ)}
    (acted : (program.recorded label notes).act recorded held choice = some (next, rest)) :
    ∃ st continues, program.act recorded.state held.flow choice = some (st, continues)
      ∧ next = ⟨st, recorded.log ++ notes held.tag recorded.state held.flow choice⟩
      ∧ rest = continues.map (⟨held.tag, ·⟩) := by
  simp only [Program.recorded] at acted
  split at acted
  · cases acted
  · rename_i st continues isAct
    cases acted
    exact ⟨st, continues, isAct, rfl, rfl⟩

theorem Program.recorded_environment {event : ε}
    (moved : (program.recorded label notes).environment recorded event = some next) :
    ∃ st, program.environment recorded.state event = some st ∧ next = ⟨st, recorded.log⟩ := by
  simp only [Program.recorded] at moved
  split at moved
  · cases moved
  · rename_i st isMove
    cases moved
    exact ⟨st, isMove, rfl⟩

end Inversion

end TangraAuth.Library

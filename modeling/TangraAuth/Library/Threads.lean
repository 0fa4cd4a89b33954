import TangraAuth.Library.Execution

/-!
Contract: calls in flight over a shared state, one atomic action at a time.

Owns: pools of flows, the moves that start, advance and abandon a flow or let
the surroundings act, and the invariant rule in the manner of Owicki and
Gries: a shared invariant, a local assertion for each flow, and one obligation
for each atomic action.

Does not own: what the flows do. A flow abandoned at any point stands for a
call that returned an error there, or whose caller went away.
-/

namespace TangraAuth.Library

variable {σ φ χ ε : Type}

/-- A shared state and the calls in flight, by slot. -/
structure Pool (σ φ : Type) where
  shared : σ
  flows : Nat → Option φ

/-- One move of a pool. -/
inductive Move (φ χ ε : Type) where
  | spawn (slot : Nat) (f : φ)
  | act (slot : Nat) (choice : χ)
  | drop (slot : Nat)
  | environment (event : ε)

/-- The slot a move is about. -/
def Move.slot : Move φ χ ε → Option Nat
  | .spawn slot _ | .act slot _ | .drop slot => some slot
  | .environment _ => none

/-- What may be started, what one atomic action of a flow does, and what happens around it. An
action returns the shared state and the rest of the flow, `none` when the call has returned. -/
structure Program (σ φ χ ε : Type) where
  entry : σ → φ → Bool
  act : σ → φ → χ → Option (σ × Option φ)
  environment : σ → ε → Option σ

/-- The flows with one slot replaced. -/
def Pool.put (flows : Nat → Option φ) (slot : Nat) (f : Option φ) : Nat → Option φ :=
  fun other => if other = slot then f else flows other

@[simp, grind =] theorem Pool.put_self (flows : Nat → Option φ) (slot : Nat) (f : Option φ) :
    Pool.put flows slot f slot = f := by
  simp [Pool.put]

@[grind =]
theorem Pool.put_of_ne (flows : Nat → Option φ) {slot other : Nat} (f : Option φ)
    (ne : other ≠ slot) : Pool.put flows slot f other = flows other := by
  simp [Pool.put, ne]

theorem Pool.put_eq_some {flows : Nat → Option φ} {slot other : Nat} {f : Option φ}
    {held : φ} (found : Pool.put flows slot f other = some held) :
    (other = slot ∧ f = some held) ∨ (other ≠ slot ∧ flows other = some held) := by
  by_cases same : other = slot
  · subst same
    exact .inl ⟨rfl, by rwa [put_self] at found⟩
  · exact .inr ⟨same, by rwa [put_of_ne _ _ same] at found⟩

/-- The pool after a move, if it is enabled. -/
def Program.step (program : Program σ φ χ ε) (pl : Pool σ φ) : Move φ χ ε → Option (Pool σ φ)
  | .spawn slot f =>
    match pl.flows slot with
    | some _ => none
    | none =>
      if program.entry pl.shared f then
        some ⟨pl.shared, Pool.put pl.flows slot (some f)⟩
      else none
  | .act slot choice =>
    match pl.flows slot with
    | none => none
    | some f =>
      match program.act pl.shared f choice with
      | none => none
      | some (sh, rest) => some ⟨sh, Pool.put pl.flows slot rest⟩
  | .drop slot => some ⟨pl.shared, Pool.put pl.flows slot none⟩
  | .environment event =>
    match program.environment pl.shared event with
    | none => none
    | some sh => some ⟨sh, pl.flows⟩

/-- Every flow in the pool meets its assertion. -/
def Pool.All (assertion : σ → φ → Prop) (pl : Pool σ φ) : Prop :=
  ∀ slot f, pl.flows slot = some f → assertion pl.shared f

section Inversion

variable {program : Program σ φ χ ε} {pl next : Pool σ φ}

variable {slot : Nat}

theorem Program.step_spawn {f : φ} (taken : program.step pl (.spawn slot f) = some next) :
    pl.flows slot = none ∧ program.entry pl.shared f = true
      ∧ next = ⟨pl.shared, Pool.put pl.flows slot (some f)⟩ := by
  simp only [step] at taken
  cases free : pl.flows slot with
  | some held => simp [free] at taken
  | none =>
    rw [free] at taken
    dsimp only at taken
    split_ifs at taken with allowed
    exact ⟨rfl, allowed, (Option.some.inj taken).symm⟩

theorem Program.step_act {choice : χ} (taken : program.step pl (.act slot choice) = some next) :
    ∃ f sh rest, pl.flows slot = some f ∧ program.act pl.shared f choice = some (sh, rest)
      ∧ next = ⟨sh, Pool.put pl.flows slot rest⟩ := by
  grind [step]

theorem Program.step_environment {event : ε}
    (taken : program.step pl (.environment event) = some next) :
    ∃ sh, program.environment pl.shared event = some sh ∧ next = ⟨sh, pl.flows⟩ := by
  simp only [step] at taken
  grind

end Inversion

/-- The obligations of the invariant rule. Each may use the condition on the move and the
assertions of all flows before it. -/
structure Program.Obligations (program : Program σ φ χ ε) (inv : σ → Prop)
    (assertion : σ → φ → Prop) (cond : Pool σ φ → Move φ χ ε → Prop) : Prop where
  entry : ∀ sh f, inv sh → program.entry sh f = true → assertion sh f
  act : ∀ pl slot f choice sh rest, inv pl.shared → pl.All assertion →
    pl.flows slot = some f → cond pl (.act slot choice) →
    program.act pl.shared f choice = some (sh, rest) →
    inv sh ∧ (∀ next, rest = some next → assertion sh next)
      ∧ ∀ other held, other ≠ slot → pl.flows other = some held → assertion sh held
  environment : ∀ pl event sh, inv pl.shared → pl.All assertion → cond pl (.environment event) →
    program.environment pl.shared event = some sh →
    inv sh ∧ ∀ slot held, pl.flows slot = some held → assertion sh held

variable {inv : σ → Prop} {assertion : σ → φ → Prop}
  {cond : Pool σ φ → Move φ χ ε → Prop}

/-- One permitted move keeps the shared invariant and every assertion. -/
theorem Program.step_preserves {program : Program σ φ χ ε}
    (obligations : program.Obligations inv assertion cond) (pl : Pool σ φ)
    (move : Move φ χ ε) (next : Pool σ φ) (holds : inv pl.shared ∧ pl.All assertion)
    (permitted : cond pl move) (taken : program.step pl move = some next) :
    inv next.shared ∧ next.All assertion := by
  obtain ⟨sh, locals⟩ := holds
  cases move with
  | spawn slot f =>
    obtain ⟨-, allowed, rfl⟩ := step_spawn taken
    refine ⟨sh, ?_⟩
    intro other held found
    rcases Pool.put_eq_some found with ⟨-, isFlow⟩ | ⟨-, before⟩
    · exact Option.some.inj isFlow ▸ obligations.entry pl.shared f sh allowed
    · exact locals other held before
  | act slot choice =>
    obtain ⟨f, post, rest, held, acted, rfl⟩ := step_act taken
    obtain ⟨kept, continues, others⟩ :=
      obligations.act pl slot f choice post rest sh locals held permitted acted
    refine ⟨kept, ?_⟩
    intro other found isFlow
    rcases Pool.put_eq_some isFlow with ⟨-, isRest⟩ | ⟨distinct, before⟩
    · exact continues found isRest
    · exact others other found distinct before
  | drop slot =>
    cases taken
    refine ⟨sh, ?_⟩
    intro other held found
    rcases Pool.put_eq_some found with ⟨-, gone⟩ | ⟨-, before⟩
    · cases gone
    · exact locals other held before
  | environment event =>
    obtain ⟨post, moved, rfl⟩ := step_environment taken
    exact obligations.environment pl event post sh locals permitted moved

/-- A permitted run keeps the shared invariant and every assertion. -/
theorem Program.run_preserves {program : Program σ φ χ ε}
    (obligations : program.Obligations inv assertion cond) {pl fin : Pool σ φ}
    {moves : List (Move φ χ ε)} (holds : inv pl.shared ∧ pl.All assertion)
    (permitted : EveryStep program.step cond pl moves)
    (reaches : run program.step pl moves = some fin) :
    inv fin.shared ∧ fin.All assertion :=
  Library.run_preserves (step_preserves obligations) holds permitted reaches

end TangraAuth.Library

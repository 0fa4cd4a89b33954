import Mathlib.Order.Basic

/-!
Contract: a state that is written while a version counter labels what was read
from it.

Owns: the history of the state, the instant at which each version came, and the
rule that an answer made under a version rests on a state no older than it.

Does not own: who writes, and where the answers are kept.
-/

namespace TangraAuth.Library

/-- The states by the number of writes before them, and how many there were when each version
came. -/
structure Timeline (τ : Type) where
  states : Nat → τ
  writes : Nat
  bumpedAt : Nat → Nat
  version : Nat

namespace Timeline

variable {τ : Type}

def begin (st : τ) (ver : Nat) : Timeline τ where
  states := fun _ => st
  writes := 0
  bumpedAt := fun _ => 0
  version := ver

def current (timeline : Timeline τ) : τ := timeline.states timeline.writes

def write (timeline : Timeline τ) (next : τ) : Timeline τ :=
  { timeline with
    states := Function.update timeline.states (timeline.writes + 1) next
    writes := timeline.writes + 1 }

def bump (timeline : Timeline τ) : Timeline τ :=
  { timeline with
    bumpedAt := Function.update timeline.bumpedAt (timeline.version + 1) timeline.writes
    version := timeline.version + 1 }

/-- A later version came no earlier, and none comes before its time. -/
structure Sound (timeline : Timeline τ) : Prop where
  ordered : ∀ early late, early ≤ late → late ≤ timeline.version →
    timeline.bumpedAt early ≤ timeline.bumpedAt late
  bounded : timeline.bumpedAt timeline.version ≤ timeline.writes

/-- The history of before is a beginning of the one after. -/
structure Later (pre post : Timeline τ) : Prop where
  version : pre.version ≤ post.version
  writes : pre.writes ≤ post.writes
  bumpedAt : ∀ version, version ≤ pre.version → post.bumpedAt version = pre.bumpedAt version
  states : ∀ count, count ≤ pre.writes → post.states count = pre.states count

/-- An answer made under a version from the state after `seen` writes. -/
structure Made (timeline : Timeline τ) (ver seen : Nat) : Prop where
  known : ver ≤ timeline.version
  fresh : timeline.bumpedAt ver ≤ seen
  past : seen ≤ timeline.writes

variable {timeline pre post : Timeline τ} {ver seen : Nat}

theorem begin_sound (st : τ) (ver : Nat) : (begin st ver).Sound :=
  ⟨fun _ _ _ _ => Nat.le_refl 0, Nat.le_refl 0⟩

@[simp] theorem current_write (next : τ) : (timeline.write next).current = next := by
  simp [current, write]

theorem Sound.write (sound : timeline.Sound) (next : τ) : (timeline.write next).Sound :=
  ⟨sound.ordered, Nat.le_succ_of_le sound.bounded⟩

theorem Sound.bump (sound : timeline.Sound) : timeline.bump.Sound := by
  have atMost : ∀ ver, ver ≤ timeline.version →
      timeline.bumpedAt ver ≤ timeline.writes := fun ver known =>
    Nat.le_trans (sound.ordered ver timeline.version known (Nat.le_refl _)) sound.bounded
  refine ⟨fun early late order known => ?_, ?_⟩
  · have isKnown : late ≤ timeline.version + 1 := known
    simp only [Timeline.bump]
    by_cases isLast : late = timeline.version + 1
    · grind
    · rw [Function.update_of_ne isLast, Function.update_of_ne (by omega)]
      exact sound.ordered early late order (by omega)
  · simp [Timeline.bump]

theorem Later.refl : Later timeline timeline :=
  ⟨Nat.le_refl _, Nat.le_refl _, fun _ _ => rfl, fun _ _ => rfl⟩

theorem later_write (next : τ) : Later timeline (timeline.write next) := by
  refine ⟨Nat.le_refl _, Nat.le_succ _, fun _ _ => rfl, fun count known => ?_⟩
  exact Function.update_of_ne (by omega) _ _

theorem later_bump : Later timeline timeline.bump := by
  refine ⟨Nat.le_succ _, Nat.le_refl _, fun ver known => ?_, fun _ _ => rfl⟩
  exact Function.update_of_ne (by omega) _ _

theorem Made.later (made : pre.Made ver seen) (later : Later pre post) : post.Made ver seen where
  known := Nat.le_trans made.known later.version
  fresh := by
    rw [later.bumpedAt ver made.known]
    exact made.fresh
  past := Nat.le_trans made.past later.writes

theorem Sound.made (sound : timeline.Sound) (known : ver ≤ timeline.version) :
    timeline.Made ver timeline.writes :=
  ⟨known, Nat.le_trans (sound.ordered ver timeline.version known (Nat.le_refl _))
    sound.bounded, Nat.le_refl _⟩

end Timeline

end TangraAuth.Library

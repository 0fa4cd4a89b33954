import TangraAuth.Library.Histories
import TangraAuth.Library.Tickets
import Mathlib.Data.List.Nodup

/-!
Contract: calls that are started for a ticket, take it and use it.

Owns: the log of the tickets used, what the actions of a program must do for every ticket
to stay in one place, and the rule that no ticket is then used twice in a run.

Does not own: what makes an action take a ticket that is there.
-/

namespace TangraAuth.Library

variable {σ φ χ ε κ : Type}

/-- How the calls of a program treat tickets: which are stored, which one a call was started
for, whether it has taken it, and the actions that use it. -/
structure Redemption (σ φ χ κ : Type) where
  stored : σ → κ → Prop
  names : φ → Option κ
  holds : φ → Bool
  uses : σ → φ → χ → Bool

namespace Redemption

variable [DecidableEq κ] (redemption : Redemption σ φ χ κ) (program : Program σ φ χ ε)

/-- The ticket used in an action. -/
def note (tag : Option κ) (st : σ) (f : φ) (choice : χ) : List κ :=
  if redemption.uses st f choice then tag.toList else []

/-- The program with a log of the tickets used. -/
def logged : Program (Recorded σ κ) (Tagged (Option κ) φ) χ ε :=
  program.recorded redemption.names redemption.note

def tickets : Tickets (Recorded σ κ) (Tagged (Option κ) φ) κ where
  stored recorded key := redemption.stored recorded.state key
  spends held key := held.tag = some key ∧ redemption.holds held.flow = true
  used recorded key := recorded.log.count key

/-- No call was started for the ticket, and it was not used. -/
def Fresh (pl : Pool (Recorded σ κ) (Tagged (Option κ) φ)) (key : κ) : Prop :=
  key ∉ pl.shared.log ∧ ∀ slot held, pl.flows slot = some held → held.tag ≠ some key

/-- No call is in flight and nothing was used; any tickets may be stored. -/
def idle (st : σ) : Pool (Recorded σ κ) (Tagged (Option κ) φ) where
  shared := ⟨st, []⟩
  flows _ := none

/-- What the actions must do. A call keeps to its ticket until it takes it, takes one that is
stored, and ends when it uses it; new tickets are fresh. -/
structure Obligations
    (cond : Pool (Recorded σ κ) (Tagged (Option κ) φ) → Move (Tagged (Option κ) φ) χ ε →
      Prop) : Prop where
  entry : ∀ st f, program.entry st f = true → redemption.holds f = false
  stored : ∀ pl slot held choice st rest key, pl.flows slot = some held →
    cond pl (.act slot choice) →
    program.act pl.shared.state held.flow choice = some (st, rest) →
    redemption.stored st key → redemption.stored pl.shared.state key ∨ Fresh pl key
  keeps : ∀ st f choice post next,
    program.act st f choice = some (post, some next) → redemption.holds next = false →
    redemption.holds f = false ∧ redemption.names next = redemption.names f
  takes : ∀ pl slot held choice st next key, pl.flows slot = some held →
    cond pl (.act slot choice) →
    program.act pl.shared.state held.flow choice = some (st, some next) →
    redemption.holds next = true → redemption.holds held.flow = false →
    redemption.names held.flow = some key →
    redemption.stored pl.shared.state key ∧ ¬ redemption.stored st key
  uses : ∀ st f choice post rest, redemption.uses st f choice = true →
    program.act st f choice = some (post, rest) →
    redemption.holds f = true ∧ rest = none
  environment : ∀ st event post key, program.environment st event = some post →
    redemption.stored post key → redemption.stored st key

/-- A call that has not taken its ticket is tagged with it. -/
def Labelled (held : Tagged (Option κ) φ) : Prop :=
  redemption.holds held.flow = false → held.tag = redemption.names held.flow

structure Orderly (pl : Pool (Recorded σ κ) (Tagged (Option κ) φ)) : Prop where
  labelled : ∀ slot held, pl.flows slot = some held → redemption.Labelled held
  single : ∀ key, redemption.tickets.Single pl key

variable {redemption program}
  {cond : Pool (Recorded σ κ) (Tagged (Option κ) φ) → Move (Tagged (Option κ) φ) χ ε → Prop}
  {pl : Pool (Recorded σ κ) (Tagged (Option κ) φ)}

omit [DecidableEq κ] in
theorem mem_note {tag : Option κ} {st : σ} {f : φ} {choice : χ} {key : κ}
    (used : key ∈ redemption.note tag st f choice) :
    redemption.note tag st f choice = [key] ∧ tag = some key
      ∧ redemption.uses st f choice = true := by
  unfold note at used ⊢
  grind

/-- One action keeps every ticket in one place. -/
theorem Orderly.single_act (orderly : redemption.Orderly pl)
    (obligations : redemption.Obligations program cond) {slot : Nat}
    {held : Tagged (Option κ) φ} {choice : χ} {st : σ} {rest : Option φ}
    (found : pl.flows slot = some held) (permitted : cond pl (.act slot choice))
    (acted : program.act pl.shared.state held.flow choice = some (st, rest)) (key : κ) :
    redemption.tickets.Single ⟨⟨st, pl.shared.log
          ++ redemption.note held.tag pl.shared.state held.flow choice⟩,
        Pool.put pl.flows slot (rest.map (⟨held.tag, ·⟩))⟩ key := by
  have single := orderly.single key
  have kept := fun stored =>
    obligations.stored pl slot held choice st rest key found permitted acted stored
  by_cases fresh : Fresh pl key
  · -- A fresh ticket is untouched: the call is not about it.
    have untagged := fresh.2 slot held found
    have unnoted : key ∉ redemption.note held.tag pl.shared.state held.flow choice :=
      fun used => untagged (mem_note used).2.1
    refine Tickets.single_of_unused ?_ ?_
    · exact List.count_eq_zero.mpr fun used =>
        (List.mem_append.mp used).elim fresh.1 unnoted
    · intro other spent
      rcases Tickets.spentBy_put spent with ⟨-, f, isRest, isTag, -⟩ | ⟨-, pre⟩
      · obtain ⟨next, -, rfl⟩ := Option.map_eq_some_iff.mp isRest
        exact untagged isTag
      · obtain ⟨f, there, isTag, -⟩ := pre
        exact fresh.2 other f there isTag
  · have stays : redemption.stored st key → redemption.stored pl.shared.state key :=
      fun stored => (kept stored).resolve_right fresh
    by_cases used : key ∈ redemption.note held.tag pl.shared.state held.flow choice
    · obtain ⟨isNote, isTag, uses⟩ := mem_note used
      obtain ⟨holds, rfl⟩ := obligations.uses _ _ _ _ _ uses acted
      refine single.use ⟨held, found, isTag, holds⟩ stays ?_ fun _ none => nomatch none
      rw [isNote]
      simp [tickets]
    · have unused : redemption.tickets.used ⟨st, pl.shared.log
          ++ redemption.note held.tag pl.shared.state held.flow choice⟩ key
          = redemption.tickets.used pl.shared key := by
        simp [tickets, List.count_append, List.count_eq_zero.mpr used]
      by_cases taking : ∃ next, rest = some next ∧ redemption.holds next = true
          ∧ redemption.holds held.flow = false ∧ held.tag = some key
      · obtain ⟨next, rfl, holds, free, isTag⟩ := taking
        have isName : redemption.names held.flow = some key :=
          (orderly.labelled slot held found free).symm.trans isTag
        grind [Obligations.takes, Tickets.Single.take, tickets]
      · refine single.put stays unused ?_
        intro f isRest spends
        obtain ⟨next, isNext, rfl⟩ := Option.map_eq_some_iff.mp isRest
        refine ⟨held, found, spends.1, ?_⟩
        by_contra free
        exact taking ⟨next, isNext, spends.2, by simpa using free, spends.1⟩

/-- One permitted move keeps the calls orderly. -/
theorem Orderly.step (obligations : redemption.Obligations program cond)
    (pl : Pool (Recorded σ κ) (Tagged (Option κ) φ)) (move : Move (Tagged (Option κ) φ) χ ε)
    (next : Pool (Recorded σ κ) (Tagged (Option κ) φ)) (orderly : redemption.Orderly pl)
    (permitted : cond pl move)
    (taken : (redemption.logged program).step pl move = some next) :
    redemption.Orderly next := by
  cases move with
  | spawn slot held =>
    obtain ⟨-, allowed, rfl⟩ := Program.step_spawn taken
    obtain ⟨isTag, begins⟩ := Program.recorded_entry.mp allowed
    refine ⟨?_, ?_⟩
    · grind [labelled, Pool.put, Labelled]
    · intro key
      refine (orderly.single key).put id rfl ?_
      intro f isNew spends
      cases isNew
      have holds := spends.2
      rw [obligations.entry _ _ begins] at holds
      cases holds
  | act slot choice =>
    obtain ⟨held, sh, rest, found, acted, rfl⟩ := Program.step_act taken
    obtain ⟨st, continues, isAct, rfl, rfl⟩ := Program.recorded_act acted
    refine ⟨?_, orderly.single_act obligations found permitted isAct⟩
    intro other f there
    rcases Pool.put_eq_some there with ⟨-, isRest⟩ | ⟨-, pre⟩
    · obtain ⟨next, rfl, rfl⟩ := Option.map_eq_some_iff.mp isRest
      intro free
      obtain ⟨wasFree, sameName⟩ := obligations.keeps _ _ _ _ _ isAct free
      exact (orderly.labelled slot held found wasFree).trans sameName.symm
    · exact orderly.labelled other f pre
  | drop slot =>
    cases taken
    refine ⟨?_, ?_⟩
    · grind [Pool.put_eq_some, labelled]
    grind [single, Tickets.Single.put]
  | environment event =>
    obtain ⟨sh, moved, rfl⟩ := Program.step_environment taken
    obtain ⟨st, isMove, rfl⟩ := Program.recorded_environment moved
    refine ⟨orderly.labelled, ?_⟩
    intro key
    exact (orderly.single key).quiet (obligations.environment _ _ _ key isMove) rfl
      fun _ spent => spent

theorem orderly_idle (st : σ) : redemption.Orderly (idle st) where
  labelled _ _ found := nomatch found
  single _ := Tickets.single_of_unused rfl fun _ spent => by
    obtain ⟨_, found, -⟩ := spent
    cases found

/-- In a permitted run no ticket is used twice. -/
theorem Obligations.nodup (obligations : redemption.Obligations program cond) {st : σ}
    {moves : List (Move (Tagged (Option κ) φ) χ ε)}
    {fin : Pool (Recorded σ κ) (Tagged (Option κ) φ)}
    (permitted : EveryStep (redemption.logged program).step cond (idle st) moves)
    (reaches : run (redemption.logged program).step (idle st) moves = some fin) :
    fin.shared.log.Nodup := by
  have orderly := run_preserves (Orderly.step obligations) (orderly_idle st) permitted reaches
  exact List.nodup_iff_count_le_one.mpr fun key => (orderly.single key).once

end Redemption

end TangraAuth.Library

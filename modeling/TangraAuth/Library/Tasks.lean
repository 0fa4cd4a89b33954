import Mathlib.Data.List.Basic

/-!
Contract: sequential work on a state that can stop at any of its steps.

Owns: tasks, their sequencing and their loop, triples with one postcondition for
a task that ends and one for a task that stops, tasks that keep a fact, and tasks
that stay within a relation of states.

Does not own: the state, and which steps stop.
-/

namespace TangraAuth.Library

/-- Work on a state. What was changed before an error stays changed. -/
def Task (σ ε α : Type) : Type := σ → Except ε α × σ

namespace Task

variable {σ ε α β : Type}

def ended (val : α) : Task σ ε α := fun st => (.ok val, st)

def andThen (task : Task σ ε α) (next : α → Task σ ε β) : Task σ ε β := fun st =>
  match task st with
  | (.ok val, chg) => next val chg
  | (.error error, chg) => (.error error, chg)

instance : Monad (Task σ ε) where
  pure := ended
  bind := andThen

def fail (error : ε) : Task σ ε α := fun st => (.error error, st)

/-- What `v` shows of the state. -/
def read (v : σ → α) : Task σ ε α := fun st => (.ok (v st), st)

/-- The same work, its error put in other words. -/
def mapError {δ : Type} (change : ε → δ) (task : Task σ ε α) : Task σ δ α := fun st =>
  match task st with
  | (.ok val, chg) => (.ok val, chg)
  | (.error error, chg) => (.error (change error), chg)

/-- One after another; the first error ends the loop. -/
def each (step : α → Task σ ε β) : List α → Task σ ε (List β)
  | [] => pure []
  | item :: rest => do
      let first ← step item
      let others ← each step rest
      pure (first :: others)

end Task

/-! ### Triples -/

/-- What is asked of an outcome: `post` of one that ended, `stopped` of one that did not. -/
def Meets {σ ε α : Type} (post : α → σ → Prop) (stopped : σ → Prop) : Except ε α × σ → Prop
  | (.ok val, st) => post val st
  | (.error _, st) => stopped st

/-- From a state that meets `pre`, the task ends in a state that meets `post`, or stops
in one that meets `stopped`. -/
def Triple {σ ε α : Type} (pre : σ → Prop) (task : Task σ ε α) (post : α → σ → Prop)
    (stopped : σ → Prop) : Prop :=
  ∀ st, pre st → Meets post stopped (task st)

section Rules

variable {σ ε α β : Type} {pre : σ → Prop} {post : α → σ → Prop} {stopped : σ → Prop}

variable {task : Task σ ε α} {before' stopped' : σ → Prop} {after' : α → σ → Prop}
  {step : α → Task σ ε β} {items : List α}

theorem Triple.ended (triple : Triple pre task post stopped) {st next : σ} {val : α}
    (met : pre st) (ran : task st = (.ok val, next)) : post val next := by
  have out := triple st met
  rw [ran] at out
  exact out

theorem Triple.pure {val : α} (holds : ∀ st, pre st → post val st) :
    Triple pre (Pure.pure val : Task σ ε α) post stopped := holds

theorem Triple.fail {error : ε} (holds : ∀ st, pre st → stopped st) :
    Triple pre (Task.fail error : Task σ ε α) post stopped := holds

theorem Triple.read {v : σ → α} (holds : ∀ st, pre st → post (v st) st) :
    Triple pre (Task.read v : Task σ ε α) post stopped := holds

theorem Triple.bind {next : α → Task σ ε β} {last : β → σ → Prop}
    (first : Triple pre task post stopped)
    (second : ∀ val, Triple (post val) (next val) last stopped) :
    Triple pre (task >>= next) last stopped := by
  intro st met
  have out := first st met
  show Meets last stopped (Task.andThen task next st)
  unfold Task.andThen
  rcases ran : task st with ⟨error | val, chg⟩
  · rw [ran] at out
    exact out
  · rw [ran] at out
    exact second val chg out

theorem Triple.weaken (triple : Triple pre task post stopped) (enter : ∀ st, before' st → pre st)
    (leave : ∀ val st, post val st → after' val st)
    (stop : ∀ st, stopped st → stopped' st) : Triple before' task after' stopped' := by
  intro st met
  have out := triple st (enter st met)
  rcases ran : task st with ⟨error | val, next⟩
  · rw [ran] at out
    exact stop next out
  · rw [ran] at out
    exact leave val next out

theorem Triple.enter (triple : Triple pre task post stopped)
    (enter : ∀ st, before' st → pre st) : Triple before' task post stopped :=
  triple.weaken enter (fun _ _ met => met) fun _ met => met

theorem Triple.leave (triple : Triple pre task post stopped)
    (leave : ∀ val st, post val st → after' val st) :
    Triple pre task after' stopped :=
  triple.weaken (fun _ met => met) leave fun _ met => met

theorem Triple.stop (triple : Triple pre task post stopped)
    (stop : ∀ st, stopped st → stopped' st) : Triple pre task post stopped' :=
  triple.weaken (fun _ met => met) (fun _ _ met => met) stop

theorem Triple.and (one : Triple pre task post stopped) (two : Triple pre task after' stopped') :
    Triple pre task (fun val st => post val st ∧ after' val st)
      fun st => stopped st ∧ stopped' st := by
  intro st met
  have first := one st met
  have second := two st met
  rcases ran : task st with ⟨error | val, next⟩ <;> rw [ran] at first second <;>
    exact ⟨first, second⟩

theorem Triple.mapError {δ : Type} {change : ε → δ} (triple : Triple pre task post stopped) :
    Triple pre (task.mapError change) post stopped := by
  intro st met
  have out := triple st met
  unfold Task.mapError
  rcases ran : task st with ⟨error | val, next⟩ <;> rw [ran] at out <;> exact out

theorem Triple.ite {cond : Prop} [Decidable cond] {yes no : Task σ ε α}
    (whenTrue : cond → Triple pre yes post stopped)
    (whenFalse : ¬cond → Triple pre no post stopped) :
    Triple pre (if cond then yes else no) post stopped := by
  split
  case isTrue met => exact whenTrue met
  case isFalse unmet => exact whenFalse unmet

theorem Triple.returning {val : α → β} {last : σ → Prop}
    (triple : Triple pre task (fun _ => last) stopped) :
    Triple pre (task >>= fun res => Pure.pure (val res)) (fun _ => last) stopped :=
  triple.bind fun _ => Triple.pure fun _ met => met

/-- The precondition may be used as a fact about the state the task starts in. -/
theorem Triple.from (each : ∀ st, pre st → Triple (· = st) task post stopped) :
    Triple pre task post stopped :=
  fun st met => each st met st rfl

/-- A fact that does not speak of the state may be used outside the triple. -/
theorem Triple.assuming {fact : Prop} (whenTrue : fact → Triple pre task post stopped) :
    Triple (fun st => pre st ∧ fact) task post stopped :=
  fun st met => whenTrue met.2 st met.1

/-- The loop rule: `kept` speaks of the items that were done. -/
theorem Triple.each {kept : List α → σ → Prop}
    (body : ∀ done item rest, items = done ++ item :: rest →
      Triple (kept done) (step item) (fun _ => kept (done ++ [item])) stopped) :
    Triple (kept []) (Task.each step items) (fun _ => kept items) stopped := by
  suffices general : ∀ done rest, items = done ++ rest →
      Triple (kept done) (Task.each step rest) (fun _ => kept items) stopped from
    general [] items rfl
  intro done rest
  induction rest generalizing done with
  | nil =>
    intro whole
    rw [List.append_nil] at whole
    exact Triple.pure fun _ met => whole ▸ met
  | cons item rest ih =>
    intro whole
    refine Triple.bind (body done item rest whole) fun _ => ?_
    have remaining : items = (done ++ [item]) ++ rest := by simp [whole]
    exact Triple.bind (ih _ remaining) fun _ => Triple.pure fun _ met => met

/-- The loop rule for an invariant that does not speak of the items. -/
theorem Triple.each_invariant {kept : σ → Prop}
    (body : ∀ item ∈ items, Triple kept (step item) (fun _ => kept) stopped) :
    Triple kept (Task.each step items) (fun _ => kept) stopped :=
  Triple.each fun _ item _ whole => body item (by simp [whole])

/-- The loop rule for an invariant, with what each item's step returned. -/
theorem Triple.each_values {kept : σ → Prop} {returned : α → β → Prop} (body : ∀ item ∈ items,
      Triple kept (step item) (fun val st => kept st ∧ returned item val) stopped) :
    Triple kept (Task.each step items)
      (fun values st => kept st ∧ List.Forall₂ returned items values) stopped := by
  induction items with
  | nil => exact Triple.pure fun st met => ⟨met, .nil⟩
  | cons item rest ih =>
    refine Triple.bind (body item List.mem_cons_self) fun val => ?_
    refine Triple.from fun st returnedFirst => ?_
    have others := ih fun other mem => body other (List.mem_cons_of_mem _ mem)
    refine Triple.bind (others.weaken (fun _ same => same ▸ returnedFirst.1)
      (fun _ _ met => met) fun _ met => met) fun values => ?_
    exact Triple.pure fun _ met => ⟨met.1, .cons returnedFirst.2 met.2⟩

end Rules

/-! ### Tasks that keep a fact -/

/-- The task keeps a fact and returns such a value; it stops only if `stops`. -/
def Maintains {σ ε α : Type} (kept : σ → Prop) (stops : Prop) (task : Task σ ε α)
    (returned : α → Prop) : Prop :=
  Triple kept task (fun val st => kept st ∧ returned val) fun st => kept st ∧ stops

section Maintains

variable {σ ε α β : Type} {kept : σ → Prop} {stops : Prop} {returned : α → Prop}

theorem Maintains.pure {val : α} (holds : returned val) :
    Maintains kept stops (Pure.pure val : Task σ ε α) returned :=
  Triple.pure fun _ met => ⟨met, holds⟩

theorem Maintains.bind {task : Task σ ε α} {next : α → Task σ ε β} {last : β → Prop}
    (first : Maintains kept stops task returned)
    (second : ∀ val, returned val → Maintains kept stops (next val) last) :
    Maintains kept stops (task >>= next) last :=
  Triple.bind first fun val => Triple.assuming fun holds => second val holds

theorem Maintains.each {step : β → Task σ ε α} {items : List β}
    (body : ∀ item ∈ items, Maintains kept stops (step item) returned) :
    Maintains kept stops (Task.each step items) fun values => ∀ val ∈ values, returned val := by
  induction items with
  | nil => exact Maintains.pure fun _ none => absurd none List.not_mem_nil
  | cons item rest ih =>
    have others := ih fun other mem => body other (List.mem_cons_of_mem _ mem)
    refine Maintains.bind (body item List.mem_cons_self) fun val holds => ?_
    exact Maintains.bind others fun _ all => Maintains.pure (List.forall_mem_cons.mpr ⟨holds, all⟩)

end Maintains

/-! ### Tasks that change little -/

/-- Whether it ends or stops, the task relates the state it finds to the one it leaves. -/
def Within {σ ε α : Type} (rel : σ → σ → Prop) (task : Task σ ε α) : Prop :=
  ∀ st, rel st (task st).2

section Within

variable {σ ε α β : Type} {rel : σ → σ → Prop}

variable {task : Task σ ε α}

theorem Within.triple {kept : σ → Prop} (within : Within rel task)
    (carried : ∀ pre post, rel pre post → kept pre → kept post) :
    Triple kept task (fun _ => kept) kept := by
  intro st met
  have out := carried _ _ (within st) met
  rcases ran : task st with ⟨error | val, next⟩ <;> rw [ran] at out <;> exact out

theorem Within.pure (reflexive : ∀ st, rel st st) (val : α) :
    Within rel (Pure.pure val : Task σ ε α) := reflexive

theorem Within.fail (reflexive : ∀ st, rel st st) (error : ε) :
    Within rel (Task.fail error : Task σ ε α) := reflexive

theorem Within.bind (transitive : ∀ first second third, rel first second → rel second third →
      rel first third) {next : α → Task σ ε β} (first : Within rel task)
    (second : ∀ val, Within rel (next val)) : Within rel (task >>= next) := by
  intro st
  have reached := first st
  show rel st (Task.andThen task next st).2
  unfold Task.andThen
  rcases ran : task st with ⟨error | val, chg⟩
  · rw [ran] at reached
    exact reached
  · rw [ran] at reached
    exact transitive _ _ _ reached (second val chg)

theorem Within.each (reflexive : ∀ st, rel st st) (transitive : ∀ first second third,
      rel first second → rel second third → rel first third) {step : α → Task σ ε β}
    {items : List α} (body : ∀ item ∈ items, Within rel (step item)) :
    Within rel (Task.each step items) := by
  induction items with
  | nil => exact Within.pure reflexive _
  | cons item rest ih =>
    refine Within.bind transitive (body item List.mem_cons_self) fun _ => ?_
    refine Within.bind transitive ?_ fun _ => Within.pure reflexive _
    exact ih fun other mem => body other (List.mem_cons_of_mem _ mem)

theorem Within.mapError {δ : Type} {change : ε → δ} (within : Within rel task) :
    Within rel (task.mapError change) := by
  intro st
  have reached := within st
  unfold Task.mapError
  rcases ran : task st with ⟨error | val, chg⟩ <;> rw [ran] at reached <;> exact reached

end Within

end TangraAuth.Library

import TangraAuth.Library.Threads

/-!
Contract: the audit writer, which one goroutine empties into the inserter.

Owns: `Emit`, `Flush` and `Close` as flows of atomic lock and channel operations,
the arms of the loop `run`, and where every row is for which `Emit` returned nil.

Does not own: `Row`, which turns an event into a row or refuses it, and the
callback that errors are reported to. The buffer belongs to `run` alone, so a
flush is part of the channel operation before it.
-/

namespace TangraAuth.Audit

open Library (run EveryStep Pool Move Program)

variable {E R : Type}

/-- The capacity of the channel of rows. -/
def queueSize : Nat := 10000

/-- The rows after which the buffer is flushed. -/
def batchSize : Nat := 200

/-- Where `run` stands: at its `select`, draining for a `Flush`, or returned. -/
inductive Runner where
  | selecting
  | draining (done : Nat)
  | stopped
deriving DecidableEq

/-- The writer, and what has become of the rows so far. -/
structure Writer (R : Type) where
  /-- The channel is closed in the critical section that sets the flag. -/
  closed : Bool
  queue : List R
  buf : List R
  runner : Runner
  dropped : Nat
  /-- The number of `done` channels made, and those of them that are closed. -/
  made : Nat
  done : List Nat
  /-- The batches handed to the inserter. -/
  handed : List (List R)
  /-- The rows sent, in the order of the channel: `Emit` returned nil. -/
  queued : List R
  /-- The rows that found the channel full: `Emit` returned nil. -/
  overflowed : List R
  /-- A row was sent on the closed channel. -/
  panicked : Bool

def newWriter : Writer R := ⟨false, [], [], .selecting, 0, 0, [], [], [], [], false⟩

/-- A call and the operation it performs next. -/
inductive Call (E R : Type) where
  | emit (event : E)
  | sending (row : R)
  | full (row : R)
  | rejected
  | storing (loaded : Nat)
  | flush
  | flushing (done : Nat)
  | waiting (done : Nat)
  | close
  | closing

/-- An `Emit` that read the flag as false and has not returned. -/
def Call.checked : Call E R → Bool
  | .sending _ | .full _ => true
  | _ => false

/-- One operation of a call at the time `now`. -/
def act (toRow : E → Int → Except String R) (w : Writer R) (c : Call E R) (now : Int) :
    Option (Writer R × Option (Call E R)) :=
  match c with
  | .emit event =>
    match toRow event now with
    | .error _ => some (w, none)
    | .ok row => some (w, some (if w.closed then .rejected else .sending row))
  | .sending row =>
    if w.closed then some ({ w with panicked := true }, none)
    else if w.queue.length < queueSize then
      some ({ w with queue := w.queue ++ [row], queued := w.queued ++ [row] }, none)
    else some (w, some (.full row))
  | .full row =>
    some ({ w with dropped := w.dropped + 1, overflowed := w.overflowed ++ [row] }, none)
  -- the increment for a closed writer is made without the lock: a load and a store
  | .rejected => some (w, some (.storing w.dropped))
  | .storing loaded => some ({ w with dropped := loaded + 1 }, none)
  | .flush =>
    if w.closed then some (w, none)
    else some ({ w with made := w.made + 1 }, some (.flushing w.made))
  | .flushing done =>
    -- the channel of flushes has no buffer: the send meets the `select` of `run`
    if w.runner = .selecting then
      some ({ w with runner := .draining done }, some (.waiting done))
    else none
  | .waiting done => if done ∈ w.done then some (w, none) else none
  | .close =>
    if w.closed then some (w, none) else some ({ w with closed := true }, some .closing)
  | .closing => if w.runner = .stopped then some (w, none) else none

/-- Hands the buffer over. A failed insertion is reported and the buffer emptied all the same. -/
def Writer.flush (w : Writer R) : Writer R :=
  if w.buf.isEmpty then w else { w with handed := w.handed ++ [w.buf], buf := [] }

/-- What `run` does next: receive a row, take a tick, or take one more row for a `Flush`. -/
inductive Arm where
  | receive
  | tick
  | drain
deriving DecidableEq

def Writer.advance (w : Writer R) : Arm → Option (Writer R)
  | .receive =>
    match w.runner, w.queue with
    | .selecting, row :: rest =>
      let next := { w with queue := rest, buf := w.buf ++ [row] }
      some (if batchSize ≤ next.buf.length then next.flush else next)
    | .selecting, [] => if w.closed then some { w.flush with runner := .stopped } else none
    | _, _ => none
  | .tick => if w.runner = .selecting then some w.flush else none
  | .drain =>
    match w.runner, w.queue with
    | .draining _, row :: rest => some { w with queue := rest, buf := w.buf ++ [row] }
    | .draining done, [] => some { w.flush with runner := .selecting, done := done :: w.done }
    | _, _ => none

/-- Any number of calls around the goroutine `run`. -/
def writer (toRow : E → Int → Except String R) : Program (Writer R) (Call E R) Int Arm where
  entry _ c :=
    match c with
    | .emit _ | .flush | .close => true
    | _ => false
  act := act toRow
  environment := Writer.advance

/-- `NewWriter`, before any call. -/
def fresh : Pool (Writer R) (Call E R) := ⟨newWriter, fun _ => none⟩

/-- A `Close` takes the lock only while no `Emit` has read the flag and not yet returned. -/
def ClosesIdle (p : Pool (Writer R) (Call E R)) (move : Move (Call E R) Int Arm) : Prop :=
  ∀ slot now, move = .act slot now → p.flows slot = some .close →
    ∀ other c, p.flows other = some c → c.checked = false

/-! ### The loop -/

/-- The rows handed over, then those in the buffer, then those in the channel. -/
def Writer.passed (w : Writer R) : List R := w.handed.flatten ++ w.buf ++ w.queue

/-- What only calls change. -/
def Writer.account (w : Writer R) : List R × Bool × Nat × List R × List R × Bool :=
  (w.passed, w.closed, w.dropped, w.queued, w.overflowed, w.panicked)

section Loop

variable {w next : Writer R} {arm : Arm}

@[simp] theorem Writer.flush_buf : w.flush.buf = [] := by
  unfold flush
  split <;> simp_all

@[simp] theorem Writer.flush_queue : w.flush.queue = w.queue := by
  unfold flush
  split <;> rfl

@[simp] theorem Writer.flush_runner : w.flush.runner = w.runner := by
  unfold flush
  split <;> rfl

@[simp] theorem Writer.flush_account : w.flush.account = w.account := by
  unfold flush
  split <;> simp_all [account, passed]

/-- A row moves from the channel to the buffer. -/
theorem Writer.taken_account {row : R} {rest : List R} (rows : w.queue = row :: rest) :
    ({ w with queue := rest, buf := w.buf ++ [row] } : Writer R).account = w.account := by
  simp [account, passed, rows]

/-- What an arm can do: the account stays, and the loop returns with nothing left. -/
theorem Writer.advance_spec (moved : w.advance arm = some next) : next.account = w.account
      ∧ (next.runner = .stopped → w.closed = true ∧ next.buf = [] ∧ next.queue = []) := by
  cases arm with
  | receive =>
    simp only [advance] at moved
    split at moved
    · rename_i row rest selecting rows
      have runs : w.runner ≠ .stopped := by simp [selecting]
      cases moved
      split
      · exact ⟨flush_account.trans (taken_account rows), fun returned =>
          absurd (by simpa using returned) runs⟩
      · exact ⟨taken_account rows, fun returned => absurd returned runs⟩
    · rename_i rows
      split at moved
      · rename_i closed
        cases moved
        exact ⟨flush_account, fun _ => ⟨closed, flush_buf, flush_queue.trans rows⟩⟩
      · cases moved
    · cases moved
  | tick =>
    simp only [advance] at moved
    split at moved
    · rename_i selecting
      cases moved
      exact ⟨flush_account, fun returned => by simp [selecting] at returned⟩
    · cases moved
  | drain =>
    simp only [advance] at moved
    split at moved
    · rename_i row rest draining rows
      cases moved
      exact ⟨taken_account rows, fun returned => by simp [draining] at returned⟩
    · cases moved
      exact ⟨flush_account, fun returned => by simp at returned⟩
    · cases moved

theorem Writer.advances_account {arms : List Arm} (reaches : run advance w arms = some next) :
    next.account = w.account :=
  Library.run_preserves (fun _ _ _ kept _ moved => (advance_spec moved).1.trans kept) rfl
    (Library.everyStep_of_forall_mem (fun _ _ => True.intro) w) reaches

/-- As long as it has not returned, the loop can hand over all it was given, whatever the calls
in flight do. -/
theorem Writer.advance_empties (running : w.runner ≠ .stopped) :
    ∃ arms next, run advance w arms = some next ∧ next.buf = [] ∧ next.queue = [] := by
  induction rows : w.queue generalizing w with
  | nil =>
    cases runner : w.runner with
    | stopped => exact absurd runner running
    | selecting =>
      exact ⟨[.tick], w.flush, by simp [run, advance, runner], flush_buf, flush_queue.trans rows⟩
    | draining done =>
      exact ⟨[.drain], { w.flush with runner := .selecting, done := done :: w.done },
        by simp only [run, advance, runner, rows], flush_buf, flush_queue.trans rows⟩
  | cons row rest ih =>
    -- one row is taken, and the rest is emptied from there
    have takes : ∃ arm next, w.advance arm = some next ∧ next.runner = w.runner
        ∧ next.queue = rest := by
      cases runner : w.runner with
      | stopped => exact absurd runner running
      | selecting =>
        refine ⟨.receive, _, by simp only [advance, runner, rows]; rfl, ?_, ?_⟩
        · split <;> simp
        · split <;> simp
      | draining done =>
        exact ⟨.drain, _, by simp only [advance, runner, rows]; rfl, rfl, rfl⟩
    obtain ⟨arm, taken, moved, same, left⟩ := takes
    obtain ⟨arms, next, reaches, empty⟩ := ih (same ▸ running) left
    exact ⟨arm :: arms, next, Library.run_cons_eq_some.mpr ⟨taken, moved, reaches⟩, empty⟩

end Loop

/-! ### The calls -/

/-- Every row of an `Emit` that returned nil is on its way or counted. -/
structure Accounted (w : Writer R) : Prop where
  alive : w.panicked = false
  queued : w.queued = w.passed
  counted : w.overflowed.length ≤ w.dropped
  exactly : w.closed = false → w.dropped = w.overflowed.length
  stopped : w.runner = .stopped → w.closed = true ∧ w.buf = [] ∧ w.queue = []

/-- What a call in flight knows of the flag and of the rows that overflowed. -/
def Knows (closed : Bool) (overflowed : List R) : Call E R → Prop
  | .sending _ | .full _ => closed = false
  | .rejected => closed = true
  | .storing loaded => closed = true ∧ overflowed.length ≤ loaded
  | _ => True

theorem Accounted.advance {w next : Writer R} {arm : Arm} (acc : Accounted w)
    (moved : w.advance arm = some next) : Accounted next := by
  obtain ⟨same, stopped⟩ := Writer.advance_spec moved
  simp only [Writer.account, Prod.mk.injEq] at same
  obtain ⟨passed, closed, dropped, queued, overflowed, panicked⟩ := same
  exact ⟨panicked.trans acc.alive, by rw [queued, passed, acc.queued],
    by rw [overflowed, dropped]; exact acc.counted,
    fun opened => by rw [dropped, overflowed]; exact acc.exactly (closed ▸ opened),
    fun returned => closed ▸ stopped returned⟩

section Calls

variable {toRow : E → Int → Except String R} {w next : Writer R} {c other : Call E R} {now : Int}
  {rest : Option (Call E R)}

/-- A row more that overflowed is news to no call, as the writer was not closed. -/
theorem Knows.overflow {overflowed : List R} {row : R} (known : Knows false overflowed other) :
    Knows false (overflowed ++ [row]) other := by
  cases other with
  | storing loaded => exact absurd known.1 (by simp)
  | _ => exact known

/-- Closing the writer is news only to an `Emit` that has read the flag. -/
theorem Knows.close {overflowed : List R} (known : Knows false overflowed other)
    (unchecked : other.checked = false) : Knows true overflowed other := by
  cases other with
  | sending row => cases unchecked
  | full row => cases unchecked
  | rejected => cases known
  | storing loaded => cases known.1
  | _ => exact True.intro

/-- One operation keeps the account, what its own call knows and, if it does not close the
writer under an `Emit`, what another one knows. -/
theorem Accounted.act (acc : Accounted w) (known : Knows w.closed w.overflowed c)
    (acted : act toRow w c now = some (next, rest)) :
    Accounted next ∧ (∀ after, rest = some after → Knows next.closed next.overflowed after)
      ∧ ∀ other : Call E R, (c = .close → other.checked = false) →
        Knows w.closed w.overflowed other → Knows next.closed next.overflowed other := by
  cases c with
  | emit event =>
    simp only [Audit.act] at acted
    split at acted
    · cases acted
      exact ⟨acc, nofun, fun _ _ => id⟩
    · cases acted
      refine ⟨acc, ?_, fun _ _ => id⟩
      rintro after ⟨⟩
      cases w.closed <;> simp [Knows]
  | sending row =>
    have opened : ¬w.closed = true := Bool.eq_false_iff.mp known
    simp only [Audit.act, if_neg opened] at acted
    split at acted
    · cases acted
      refine ⟨⟨acc.alive, ?_, acc.counted, acc.exactly, ?_⟩, nofun, fun _ _ => id⟩
      · simp [acc.queued, Writer.passed]
      · exact fun returned => absurd (acc.stopped returned).1 opened
    · cases acted
      refine ⟨acc, ?_, fun _ _ => id⟩
      rintro after ⟨⟩
      exact known
  | full row =>
    have opened : w.closed = false := known
    cases acted
    refine ⟨⟨acc.alive, acc.queued, ?_, fun _ => ?_, acc.stopped⟩, nofun, fun other _ => ?_⟩
    · simpa using acc.counted
    · simpa using acc.exactly opened
    · simp only [opened]
      exact Knows.overflow
  | rejected =>
    cases acted
    refine ⟨acc, ?_, fun _ _ => id⟩
    rintro after ⟨⟩
    exact ⟨known, acc.counted⟩
  | storing loaded =>
    obtain ⟨closed, enough⟩ := known
    cases acted
    exact ⟨⟨acc.alive, acc.queued, Nat.le_succ_of_le enough, by simp [closed], acc.stopped⟩,
      nofun, fun _ _ => id⟩
  | flush =>
    simp only [Audit.act] at acted
    split at acted
    · cases acted
      exact ⟨acc, nofun, fun _ _ => id⟩
    · cases acted
      refine ⟨⟨acc.1, acc.2, acc.3, acc.4, acc.5⟩, ?_, fun _ _ => id⟩
      rintro after ⟨⟩
      exact True.intro
  | flushing done =>
    simp only [Audit.act] at acted
    split at acted
    · cases acted
      refine ⟨⟨acc.1, acc.2, acc.3, acc.4, nofun⟩, ?_, fun _ _ => id⟩
      rintro after ⟨⟩
      exact True.intro
    · cases acted
  | close =>
    simp only [Audit.act] at acted
    split at acted
    · cases acted
      exact ⟨acc, nofun, fun _ _ => id⟩
    · rename_i opened
      cases acted
      refine ⟨⟨acc.1, acc.2, acc.3, nofun, fun returned => ⟨rfl, (acc.5 returned).2⟩⟩, ?_, ?_⟩
      · rintro after ⟨⟩
        exact True.intro
      · intro other unchecked before
        rw [Bool.eq_false_iff.mpr opened] at before
        exact before.close (unchecked rfl)
  | waiting done | closing =>
    simp only [Audit.act] at acted
    split at acted
    · cases acted
      exact ⟨acc, nofun, fun _ _ => id⟩
    · cases acted

theorem writer_obligations : (writer toRow).Obligations Accounted
    (fun w c => Knows w.closed w.overflowed c) ClosesIdle where
  entry w c _ starts := by
    cases c with
    | emit | flush | close => exact True.intro
    | _ => cases starts
  act p slot c now next rest acc all held idle acted := by
    obtain ⟨kept, own, others⟩ := acc.act (all slot c held) acted
    exact ⟨kept, own, fun other call _ found => others call
      (fun closes => idle slot now rfl (closes ▸ held) other call found) (all other call found)⟩
  environment p arm next acc all _ moved := by
    refine ⟨acc.advance moved, fun slot call found => ?_⟩
    have same := (Writer.advance_spec moved).1
    simp only [Writer.account, Prod.mk.injEq] at same
    rw [same.2.1, same.2.2.2.2.1]
    exact all slot call found

/-- In every interleaving in which no `Close` overtakes an `Emit` between its look at the flag and
its return: no row is sent on the closed channel; the rows sent are those handed over, in their
order, then those on their way; the rows dropped are counted; nothing is on its way once `run`
has returned; and at any time the steps of `run` alone can hand over everything sent. -/
theorem emits_accounted {moves : List (Move (Call E R) Int Arm)}
    {flows : Nat → Option (Call E R)}
    (orderly : EveryStep (writer toRow).step ClosesIdle fresh moves)
    (reaches : run (writer toRow).step fresh moves = some ⟨w, flows⟩) :
    w.panicked = false ∧ w.queued = w.handed.flatten ++ w.buf ++ w.queue
      ∧ w.overflowed.length ≤ w.dropped ∧ (w.closed = false → w.dropped = w.overflowed.length)
      ∧ (w.runner = .stopped → w.handed.flatten = w.queued)
      ∧ ∃ arms later, run Writer.advance w arms = some later ∧ later.handed.flatten = w.queued := by
  have started : Accounted (newWriter : Writer R) :=
    ⟨rfl, rfl, Nat.le_refl _, fun _ => rfl, nofun⟩
  have acc : Accounted w := (Program.run_preserves writer_obligations
    ⟨started, fun _ _ held => by cases held⟩ orderly reaches).1
  have delivered : ∀ later : Writer R, later.passed = w.queued → later.buf = [] →
      later.queue = [] → later.handed.flatten = w.queued := by
    intro later passed buf queue
    simpa [Writer.passed, buf, queue] using passed
  refine ⟨acc.alive, acc.queued, acc.counted, acc.exactly, fun returned => ?_, ?_⟩
  · obtain ⟨-, buf, queue⟩ := acc.stopped returned
    exact delivered w acc.queued.symm buf queue
  · by_cases returned : w.runner = .stopped
    · obtain ⟨-, buf, queue⟩ := acc.stopped returned
      exact ⟨[], w, rfl, delivered w acc.queued.symm buf queue⟩
    · obtain ⟨arms, later, advances, buf, queue⟩ := Writer.advance_empties returned
      have same : later.passed = w.passed :=
        congrArg Prod.fst (Writer.advances_account advances)
      exact ⟨arms, later, advances, delivered later (same.trans acc.queued.symm) buf queue⟩

end Calls

namespace Sample

def rowOf (event : Nat) (_ : Int) : Except String Nat := .ok event

/-- An event is sent, and then the writer is closed. -/
def orderly : List (Move (Call Nat Nat) Int Arm) :=
  [.spawn 0 (.emit 7), .act 0 0, .act 0 0, .spawn 0 .close, .act 0 0]

/-- The writer is closed after an `Emit` has looked at the flag. -/
def overtaken : List (Move (Call Nat Nat) Int Arm) :=
  [.spawn 0 (.emit 7), .spawn 1 .close, .act 0 0, .act 1 0, .act 0 0]

end Sample

theorem orderly_close_accounted :
    ∃ fin, run (writer Sample.rowOf).step fresh Sample.orderly = some fin
      ∧ fin.shared.panicked = false := by
  have orderly : EveryStep (writer Sample.rowOf).step ClosesIdle fresh Sample.orderly := by
    refine ⟨nofun, ?_⟩
    rintro _ ⟨⟩
    refine ⟨by rintro _ _ ⟨⟩ ⟨⟩, ?_⟩
    rintro _ ⟨⟩
    refine ⟨by rintro _ _ ⟨⟩ ⟨⟩, ?_⟩
    rintro _ ⟨⟩
    refine ⟨nofun, ?_⟩
    rintro _ ⟨⟩
    refine ⟨?_, fun _ _ => True.intro⟩
    rintro _ _ ⟨⟩ - other c found
    obtain ⟨-, isClose⟩ | ⟨apart, found⟩ := Pool.put_eq_some found
    · cases isClose
      rfl
    · obtain ⟨same, -⟩ | ⟨-, found⟩ := Pool.put_eq_some found
      · exact absurd same apart
      · simp [Pool.put, apart, fresh] at found
  exact ⟨_, rfl, (emits_accounted orderly rfl).1⟩

theorem overtaken_emit_panics :
    (run (writer Sample.rowOf).step fresh Sample.overtaken).map (·.shared.panicked) = some true :=
  rfl

end TangraAuth.Audit

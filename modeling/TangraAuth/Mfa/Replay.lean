import TangraAuth.Library.Histories
import TangraAuth.Mfa.Service

/-!
Contract: `Verify` calls of one user in flight, and the time steps they accept.

Owns: `Verify` as single accesses of the store and the clock, its agreement with the call
that runs alone, for which interleavings every accepted time step is later than all before
it, and two calls that accept one step.

Does not own: enrolment and removal, which start the replay counter over.
-/

namespace TangraAuth.Mfa

open Library Store

/-- `Verify`, by the access it makes next. -/
inductive VerifyCall where
  | user (code : String)
  | clock (sec : Bytes) (lastCounter : Int) (code : String)
  | setCounter (lastCounter counter : Int)
  | hashes (norm : String)
  | use (hash : String)

/-- Where a call stands after an access: at the next one, or returned. -/
abbrev Onward := VerifyCall ⊕ Except Error VerifyMethod

section Calls

variable (plat : Platform) (actor : Actor)

/-- A one-time code, with the user row that was read. -/
def beginOTP (acc : Account) (code : String) : Onward :=
  if acc.mfaSecretEnc.isEmpty then .inr (.error .invalidCode)
  else
    match decrypt plat actor.userID acc.mfaSecretEnc with
    | none => .inr (.error .undecryptable)
    | some sec => .inl (.clock sec acc.mfaLastCounter code)

/-- A recovery code. -/
def beginRecovery (code : String) : Onward :=
  match normalizeRecovery plat code with
  | none => .inr (.error .invalidCode)
  | some norm => .inl (.hashes norm)

/-- What `Verify` makes of the user row. -/
def afterUser (acc : Account) (trimmed : String) : Onward :=
  if acc.mfaEnabled then
    if isDigits trimmed then beginOTP plat actor acc trimmed
    else beginRecovery plat trimmed
  else .inr (.error .notEnrolled)

/-- The code against the clock and the counter that was read with the user. -/
def afterClock (now : Int) (sec : Bytes) (lastCounter : Int) (code : String) : Onward :=
  match matchCode plat now sec code with
  | none => .inr (.error .invalidCode)
  | some counter =>
    if counter ≤ lastCounter then .inr (.error .invalidCode)
    else .inl (.setCounter lastCounter counter)

def afterHashes (norm : String) (hashes : List String) : Onward :=
  match hashes.find? (plat.verifyPassword norm) with
  | none => .inr (.error .invalidCode)
  | some hash => .inl (.use hash)

/-- One access: the state after it, and where the call stands. -/
def verifyAct (d : Data) (fs : Faults) : VerifyCall → Data × Onward
  | .user code =>
    match user fs .verify actor.tenantID actor.userID d with
    | (.error _, post) => (post, .inr (.error .invalidCode))
    | (.ok acc, post) => (post, afterUser plat actor acc (Library.trimSpace code))
  | .clock sec lastCounter code => (d, afterClock plat d.now sec lastCounter code)
  | .setCounter _ counter =>
    match setMFACounter fs .verify actor.tenantID actor.userID counter d with
    | (.error error, post) => (post, .inr (.error error))
    | (.ok (), post) => (post, .inr (.ok .otp))
  | .hashes norm =>
    match listRecoveryCodeHashes fs .verify actor.tenantID actor.userID d with
    | (.error error, post) => (post, .inr (.error error))
    | (.ok hashes, post) => (post, afterHashes plat norm hashes)
  | .use hash =>
    match useRecoveryCode fs .verify actor.tenantID actor.userID hash d with
    | (.error _, post) => (post, .inr (.error .invalidCode))
    | (.ok (), post) => (post, .inr (.ok .recovery))

/-- The call to its end, alone; it makes at most `accesses` more of them. -/
def runAlone (fs : Faults) : Nat → Onward → Work VerifyMethod
  | _, .inr res => fun d => (res, d)
  | 0, .inl _ => Task.fail .unavailable
  | accesses + 1, .inl next => fun d =>
    let access := verifyAct plat actor d fs next
    runAlone fs accesses access.2 access.1

variable (fs : Faults) (acc : Account) (code : String) (d : Data)

theorem verifyOTP_eq_runAlone : verifyOTP plat fs actor acc code d
      = runAlone plat actor fs 2 (beginOTP plat actor acc code) d := by
  unfold verifyOTP beginOTP
  split_ifs
  · rfl
  · cases decrypt plat actor.userID acc.mfaSecretEnc with
    | none => rfl
    | some sec =>
      show Task.andThen _ _ d = _
      simp only [Task.andThen, Task.read, runAlone, verifyAct, afterClock]
      cases matchCode plat d.now sec code with
      | none => rfl
      | some counter =>
        dsimp only
        split_ifs
        · rfl
        · show Task.andThen _ _ d = _
          simp only [Task.andThen, runAlone, verifyAct]
          rcases setMFACounter fs .verify actor.tenantID actor.userID counter d with
            ⟨error | val, post⟩
          all_goals rfl

theorem verifyRecovery_eq_runAlone : verifyRecovery plat fs actor code d
      = runAlone plat actor fs 2 (beginRecovery plat code) d := by
  unfold verifyRecovery beginRecovery
  cases normalizeRecovery plat code with
  | none => rfl
  | some norm =>
    show Task.andThen _ _ d = _
    simp only [Task.andThen, runAlone, verifyAct, afterHashes]
    rcases listRecoveryCodeHashes fs .verify actor.tenantID actor.userID d with
      ⟨error | hashes, post⟩
    · rfl
    dsimp only
    cases hashes.find? (plat.verifyPassword norm) with
    | none => rfl
    | some hash =>
      show Task.andThen _ _ post = _
      simp only [Task.andThen, Task.mapError, runAlone, verifyAct]
      rcases useRecoveryCode fs .verify actor.tenantID actor.userID hash post with
        ⟨error | val, last⟩
      all_goals rfl

/-- Alone, the accesses make up `verify`. -/
theorem verify_eq_runAlone : verify plat fs actor code d
      = runAlone plat actor fs 3 (.inl (.user code)) d := by
  show Task.andThen _ _ d = _
  simp only [Task.andThen, Task.mapError, runAlone, verifyAct]
  rcases user fs .verify actor.tenantID actor.userID d with ⟨error | acc, post⟩
  · rfl
  simp only [afterUser]
  cases acc.mfaEnabled with
  | false => rfl
  | true =>
    simp only [if_true, verifyTrimmed]
    split_ifs
    · exact verifyOTP_eq_runAlone plat actor fs acc _ post
    · exact verifyRecovery_eq_runAlone plat actor fs _ post

/-- The calls of the user; around them only time passes. -/
def verifying : Program Data VerifyCall Faults Nat where
  entry _ call := match call with
    | .user _ => true
    | _ => false
  act d call fs :=
    match verifyAct plat actor d fs call with
    | (post, .inr _) => some (post, none)
    | (post, .inl next) => some (post, some next)
  environment d elapsed := some { d with now := d.now + elapsed }

/-- The time step that an access accepts: `Verify` succeeds once the counter is recorded. -/
def acceptsStep (_ : Unit) (_ : Data) (call : VerifyCall) (fs : Faults) : List Int :=
  match call with
  | .setCounter _ counter => if fs .verify .setMFACounter then [] else [counter]
  | _ => []

/-- The calls with the time steps accepted, oldest first. -/
def verifications : Program (Recorded Data Int) (Tagged Unit VerifyCall) Faults Nat :=
  (verifying plat actor).recorded (fun _ => ()) acceptsStep

end Calls

/-! ### Accepted time steps -/

section AcceptedSteps

variable {plat : Platform} {actor : Actor}

/-- The row still holds the counter with which the call has read it. -/
def HoldsCounter (actor : Actor) (d : Data) (lastCounter : Int) : Prop :=
  ∃ acc, d.accounts actor.tenantID actor.userID = some acc ∧ acc.mfaLastCounter = lastCounter

/-- A counter is recorded only over the one that the call has read. -/
def RecordsOverReadRow (actor : Actor) (pl : Pool (Recorded Data Int) (Tagged Unit VerifyCall)) :
    Move (Tagged Unit VerifyCall) Faults Nat → Prop
  | .act slot fs =>
    match pl.flows slot with
    | some ⟨_, .setCounter lastCounter _⟩ =>
      fs .verify .setMFACounter = false → HoldsCounter actor pl.shared.state lastCounter
    | _ => True
  | _ => True

/-- The replay check was made: the counter to be recorded is later than the one read. -/
def ReplayChecked : VerifyCall → Prop
  | .setCounter lastCounter counter => lastCounter < counter
  | _ => True

/-- The steps were accepted in order, and the recorded counter has reached all of them. -/
structure Ascending (actor : Actor) (recorded : Recorded Data Int) : Prop where
  increasing : recorded.log.Pairwise (· < ·)
  reached : ∀ step ∈ recorded.log, ∃ acc,
    recorded.state.accounts actor.tenantID actor.userID = some acc ∧ step ≤ acc.mfaLastCounter

theorem Ascending.of_accounts {recorded : Recorded Data Int} (ascending : Ascending actor recorded)
    {state : Data} (same : state.accounts = recorded.state.accounts) :
    Ascending actor ⟨state, recorded.log⟩ where
  increasing := ascending.increasing
  reached step accepted := by
    rw [same]
    exact ascending.reached step accepted

theorem Ascending.accept {recorded : Recorded Data Int} (ascending : Ascending actor recorded)
    {lastCounter counter : Int} (later : lastCounter < counter)
    (holds : HoldsCounter actor recorded.state lastCounter) :
    Ascending actor
      ⟨recorded.state.changeAccount actor.tenantID actor.userID fun acc =>
          if acc.mfaLastCounter < counter then { acc with mfaLastCounter := counter }
          else acc,
        recorded.log ++ [counter]⟩ := by
  obtain ⟨acc, isAccount, rfl⟩ := holds
  have below : ∀ step ∈ recorded.log, step < counter := by
    intro step accepted
    obtain ⟨other, isOther, reached⟩ := ascending.reached step accepted
    cases Option.some.inj (isOther.symm.trans isAccount)
    omega
  refine ⟨?_, ?_⟩
  · refine List.pairwise_append.mpr ⟨ascending.increasing, List.pairwise_singleton _ _, ?_⟩
    grind
  grind [Data.changeAccount]

theorem useRecoveryCode_accounts (fs : Faults) (tid : TenantID) (uid : UserID)
    (hash : String) (d : Data) :
    (useRecoveryCode fs .verify tid uid hash d).2.accounts = d.accounts := by
  unfold useRecoveryCode call
  split_ifs
  · rfl
  · dsimp only
    split_ifs
    all_goals rfl

theorem verifyAct_accounts {d : Data} {fs : Faults} {call : VerifyCall}
    (notCounter : ∀ lastCounter counter, call ≠ .setCounter lastCounter counter) :
    (verifyAct plat actor d fs call).1.accounts = d.accounts := by
  cases call with
  | setCounter lastCounter counter => exact absurd rfl (notCounter lastCounter counter)
  | clock sec lastCounter code => rfl
  | user code =>
    have unchanged : (user fs .verify actor.tenantID actor.userID d).2 = d :=
      query_state fs .verify .user _ d
    grind [verifyAct]
  | hashes norm =>
    have unchanged : (listRecoveryCodeHashes fs .verify actor.tenantID actor.userID d).2 = d :=
      query_state fs .verify .listRecoveryCodeHashes _ d
    grind [verifyAct]
  | use hash =>
    grind [useRecoveryCode_accounts, verifyAct]

/-- The recording of a counter: nothing, or the raised counter. -/
theorem verifyAct_setCounter (d : Data) (fs : Faults) (lastCounter counter : Int) :
    (verifyAct plat actor d fs (.setCounter lastCounter counter)).1
      = if fs .verify .setMFACounter then d
        else d.changeAccount actor.tenantID actor.userID fun acc =>
          if acc.mfaLastCounter < counter then { acc with mfaLastCounter := counter }
          else acc := by
  simp only [verifyAct, setMFACounter, call]
  cases fs .verify .setMFACounter with
  | true => rfl
  | false => rfl

/-- Only the comparison with the clock leads to the recording, past the replay check. -/
theorem verifyAct_replayChecked {d : Data} {fs : Faults} {call next : VerifyCall}
    (goes : (verifyAct plat actor d fs call).2 = .inl next) : ReplayChecked next := by
  cases call with
  | clock sec lastCounter code =>
    simp only [verifyAct, afterClock] at goes
    split at goes
    · cases goes
    · split_ifs at goes with replayed
      cases goes
      exact Int.not_le.mp replayed
  | user code =>
    simp only [verifyAct, afterUser, beginOTP, beginRecovery] at goes
    grind [ReplayChecked]
  | setCounter | hashes | use => grind [verifyAct, afterHashes, ReplayChecked]

theorem ascending_obligations :
    (verifications plat actor).Obligations (Ascending actor)
      (fun _ held => ReplayChecked held.flow) (RecordsOverReadRow actor) where
  entry recorded held _ allowed := by
    obtain ⟨-, isEntry⟩ := Program.recorded_entry.mp allowed
    obtain ⟨tag, call⟩ := held
    cases call with
    | user => exact True.intro
    | clock | setCounter | hashes | use => cases isEntry
  act pl slot held fs sh rest ascending checked found permitted acted := by
    obtain ⟨state, continues, isAct, rfl, rfl⟩ := Program.recorded_act acted
    obtain ⟨tag, call⟩ := held
    obtain ⟨isState, goes⟩ : state = (verifyAct plat actor pl.shared.state fs call).1
        ∧ ∀ next, continues = some next →
          (verifyAct plat actor pl.shared.state fs call).2 = .inl next := by
      simp only [verifying] at isAct
      split at isAct
      all_goals
        rename_i access
        cases isAct
        rw [access]
      · exact ⟨rfl, fun _ none => nomatch none⟩
      · exact ⟨rfl, fun _ same => congrArg Sum.inl (Option.some.inj same)⟩
    subst isState
    refine ⟨?_, fun next isNext => ?_, fun other held _ isHeld => checked other held isHeld⟩
    · cases call with
      | setCounter lastCounter counter =>
        simp only [RecordsOverReadRow, found] at permitted
        have later : lastCounter < counter := checked slot _ found
        rw [verifyAct_setCounter]
        simp only [acceptsStep]
        cases fails : fs .verify .setMFACounter with
        | true =>
          simp only [if_true, List.append_nil]
          exact ascending
        | false =>
          simp only [Bool.false_eq_true, if_false]
          exact ascending.accept later (permitted fails)
      | user | clock | hashes | use =>
        simp only [acceptsStep, List.append_nil]
        exact ascending.of_accounts (verifyAct_accounts fun _ _ => VerifyCall.noConfusion)
    · obtain ⟨call, isCall, rfl⟩ := Option.map_eq_some_iff.mp isNext
      exact verifyAct_replayChecked (goes call isCall)
  environment pl elapsed sh ascending checked _ moved := by
    obtain ⟨state, isMove, rfl⟩ := Program.recorded_environment moved
    cases isMove
    exact ⟨ascending.of_accounts rfl, fun slot held isHeld => checked slot held isHeld⟩

end AcceptedSteps

/-- No call is in flight and no step was accepted. -/
def unverified (d : Data) : Pool (Recorded Data Int) (Tagged Unit VerifyCall) where
  shared := ⟨d, []⟩
  flows _ := none

/-- Where every counter is recorded over the one that was read, each accepted time step is later
than all steps accepted before it. -/
theorem accepted_steps_increase (plat : Platform) (actor : Actor) (d : Data)
    (moves : List (Move (Tagged Unit VerifyCall) Faults Nat))
    (fin : Pool (Recorded Data Int) (Tagged Unit VerifyCall))
    (permitted : EveryStep (verifications plat actor).step (RecordsOverReadRow actor)
      (unverified d) moves)
    (reaches : run (verifications plat actor).step (unverified d) moves = some fin) :
    fin.shared.log.Pairwise (· < ·) := by
  have started : Ascending actor (unverified d).shared :=
    ⟨List.Pairwise.nil, fun _ accepted => nomatch accepted⟩
  have kept := Program.run_preserves ascending_obligations
    ⟨started, fun _ _ none => nomatch none⟩ permitted reaches
  exact kept.1.increasing

namespace Sample

/-- The code of every step is the same; what is sealed is read back as it is. -/
def platform : Platform where
  generateCode _ _ := some "123456"
  openEnvelope _ blob := some blob
  sealEnvelope _ secret _ := secret
  verifyPassword _ _ := false
  hashPassword _ _ := none
  toUpper text := text
  equalFold left right := left == right
  lower text := text

def actor : Actor := ⟨1, 1⟩

/-- One user with an authenticator app, one hour after the epoch. -/
def enrolled : Data where
  now := 3600 * second
  tenants _ := none
  accounts tid uid :=
    if tid = 1 ∧ uid = 1 then
      some ⟨.active, true, List.replicate minEnvelope 0, 0, none⟩
    else none
  keys := ⟨[], KeyTable.unique_nil⟩
  codes := []
  enrolments := .empty
  ceremonies := .empty
  failures := .empty
  locks := .empty

def served : Faults := fun _ _ => false

def verification : Tagged Unit VerifyCall := ⟨(), .user "123456"⟩

/-- A code a minute after another. -/
def inTurn : List (Move (Tagged Unit VerifyCall) Faults Nat) :=
  [.spawn 0 verification, .act 0 served, .act 0 served, .act 0 served, .environment 60000000000,
    .spawn 0 verification, .act 0 served, .act 0 served, .act 0 served]

/-- Two calls with one code read the user before one of them records the counter. -/
def overlapping : List (Move (Tagged Unit VerifyCall) Faults Nat) :=
  [.spawn 0 verification, .spawn 1 verification, .act 0 served, .act 1 served, .act 0 served,
    .act 1 served, .act 0 served, .act 1 served]

end Sample

section Runs

-- The runs below are evaluated through the check of a code.
attribute [local semireducible] matchCode

theorem accepted_steps_increase_in_turn :
    ∃ fin, run (verifications Sample.platform Sample.actor).step (unverified Sample.enrolled)
        Sample.inTurn = some fin
      ∧ fin.shared.log = [119, 121] ∧ fin.shared.log.Pairwise (· < ·) := by
  have permitted : EveryStep (verifications Sample.platform Sample.actor).step
      (RecordsOverReadRow Sample.actor) (unverified Sample.enrolled) Sample.inTurn := by
    iterate 3
      refine ⟨True.intro, fun _ taken => ?_⟩
      cases taken
    refine ⟨fun _ => ⟨_, rfl, rfl⟩, fun _ taken => ?_⟩
    cases taken
    iterate 4
      refine ⟨True.intro, fun _ taken => ?_⟩
      cases taken
    refine ⟨fun _ => ⟨_, rfl, rfl⟩, fun _ taken => ?_⟩
    cases taken
    exact True.intro
  obtain ⟨fin, ran, logged⟩ : ∃ fin,
      run (verifications Sample.platform Sample.actor).step (unverified Sample.enrolled)
          Sample.inTurn = some fin
        ∧ fin.shared.log = [119, 121] := ⟨_, rfl, rfl⟩
  exact ⟨fin, ran, logged, accepted_steps_increase _ _ _ _ _ permitted ran⟩

/-- Two calls accept one time step. -/
theorem overlapping_verifications_accept_one_step :
    ∃ fin, run (verifications Sample.platform Sample.actor).step (unverified Sample.enrolled)
        Sample.overlapping = some fin ∧ fin.shared.log = [119, 119] :=
  ⟨_, rfl, rfl⟩

end Runs

end TangraAuth.Mfa

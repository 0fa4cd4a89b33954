import TangraAuth.Library.Histories
import TangraAuth.Webauthn.Service

/-!
Contract: assertions in flight, and the signature counters they record.

Owns: `finishAssertion` as single accesses, its agreement with the call that runs alone, for
which interleavings accepted counters are distinct and the stored one never falls, and three
calls that break both.

Does not own: registration, renaming and removal of keys.
-/

namespace TangraAuth.Webauthn

open Library Store
open TangraAuth.Mfa

/-- `finishAssertion`, by the access it makes next. -/
inductive AssertCall where
  | take (purpose : Purpose) (subj : Nat) (resp : Bytes)
  | user (sess rawID resp : Bytes)
  | handle (acc : Account) (sess rawID resp : Bytes)
  | keys (acc : Account) (handle : Option Bytes) (sess rawID resp : Bytes)
  | record (key : Option WebAuthnCredential) (asserted : Asserted)

/-- At the next access, or returned. -/
abbrev Stands := AssertCall ⊕ Except Error Unit

section Calls

variable (party : RelyingParty) (actor : Actor)

def afterTake (resp : Bytes) (ceremony : Ceremony) : Stands :=
  match if maxResponseBytes < resp.length then none else party.parseAssertion resp with
  | none => .inr (.error .assertionFailed)
  | some rawID => .inl (.user ceremony.session rawID resp)

def afterKeys (acc : Account) (handle : Option Bytes) (sess rawID resp : Bytes)
    (ks : List WebAuthnCredential) : Stands :=
  let key := (ks.filter fun key => key.credentialID == rawID).getLast?
  if key.any (·.cloneFlagged) then .inr (.error .keyFlagged)
  else
    match party.validateLogin acc handle (usable ks) sess resp with
    | none => .inr (.error .assertionFailed)
    | some asserted => .inl (.record key asserted)

/-- The call goes on with what an access returned, or returns its error. -/
def onward {α : Type} (next : α → Stands) : Except Error α × Data → Data × Stands
  | (.error error, post) => (post, .inr (.error error))
  | (.ok val, post) => (post, next val)

def assertAct (d : Data) (fs : Faults) : AssertCall → Data × Stands
  | .take purpose subj resp => onward (afterTake party resp)
      (take fs actor .finishAssertion purpose subj .assertionFailed d)
  | .user sess rawID resp =>
    onward (fun acc => .inl (.handle acc sess rawID resp))
      (user fs .finishAssertion actor.tenantID actor.userID d)
  | .handle acc sess rawID resp =>
    onward (fun handle => .inl (.keys acc handle sess rawID resp))
      (webAuthnHandle fs .finishAssertion actor.tenantID actor.userID d)
  | .keys acc handle sess rawID resp =>
    onward (afterKeys party acc handle sess rawID resp)
      (listWebAuthnCredentials fs .finishAssertion actor.tenantID actor.userID d)
  | .record key asserted =>
    onward (fun _ => .inr (.ok ())) (recordAssertion fs actor key asserted d)

/-- The call to its end, alone. -/
def runAccesses (fs : Faults) : Nat → Stands → Work Unit
  | _, .inr res => fun d => (res, d)
  | 0, .inl _ => Task.fail .unavailable
  | accesses + 1, .inl next => fun d =>
    let access := assertAct party actor d fs next
    runAccesses fs accesses access.2 access.1

/-- Alone, the accesses make up `finishAssertion`. -/
theorem finishAssertion_eq_runAccesses (fs : Faults) (purpose : Purpose) (subj : Nat)
    (resp : Bytes) (d : Data) :
    finishAssertion party fs actor purpose subj resp d
      = runAccesses party actor fs 5 (.inl (.take purpose subj resp)) d := by
  show Task.andThen _ _ d = _
  simp only [Task.andThen, runAccesses, assertAct]
  rcases take fs actor .finishAssertion purpose subj .assertionFailed d with
    ⟨error | ceremony, d⟩
  · rfl
  simp only [onward, afterTake]
  generalize (if maxResponseBytes < resp.length then none else party.parseAssertion resp) = parsed
  cases parsed with
  | none => rfl
  | some rawID =>
    show Task.andThen _ _ d = _
    simp only [Task.andThen, runAccesses, assertAct]
    rcases user fs .finishAssertion actor.tenantID actor.userID d with
      ⟨error | acc, d⟩
    · rfl
    show Task.andThen _ _ d = _
    simp only [Task.andThen, onward, runAccesses, assertAct]
    rcases webAuthnHandle fs .finishAssertion actor.tenantID actor.userID d with
      ⟨error | handle, d⟩
    · rfl
    show Task.andThen _ _ d = _
    simp only [Task.andThen, onward, runAccesses, assertAct]
    rcases listWebAuthnCredentials fs .finishAssertion actor.tenantID actor.userID d with
      ⟨error | ks, d⟩
    · rfl
    simp only [afterKeys]
    split_ifs
    · rfl
    · cases party.validateLogin acc handle (usable ks) ceremony.session resp with
      | none => rfl
      | some asserted =>
        simp only [runAccesses, assertAct]
        rcases recordAssertion fs actor _ asserted d with ⟨error | val, d⟩
        all_goals rfl

/-- The assertions of the user; around them everything but the keys may change. -/
def asserting : Program Data AssertCall Faults Data where
  entry _ call := match call with
    | .take _ _ _ => true
    | _ => false
  act d call fs :=
    match assertAct party actor d fs call with
    | (post, .inr _) => some (post, none)
    | (post, .inl next) => some (post, some next)
  environment d chg := some { chg with keys := d.keys }

/-- The key and the counter that an access accepts. -/
def acceptsCounter (_ : Unit) (d : Data) (call : AssertCall) (fs : Faults) : List (KeyID × Nat) :=
  match call with
  | .record (some key) asserted =>
    match (recordAssertion fs actor (some key) asserted d).1 with
    | .ok _ => [(key.id, asserted.signCount)]
    | .error _ => []
  | _ => []

/-- The assertions with the counters accepted, oldest first. -/
def assertions : Program (Recorded Data (KeyID × Nat)) (Tagged Unit AssertCall) Faults Data :=
  (asserting party actor).recorded (fun _ => ()) (acceptsCounter actor)

end Calls

/-! ### Accepted counters -/

/-- A clone is flagged exactly when a nonzero counter does not exceed the one of the key. -/
def RelyingParty.WarnsOfClones (party : RelyingParty) : Prop :=
  ∀ acc handle ks sess resp asserted key,
    party.validateLogin acc handle ks sess resp = some asserted →
    UniqueKey (·.credentialID) ks → key ∈ ks →
    party.parseAssertion resp = some key.credentialID →
    (asserted.cloneWarning = true ↔ asserted.signCount ≠ 0 ∧ asserted.signCount ≤ key.signCount)

/-- A counter is recorded over the one the call has read, and zero only over zero. -/
def RecordsOverRead (pl : Pool (Recorded Data (KeyID × Nat)) (Tagged Unit AssertCall)) :
    Move (Tagged Unit AssertCall) Faults Data → Prop
  | .act slot fs =>
    match pl.flows slot with
    | some ⟨_, .record (some key) asserted⟩ =>
      asserted.cloneWarning = false → fs .finishAssertion .updateWebAuthnUse = false →
      ∀ row ∈ pl.shared.state.keys.rows, row.id = key.id →
        row.signCount = key.signCount ∧ (asserted.signCount = 0 → row.signCount = 0)
    | _ => True
  | _ => True

section Counters

variable {party : RelyingParty} {actor : Actor} {earlier : List WebAuthnCredential}

/-- What a call knows between its accesses. -/
def Warned (party : RelyingParty) : AssertCall → Prop
  | .take _ _ _ => True
  | .user _ rawID resp | .handle _ _ rawID resp | .keys _ _ _ rawID resp =>
    party.parseAssertion resp = some rawID
  | .record key asserted => ∀ row, key = some row → asserted.cloneWarning = false →
    asserted.signCount = 0 ∨ row.signCount < asserted.signCount

/-- No accepted counter of a key came twice, the stored ones have reached all of them and have
not fallen since `earlier`. -/
structure Climbing (earlier : List WebAuthnCredential) (recorded : Recorded Data (KeyID × Nat)) :
    Prop where
  credentials : UniqueKey (·.credentialID) recorded.state.keys.rows
  distinct : recorded.log.Pairwise fun first later =>
    first.1 = later.1 → first.2 ≠ 0 → first.2 ≠ later.2
  reached : ∀ e ∈ recorded.log, ∀ row ∈ recorded.state.keys.rows, row.id = e.1 → e.2 ≤ row.signCount
  grown : ∀ old ∈ earlier, ∀ row ∈ recorded.state.keys.rows, row.id = old.id →
    old.signCount ≤ row.signCount

theorem Climbing.of_keys {recorded : Recorded Data (KeyID × Nat)}
    (climbing : Climbing earlier recorded) {state : Data}
    (same : state.keys = recorded.state.keys) : Climbing earlier ⟨state, recorded.log⟩ := by
  obtain ⟨credentials, ne, reached, grown⟩ := climbing
  exact ⟨same ▸ credentials, ne, same ▸ reached, same ▸ grown⟩

/-- Rows that keep their identity, with no counter below what it was. -/
theorem Climbing.update {recorded : Recorded Data (KeyID × Nat)}
    (climbing : Climbing earlier recorded) (matching : WebAuthnCredential → Bool)
    (change : WebAuthnCredential → WebAuthnCredential) (keepsID : ∀ key, (change key).id = key.id)
    (keepsCredential : ∀ key, (change key).credentialID = key.credentialID)
    (grows : ∀ row ∈ recorded.state.keys.rows, matching row = true →
      row.signCount ≤ (change row).signCount) :
    Climbing earlier ⟨{ recorded.state with
      keys := recorded.state.keys.update matching change keepsID }, recorded.log⟩ := by
  obtain ⟨credentials, ne, reached, grown⟩ := climbing
  have above : ∀ row ∈ updateWhere matching change recorded.state.keys.rows,
      ∃ old ∈ recorded.state.keys.rows, row.id = old.id ∧ old.signCount ≤ row.signCount := by
    intro row mem
    obtain ⟨old, isOld, ⟨matched, rfl⟩ | ⟨-, rfl⟩⟩ := of_mem_updateWhere mem
    · exact ⟨old, isOld, keepsID old, grows old isOld matched⟩
    · exact ⟨row, isOld, rfl, le_rfl⟩
  refine ⟨uniqueKey_updateWhere keepsCredential credentials, ne, ?_, ?_⟩
  · intro e logged row mem sameID
    obtain ⟨old, isOld, isID, le⟩ := above row mem
    exact (reached e logged old isOld (isID.symm.trans sameID)).trans le
  · intro first isFirst row mem sameID
    obtain ⟨old, isOld, isID, le⟩ := above row mem
    exact (grown first isFirst old isOld (isID.symm.trans sameID)).trans le

theorem take_keys (fs : Faults) (purpose : Purpose) (subj : Nat) (missing : Error) (d : Data) :
    (take fs actor .finishAssertion purpose subj missing d).2.keys = d.keys := by
  show (Task.andThen (Task.andThen _ _) _ d).2.keys = _
  simp only [Task.andThen, ignoringError, call]
  split_ifs
  · rfl
  · cases d.ceremonies.get d.now (purpose, subj) with
    | none => rfl
    | some ceremony =>
      show ((if _ then Task.ended ceremony else Task.fail missing : Work Ceremony) _).2.keys = _
      split_ifs <;> rfl

theorem updateKey_eq (fs : Faults) (site : Site) (tid : TenantID) (method : Method) (id : KeyID)
    {change : WebAuthnCredential → WebAuthnCredential} (keepsID : ∀ key, (change key).id = key.id)
    (d : Data) :
    updateKey fs site tid method id change keepsID d
      = if fs site method then (.error .unavailable, d)
        else if d.keys.rows.any fun key => key.tenantID == tid && key.id == id then
          (.ok (), { d with
            keys := d.keys.update (fun key => key.tenantID == tid && key.id == id) change keepsID })
        else (.error .notFound, d) := by
  simp only [updateKey, call]
  grind

/-- A counter above the stored one, or zero over zero, is recorded and accepted. -/
theorem Climbing.accept {recorded : Recorded Data (KeyID × Nat)}
    (climbing : Climbing earlier recorded) {key : WebAuthnCredential} {asserted : Asserted}
    {matching : WebAuthnCredential → Bool} (found : recorded.state.keys.rows.any matching)
    (named : ∀ row, matching row = true → row.id = key.id)
    (above : ∀ row ∈ recorded.state.keys.rows, row.id = key.id →
      row.signCount < asserted.signCount ∨ (row.signCount = 0 ∧ asserted.signCount = 0)) :
    Climbing earlier ⟨{ recorded.state with
        keys := recorded.state.keys.update matching (fun key => { key with
          signCount := asserted.signCount, backupState := asserted.backupState }) fun _ => rfl },
      recorded.log ++ [(key.id, asserted.signCount)]⟩ := by
  obtain ⟨held, isHeld, heldMatches⟩ := List.any_eq_true.mp found
  have updated := climbing.update matching (fun key => { key with
    signCount := asserted.signCount, backupState := asserted.backupState }) (fun _ => rfl)
    (fun _ => rfl) (by grind)
  refine ⟨updated.credentials, List.pairwise_append.mpr ⟨climbing.distinct,
    List.pairwise_singleton _ _, ?_⟩, ?_, updated.grown⟩
  · intro first logged later isLater sameKey nonzero
    rw [List.mem_singleton] at isLater
    subst isLater
    have reached := climbing.reached first logged held isHeld
      ((named held heldMatches).trans sameKey.symm)
    have := above held isHeld (named held heldMatches)
    omega
  · intro e logged row mem sameID
    rcases List.mem_append.mp logged with logged | isNew
    · exact updated.reached e logged row mem sameID
    · rw [List.mem_singleton] at isNew
      subst isNew
      obtain ⟨old, isOld, ⟨-, rfl⟩ | ⟨unmatched, rfl⟩⟩ := of_mem_updateWhere mem
      · exact le_rfl
      · -- the id is the primary key, so this row is the one that was found
        have same := eq_of_uniqueKey recorded.state.keys.unique isOld isHeld
          (sameID.trans (named held heldMatches).symm)
        rw [same, heldMatches] at unmatched
        cases unmatched

/-- The last access. -/
theorem Climbing.record {recorded : Recorded Data (KeyID × Nat)}
    (climbing : Climbing earlier recorded) (fs : Faults) {key : WebAuthnCredential}
    {asserted : Asserted} (warned : Warned party (.record (some key) asserted))
    (overRead : asserted.cloneWarning = false → fs .finishAssertion .updateWebAuthnUse = false →
      ∀ row ∈ recorded.state.keys.rows, row.id = key.id →
        row.signCount = key.signCount ∧ (asserted.signCount = 0 → row.signCount = 0)) :
    Climbing earlier ⟨(recordAssertion fs actor (some key) asserted recorded.state).2, recorded.log
        ++ acceptsCounter actor () recorded.state (.record (some key) asserted) fs⟩ := by
  cases clone : asserted.cloneWarning with
  | true =>
    have refused : ∃ error, recordAssertion fs actor (some key) asserted recorded.state
        = (.error error,
          (flagWebAuthnClone fs .finishAssertion actor.tenantID key.id recorded.state).2) := by
      simp only [recordAssertion, clone, if_true]
      show ∃ error, Task.andThen _ _ recorded.state = _
      rw [Task.andThen]
      rcases flagWebAuthnClone fs .finishAssertion actor.tenantID key.id recorded.state with
        ⟨error | flagged, post⟩
      all_goals exact ⟨_, rfl⟩
    obtain ⟨error, out⟩ := refused
    simp only [acceptsCounter, out, flagWebAuthnClone, updateKey_eq, List.append_nil]
    split_ifs
    · exact climbing
    · exact climbing.update _ (fun key => { key with cloneFlagged := true }) (fun _ => rfl)
        (fun _ => rfl) fun _ _ _ => le_rfl
    · exact climbing
  | false =>
    simp only [acceptsCounter, recordAssertion, clone, Bool.false_eq_true, if_false,
      updateWebAuthnUse, updateKey_eq]
    split_ifs with fails found
    · rw [List.append_nil]
      exact climbing
    · refine climbing.accept found (fun row matched => ?_) fun row mem sameID => ?_
      · simp only [Bool.and_eq_true, beq_iff_eq] at matched
        exact matched.2
      · obtain ⟨read, zero⟩ := overRead clone (by simpa using fails) row mem sameID
        have := warned key rfl clone
        omega
    · rw [List.append_nil]
      exact climbing

theorem afterTake_warned {resp : Bytes} {ceremony : Ceremony} {next : AssertCall}
    (goes : afterTake party resp ceremony = .inl next) : Warned party next := by
  unfold afterTake at goes
  split at goes
  · cases goes
  · rename_i parsed
    cases goes
    split_ifs at parsed
    exact parsed

theorem afterKeys_warned (warns : party.WarnsOfClones) {acc : Account} {handle : Option Bytes}
    {sess rawID resp : Bytes} {ks : List WebAuthnCredential} {next : AssertCall}
    (parsed : party.parseAssertion resp = some rawID) (unique : UniqueKey (·.credentialID) ks)
    (goes : afterKeys party acc handle sess rawID resp ks = .inl next) :
    Warned party next := by
  unfold afterKeys at goes
  dsimp only at goes
  split_ifs at goes with flagged
  split at goes
  · cases goes
  · rename_i asserted valid
    cases goes
    intro row isRow unwarned
    obtain ⟨mem, isID⟩ := List.mem_filter.mp (List.mem_of_getLast? isRow)
    rw [isRow] at flagged
    have isUsable : row ∈ usable ks :=
      List.mem_filter.mpr ⟨mem, by simpa using flagged⟩
    have law := warns _ _ _ _ _ _ row valid (uniqueKey_filter unique _) isUsable
      (by rw [parsed, beq_iff_eq.mp isID])
    by_contra falls
    have warned := law.mpr (by omega)
    rw [unwarned] at warned
    cases warned

theorem onward_fst {α : Type} (next : α → Stands) (out : Except Error α × Data) :
    (onward next out).1 = out.2 := by
  rcases out with ⟨error | val, post⟩ <;> rfl

theorem onward_eq_inl {α : Type} {next : α → Stands} {out : Except Error α × Data}
    {call : AssertCall} (goes : (onward next out).2 = .inl call) :
    ∃ val, out.1 = .ok val ∧ next val = .inl call := by
  rcases out with ⟨error | val, post⟩
  · cases goes
  · exact ⟨val, rfl, goes⟩

theorem listWebAuthnCredentials_eq_ok {fs : Faults} {site : Site} {tid : TenantID}
    {uid : UserID} {d : Data} {ks : List WebAuthnCredential}
    (listed : (listWebAuthnCredentials fs site tid uid d).1 = .ok ks) :
    ks = d.userKeys tid uid := by
  simp only [listWebAuthnCredentials, query, call] at listed
  split_ifs at listed
  exact (Except.ok.inj listed).symm

/-- An access other than the last leaves the keys. -/
theorem assertAct_keys (d : Data) (fs : Faults) {call : AssertCall}
    (notRecord : ∀ key asserted, call ≠ .record key asserted) :
    (assertAct party actor d fs call).1.keys = d.keys := by
  cases call with
  | take purpose subj resp =>
    simp only [assertAct, onward_fst]
    exact take_keys fs purpose subj .assertionFailed d
  | user | handle | keys =>
    simp only [assertAct, onward_fst, user, webAuthnHandle, listWebAuthnCredentials, query_state]
  | record key asserted => exact absurd rfl (notRecord key asserted)

theorem assertAct_warned (warns : party.WarnsOfClones) {d : Data} {fs : Faults}
    {call next : AssertCall} (unique : UniqueKey (·.credentialID) d.keys.rows)
    (warned : Warned party call)
    (goes : (assertAct party actor d fs call).2 = .inl next) : Warned party next := by
  cases call with
  | take =>
    obtain ⟨ceremony, -, continues⟩ := onward_eq_inl goes
    exact afterTake_warned continues
  | user | handle =>
    obtain ⟨val, -, continues⟩ := onward_eq_inl goes
    cases continues
    exact warned
  | keys =>
    obtain ⟨ks, listed, continues⟩ := onward_eq_inl goes
    have listedUnique : UniqueKey (·.credentialID) ks := by
      rw [listWebAuthnCredentials_eq_ok listed]
      exact uniqueKey_filter unique _
    exact afterKeys_warned warns warned listedUnique continues
  | record =>
    obtain ⟨val, -, continues⟩ := onward_eq_inl goes
    cases continues

theorem climbing_obligations (warns : party.WarnsOfClones) :
    (assertions party actor).Obligations (Climbing earlier) (fun _ held => Warned party held.flow)
      RecordsOverRead where
  entry recorded held _ allowed := by
    obtain ⟨-, isEntry⟩ := Program.recorded_entry.mp allowed
    obtain ⟨tag, call⟩ := held
    cases call with
    | take => exact True.intro
    | user | handle | keys | record => cases isEntry
  act pl slot held fs sh rest climbing warned found permitted acted := by
    obtain ⟨state, continues, isAct, rfl, rfl⟩ := Program.recorded_act acted
    obtain ⟨tag, call⟩ := held
    have known := warned slot _ found
    obtain ⟨isState, goes⟩ : state = (assertAct party actor pl.shared.state fs call).1
        ∧ ∀ next, continues = some next →
          (assertAct party actor pl.shared.state fs call).2 = .inl next := by
      simp only [asserting] at isAct
      split at isAct
      all_goals
        rename_i access
        cases isAct
        rw [access]
      · exact ⟨rfl, fun _ none => nomatch none⟩
      · exact ⟨rfl, fun _ same => congrArg Sum.inl (Option.some.inj same)⟩
    subst isState
    refine ⟨?_, fun next isNext => ?_, fun other held _ isHeld => warned other held isHeld⟩
    · cases call with
      | record key asserted =>
        cases key with
        | none =>
          simp only [assertAct, onward_fst, acceptsCounter, List.append_nil]
          exact climbing
        | some key =>
          simp only [RecordsOverRead, found] at permitted
          simp only [assertAct, onward_fst]
          exact climbing.record fs known permitted
      | take | user | handle | keys =>
        simp only [acceptsCounter, List.append_nil]
        exact climbing.of_keys (assertAct_keys _ _ fun _ _ => AssertCall.noConfusion)
    · obtain ⟨call, isCall, rfl⟩ := Option.map_eq_some_iff.mp isNext
      exact assertAct_warned warns climbing.credentials known (goes call isCall)
  environment pl chg sh climbing warned _ moved := by
    obtain ⟨state, isMove, rfl⟩ := Program.recorded_environment moved
    cases isMove
    exact ⟨climbing.of_keys rfl, fun slot held isHeld => warned slot held isHeld⟩

end Counters

/-- No assertion is in flight and none was accepted. -/
def unasserted (d : Data) : Pool (Recorded Data (KeyID × Nat)) (Tagged Unit AssertCall) where
  shared := ⟨d, []⟩
  flows _ := none

/-- Where every counter is recorded over the one that was read, and zero only over zero, nonzero
accepted counters of a key are distinct, and from any state on no stored counter falls. -/
theorem counters_climb {party : RelyingParty} (warns : party.WarnsOfClones) (actor : Actor)
    (d : Data) (unique : UniqueKey (·.credentialID) d.keys.rows)
    (pre post : List (Move (Tagged Unit AssertCall) Faults Data))
    (middle fin : Pool (Recorded Data (KeyID × Nat)) (Tagged Unit AssertCall))
    (permitted : EveryStep (assertions party actor).step RecordsOverRead (unasserted d)
      (pre ++ post))
    (reached : run (assertions party actor).step (unasserted d) pre = some middle)
    (reaches : run (assertions party actor).step middle post = some fin) :
    (fin.shared.log.Pairwise fun first later =>
      first.1 = later.1 → first.2 ≠ 0 → first.2 ≠ later.2) ∧
    ∀ old ∈ middle.shared.state.keys.rows, ∀ row ∈ fin.shared.state.keys.rows,
      row.id = old.id → old.signCount ≤ row.signCount := by
  obtain ⟨permittedBefore, permittedAfter⟩ := everyStep_append.mp permitted
  have started : Climbing [] (unasserted d).shared :=
    ⟨unique, List.Pairwise.nil, (fun _ logged => nomatch logged), fun _ none => nomatch none⟩
  obtain ⟨climbing, warned⟩ := Program.run_preserves (climbing_obligations warns)
    ⟨started, fun _ _ none => nomatch none⟩ permittedBefore reached
  have restarted : Climbing middle.shared.state.keys.rows middle.shared := by
    refine ⟨climbing.credentials, climbing.distinct, climbing.reached, ?_⟩
    intro old isOld row isRow sameID
    rw [eq_of_uniqueKey middle.shared.state.keys.unique isRow isOld sameID]
  have kept := (Program.run_preserves (climbing_obligations warns) ⟨restarted, warned⟩
    (permittedAfter middle reached) reaches).1
  exact ⟨kept.distinct, kept.grown⟩

namespace Sample

/-- The counter of a response is its length; every response is of one key. -/
def party : RelyingParty where
  ttl := 0
  beginRegistration _ _ _ _ := none
  parsesCreation _ := false
  createCredential _ _ _ _ _ := none
  beginLogin _ _ _ _ := none
  parseAssertion _ := some [1]
  validateLogin _ _ keys _ response :=
    some ⟨response.length, false,
      response.length != 0 && keys.any fun key => key.credentialID == [1]
        && decide (response.length ≤ key.signCount)⟩

theorem party_warnsOfClones : party.WarnsOfClones := by
  intro acc handle keys sess response asserted key valid unique mem parsed
  cases valid
  have isID : key.credentialID = [1] := (Option.some.inj parsed).symm
  simp only [Bool.and_eq_true, bne_iff_ne, ne_eq, List.any_eq_true, beq_iff_eq, decide_eq_true_eq]
  refine and_congr_right fun _ => ⟨fun ⟨other, isOther, otherID, le⟩ => ?_, fun le =>
    ⟨key, mem, isID, le⟩⟩
  rwa [eq_of_uniqueKey unique mem isOther (isID.trans otherID.symm)]

def user : Actor := ⟨1, 1⟩

/-- A user with one key and pending sign-ins. -/
def pending : Data where
  now := 0
  tenants _ := none
  accounts _ _ := some ⟨.active, false, [], 0, none⟩
  keys := ⟨[⟨1, 1, 1, [1], [], [], 1, [], false, false, "key", false⟩], by simp [UniqueKey]⟩
  codes := []
  enrolments := .empty
  ceremonies _ := some ⟨⟨.signin, 1, 1, "", []⟩, none⟩
  failures := .empty
  locks := .empty

def served : Faults := fun _ _ => false

/-- A sign-in whose response carries the counter. -/
def answer (subject counter : Nat) : Tagged Unit AssertCall :=
  ⟨(), .take .signin subject (List.replicate counter 0)⟩

/-- The accesses of a call up to its last. -/
def accesses (slot : Nat) : List (Move (Tagged Unit AssertCall) Faults Data) :=
  List.replicate 4 (.act slot served)

/-- One answer after another. -/
def first : List (Move (Tagged Unit AssertCall) Faults Data) :=
  .spawn 0 (answer 1 2) :: accesses 0 ++ [.act 0 served]

def second : List (Move (Tagged Unit AssertCall) Faults Data) :=
  .spawn 0 (answer 2 3) :: accesses 0 ++ [.act 0 served]

/-- Three answers read the key before the first of them records its counter. -/
def overlapping : List (Move (Tagged Unit AssertCall) Faults Data) :=
  [.spawn 0 (answer 1 3), .spawn 1 (answer 2 2), .spawn 2 (answer 3 2)]
    ++ accesses 0 ++ accesses 1 ++ accesses 2 ++ [.act 0 served]

end Sample

theorem answers_in_turn_climb : ∃ middle fin,
      run (assertions Sample.party Sample.user).step (unasserted Sample.pending) Sample.first
        = some middle
      ∧ run (assertions Sample.party Sample.user).step middle Sample.second = some fin
      ∧ fin.shared.log = [(1, 2), (1, 3)]
      ∧ (fin.shared.log.Pairwise fun first later =>
        first.1 = later.1 → first.2 ≠ 0 → first.2 ≠ later.2)
      ∧ ∀ old ∈ middle.shared.state.keys.rows, ∀ row ∈ fin.shared.state.keys.rows,
        row.id = old.id → old.signCount ≤ row.signCount := by
  have permitted : EveryStep (assertions Sample.party Sample.user).step RecordsOverRead
      (unasserted Sample.pending) (Sample.first ++ Sample.second) := by
    iterate 5
      refine ⟨True.intro, fun _ taken => ?_⟩
      cases taken
    refine ⟨fun _ _ => by decide, fun _ taken => ?_⟩
    cases taken
    iterate 5
      refine ⟨True.intro, fun _ taken => ?_⟩
      cases taken
    refine ⟨fun _ _ => by decide, fun _ taken => ?_⟩
    cases taken
    exact True.intro
  obtain ⟨middle, fin, reached, reaches, logged⟩ : ∃ middle fin,
      run (assertions Sample.party Sample.user).step (unasserted Sample.pending) Sample.first
        = some middle
      ∧ run (assertions Sample.party Sample.user).step middle Sample.second = some fin
      ∧ fin.shared.log = [(1, 2), (1, 3)] := ⟨_, _, rfl, rfl, rfl⟩
  exact ⟨middle, fin, reached, reaches, logged, counters_climb Sample.party_warnsOfClones
    Sample.user Sample.pending (by simp [UniqueKey, Sample.pending]) _ _ _ _ permitted reached
    reaches⟩

/-- One counter is accepted twice, and the stored counter falls from 3 to 2. -/
theorem overlapping_answers_fall : ∃ middle fin,
      run (assertions Sample.party Sample.user).step (unasserted Sample.pending) Sample.overlapping
        = some middle
      ∧ run (assertions Sample.party Sample.user).step middle
        [.act 1 Sample.served, .act 2 Sample.served] = some fin
      ∧ fin.shared.log = [(1, 3), (1, 2), (1, 2)]
      ∧ middle.shared.state.keys.rows.map (·.signCount) = [3]
      ∧ fin.shared.state.keys.rows.map (·.signCount) = [2] :=
  ⟨_, _, rfl, rfl, rfl, rfl, rfl⟩

end TangraAuth.Webauthn

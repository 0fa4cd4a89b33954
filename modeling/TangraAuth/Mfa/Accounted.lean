import TangraAuth.Mfa.Steady

/-!
Contract: the second-step flag accounts for the factors of all kinds.

Owns: that a user asks for a second step exactly while a factor exists, that unused
recovery codes exist only then, that no user removes their last usable factor where the
tenant requires one, and the runs in which this holds.

Does not own: operations that overlap.
-/

namespace TangraAuth.Mfa

open Library Store Accounts
open TangraAuth.Webauthn

/-! ### The property -/

/-- A row that is there. -/
def Data.Holds (d : Data) (tid : TenantID) (uid : UserID) (property : Account → Prop) :
    Prop :=
  ∀ acc, d.accounts tid uid = some acc → property acc

/-- The flag is set exactly with a seed or a key, and unused codes exist only with the flag. -/
structure Accounted (d : Data) (tid : TenantID) (uid : UserID) : Prop where
  flag : d.Holds tid uid fun acc =>
    (acc.mfaEnabled = true ↔ acc.mfaSecretEnc ≠ [] ∨ d.userKeys tid uid ≠ [])
  codes : d.Holds tid uid fun acc =>
    d.unusedCodes tid uid ≠ [] → acc.mfaEnabled = true

def AllAccounted (d : Data) : Prop := ∀ tid uid, Accounted d tid uid

/-- The factors that can complete a sign-in of the user. -/
def Data.usableFactors (d : Data) (tid : TenantID) (uid : UserID) : Nat :=
  match d.accounts tid uid with
  | none => 0
  | some acc =>
    (if acc.mfaSecretEnc.isEmpty then 0 else 1) + usableKeys (d.userKeys tid uid)

/-- The tenant's policy requires a second factor. -/
def Data.requires (d : Data) (tid : TenantID) : Prop :=
  ∃ row pol, d.tenants tid = some row
    ∧ Tenant.parsePolicy row.policy row.kind = .ok pol ∧ pol.mfaRequired = true

/-- The user's last usable factor outlives the move, a `Disable` or a `Remove` that deletes. -/
def LeavesFactor (pre post : Data) : Operation → Prop
  | .disable a _ =>
    pre.requires a.tenantID → 1 ≤ pre.usableFactors a.tenantID a.userID →
      1 ≤ post.usableFactors a.tenantID a.userID
  | .remove a _ _ =>
    (post.userKeys a.tenantID a.userID).length < (pre.userKeys a.tenantID a.userID).length →
      pre.requires a.tenantID → 1 ≤ pre.usableFactors a.tenantID a.userID →
        1 ≤ post.usableFactors a.tenantID a.userID
  | _ => True

/-! ### Where an operation must not stop -/

/-- The user has the flag set. -/
def Data.enabled (d : Data) (a : Actor) : Bool :=
  (d.accounts a.tenantID a.userID).any (·.mfaEnabled)

/-- The user has a factor other than the key. -/
def Data.otherFactor (d : Data) (a : Actor) (id : KeyID) : Bool :=
  (d.accounts a.tenantID a.userID).any (fun acc => !acc.mfaSecretEnc.isEmpty)
    || (d.userKeys a.tenantID a.userID).any fun key => key.id != id

/-- The calls that complete the removal of a last factor. -/
def Faults.spareClear (fs : Faults) : Bool :=
  !fs .clear .setMFA && !fs .clear .replaceRecoveryCodes

/-- No call fails between the writes of one change: the first factor and its flag, the last
factor and its flag, the flag and the codes. -/
def Completes (d : Data) (move : Move) : Prop :=
  match move.operation with
  | .disable a _ =>
    ((d.userKeys a.tenantID a.userID).isEmpty = true →
      move.faults .clear .replaceRecoveryCodes = false)
  | .finishRegistration a _ _ _ =>
    d.enabled a = false → move.faults .keyAdded .user = false
      ∧ move.faults .keyAdded .listWebAuthnCredentials = false
      ∧ move.faults .keyAdded .setMFA = false
  | .remove a id _ =>
    d.otherFactor a id = false → move.faults .keyRemoved .user = false
      ∧ move.faults .keyRemoved .listWebAuthnCredentials = false
      ∧ move.faults.spareClear = true
  | _ => True

/-! ### What the writes do -/

section Writes

variable {d pre post : Data} {tid : TenantID} {uid : UserID}

theorem Quiet.length_userKeys (quiet : Quiet pre post) (tid : TenantID) (uid : UserID) :
    (post.userKeys tid uid).length = (pre.userKeys tid uid).length := by
  have lengths := congrArg List.length (quiet.keys tid uid)
  rwa [List.length_map, List.length_map] at lengths

theorem Quiet.userKeys_eq_nil (quiet : Quiet pre post) (tid : TenantID) (uid : UserID) :
    post.userKeys tid uid = [] ↔ pre.userKeys tid uid = [] := by
  rw [← List.length_eq_zero_iff, ← List.length_eq_zero_iff, quiet.length_userKeys]

theorem AllAccounted.quiet (accounted : AllAccounted pre) (quiet : Quiet pre post) :
    AllAccounted post := by
  intro tid uid
  have sameRow := quiet.accounts tid uid
  have sameKeys := quiet.userKeys_eq_nil tid uid
  obtain ⟨flag, codes⟩ := accounted tid uid
  have row : ∀ acc, post.accounts tid uid = some acc →
      ∃ old, pre.accounts tid uid = some old ∧ old.factors = acc.factors := by
    intro acc found
    rw [found] at sameRow
    exact Option.map_eq_some_iff.mp sameRow.symm
  refine ⟨?_, ?_⟩
  · intro acc found
    obtain ⟨old, oldFound, sameFactors⟩ := row acc found
    obtain ⟨sameFlag, sameSeed⟩ := Prod.mk.inj sameFactors
    rw [← sameFlag, ← sameSeed, ne_eq (post.userKeys tid uid), sameKeys]
    exact flag old oldFound
  · intro acc found held
    obtain ⟨old, oldFound, sameFactors⟩ := row acc found
    rw [← (Prod.mk.inj sameFactors).1]
    exact codes old oldFound (quiet.codes tid uid held)

/-- The flag of the user is set. -/
def Enabled (d : Data) (tid : TenantID) (uid : UserID) : Prop :=
  d.Holds tid uid fun acc => acc.mfaEnabled = true

theorem Enabled.quiet (enabled : Enabled pre tid uid) (quiet : Quiet pre post) :
    Enabled post tid uid := by
  intro acc found
  have sameRow := quiet.accounts tid uid
  rw [found] at sameRow
  obtain ⟨old, oldFound, sameFactors⟩ := Option.map_eq_some_iff.mp sameRow.symm
  rw [← (Prod.mk.inj sameFactors).1]
  exact enabled old oldFound

variable {change : Account → Account}

theorem changeAccount_self {acc : Account}
    (found : (d.changeAccount tid uid change).accounts tid uid = some acc) :
    ∃ old, d.accounts tid uid = some old ∧ change old = acc := by
  simp only [Data.changeAccount, and_self, if_true] at found
  exact Option.map_eq_some_iff.mp found

variable {tn2 : TenantID} {otherUser : UserID}

theorem changeAccount_other (other : ¬(tn2 = tid ∧ otherUser = uid)) :
    (d.changeAccount tid uid change).accounts tn2 otherUser = d.accounts tn2 otherUser := by
  simp only [Data.changeAccount, if_neg other]

theorem Accounted.changeAccount_other (other : ¬(tn2 = tid ∧ otherUser = uid))
    (accounted : Accounted d tn2 otherUser) :
    Accounted (d.changeAccount tid uid change) tn2 otherUser := by
  refine ⟨?_, ?_⟩
  · intro acc found
    rw [Mfa.changeAccount_other other] at found
    exact accounted.flag acc found
  · intro acc found
    rw [Mfa.changeAccount_other other] at found
    exact accounted.codes acc found

/-- The property for every user but one. -/
def OthersAccounted (d : Data) (tid : TenantID) (uid : UserID) : Prop :=
  ∀ tn2 otherUser, ¬(tn2 = tid ∧ otherUser = uid) → Accounted d tn2 otherUser

theorem AllAccounted.others (accounted : AllAccounted d) :
    OthersAccounted d tid uid := fun tn2 otherUser _ =>
  accounted tn2 otherUser

/-- The property for the one user left, in a state that holds it for the others. -/
theorem OthersAccounted.all (others : OthersAccounted d tid uid)
    (accounted : Accounted d tid uid) : AllAccounted d := by
  grind [AllAccounted, OthersAccounted]

theorem OthersAccounted.all_of_enabled (others : OthersAccounted d tid uid)
    (enabled : Enabled d tid uid)
    (factor : d.Holds tid uid fun acc =>
      acc.mfaSecretEnc ≠ [] ∨ d.userKeys tid uid ≠ []) : AllAccounted d := by
  refine others.all ⟨?_, ?_⟩
  · grind [Data.Holds, Enabled]
  · intro acc found _
    exact enabled acc found

theorem OthersAccounted.all_of_none (others : OthersAccounted d tid uid)
    (missing : d.accounts tid uid = none) : AllAccounted d := by
  refine others.all ⟨?_, ?_⟩ <;>
    · intro acc found
      rw [missing] at found
      cases found

variable {secretEnc : Bytes} {key : WebAuthnCredential} {table : KeyTable}

theorem OthersAccounted.setMFA (accounted : OthersAccounted d tid uid)
    (factor : secretEnc ≠ [] ∨ d.userKeys tid uid ≠ []) :
    AllAccounted (d.changeAccount tid uid (withMFA true secretEnc)) := by
  intro tn2 otherUser
  by_cases same : tn2 = tid ∧ otherUser = uid
  · obtain ⟨rfl, rfl⟩ := same
    refine ⟨?_, ?_⟩
    · grind [changeAccount_self, Data.Holds, Data.changeAccount, withMFA, Data.userKeys]
    · intro acc found _
      obtain ⟨old, -, rfl⟩ := changeAccount_self found
      rfl
  · exact (accounted tn2 otherUser same).changeAccount_other same

theorem enabled_setMFA : Enabled (d.changeAccount tid uid (withMFA true secretEnc)) tid uid := by
  intro acc found
  obtain ⟨old, -, rfl⟩ := changeAccount_self found
  rfl

theorem unusedCodes_replaceCodes_other {hashes : List String}
    (other : ¬(tn2 = tid ∧ otherUser = uid)) :
    (d.replaceCodes tid uid hashes).unusedCodes tn2 otherUser = d.unusedCodes tn2 otherUser := by
  simp only [Data.unusedCodes, Data.replaceCodes, List.filter_append, List.filter_filter]
  have fresh : (hashes.map fun hash => (⟨uid, tid, hash, false⟩ : RecoveryCode)).filter
      (fun code => ownsCode tn2 otherUser code && !code.used) = [] := by
    rw [List.filter_eq_nil_iff]
    intro code mem owned
    obtain ⟨hash, -, rfl⟩ := List.mem_map.mp mem
    simp only [ownsCode, Bool.and_eq_true, beq_iff_eq] at owned
    exact other ⟨owned.1.1.symm, owned.1.2.symm⟩
  rw [fresh, List.append_nil]
  refine List.filter_congr fun code _ => ?_
  by_cases owned : ownsCode tn2 otherUser code = true
  · have foreign : ownsCode tid uid code = false := by
      rw [Bool.eq_false_iff]
      intro both
      simp only [ownsCode, Bool.and_eq_true, beq_iff_eq] at owned both
      exact other ⟨owned.1.symm.trans both.1, owned.2.symm.trans both.2⟩
    simp [owned, foreign]
  · simp [owned]

theorem Accounted.replaceCodes_other {hashes : List String} (other : ¬(tn2 = tid ∧ otherUser = uid))
    (accounted : Accounted d tn2 otherUser) :
    Accounted (d.replaceCodes tid uid hashes) tn2 otherUser := by
  refine ⟨accounted.flag, ?_⟩
  intro acc found
  rw [unusedCodes_replaceCodes_other other]
  exact accounted.codes acc found

theorem AllAccounted.replaceCodes (accounted : AllAccounted d)
    (enabled : Enabled d tid uid) (hashes : List String) :
    AllAccounted (d.replaceCodes tid uid hashes) := by
  intro tn2 otherUser
  by_cases same : tn2 = tid ∧ otherUser = uid
  · obtain ⟨rfl, rfl⟩ := same
    exact ⟨(accounted tn2 otherUser).flag, fun acc found _ => enabled acc found⟩
  · exact (accounted tn2 otherUser).replaceCodes_other same

theorem unusedCodes_replaceCodes_nil : (d.replaceCodes tid uid []).unusedCodes tid uid = [] := by
  simp only [Data.unusedCodes, Data.replaceCodes, List.map_nil, List.append_nil, List.filter_filter]
  simp_all

theorem OthersAccounted.clear (accounted : OthersAccounted d tid uid)
    (noKeys : d.userKeys tid uid = []) :
    AllAccounted ((d.changeAccount tid uid (withMFA false [])).replaceCodes tid uid []) := by
  intro tn2 otherUser
  by_cases same : tn2 = tid ∧ otherUser = uid
  · obtain ⟨rfl, rfl⟩ := same
    refine ⟨?_, ?_⟩
    · intro acc found
      obtain ⟨old, -, rfl⟩ := changeAccount_self found
      refine ⟨fun flagged => (nomatch flagged), ?_⟩
      rintro (seeded | keyed)
      · exact absurd rfl seeded
      · exact absurd noKeys keyed
    · intro acc _ held
      exact absurd unusedCodes_replaceCodes_nil held
  · exact ((accounted tn2 otherUser same).changeAccount_other same).replaceCodes_other same

/-- Keys of one user come and go unseen by the others. -/
theorem OthersAccounted.changeKeys (accounted : OthersAccounted d tid uid)
    {ks : KeyTable}
    (sameKeys : ∀ tn2 otherUser, ¬(tn2 = tid ∧ otherUser = uid) →
      ks.rows.filter (ownsKey tn2 otherUser) = d.userKeys tn2 otherUser) :
    OthersAccounted { d with keys := ks } tid uid := by
  intro tn2 otherUser other
  have sameUser : Data.userKeys { d with keys := ks } tn2 otherUser
      = d.userKeys tn2 otherUser := sameKeys tn2 otherUser other
  refine ⟨?_, (accounted tn2 otherUser other).codes⟩
  rw [sameUser]
  exact (accounted tn2 otherUser other).flag

theorem ownsKey_iff : ownsKey tid uid key = true ↔ key.tenantID = tid ∧ key.userID = uid := by
  simp [ownsKey]

theorem filter_insert_other {free : ∀ old ∈ table.rows, old.id ≠ key.id}
    (other : ¬(tn2 = key.tenantID ∧ otherUser = key.userID)) :
    (table.insert key free).rows.filter (ownsKey tn2 otherUser)
      = table.rows.filter (ownsKey tn2 otherUser) := by
  have foreign : ¬ownsKey tn2 otherUser key = true := by
    rw [ownsKey_iff]
    exact fun same => other ⟨same.1.symm, same.2.symm⟩
  simp [KeyTable.insert, List.filter_append, foreign]

theorem filter_delete_other {deleted : WebAuthnCredential → Bool}
    (owned : ∀ key, deleted key = true → ownsKey tid uid key = true)
    (other : ¬(tn2 = tid ∧ otherUser = uid)) :
    (table.delete deleted).rows.filter (ownsKey tn2 otherUser)
      = table.rows.filter (ownsKey tn2 otherUser) := by
  simp only [KeyTable.delete, List.filter_filter]
  refine List.filter_congr fun key _ => ?_
  by_cases owns : ownsKey tn2 otherUser key = true
  · have kept : deleted key = false := by
      rw [Bool.eq_false_iff]
      intro isDeleted
      have mine := ownsKey_iff.mp (owned key isDeleted)
      have theirs := ownsKey_iff.mp owns
      exact other ⟨theirs.1.symm.trans mine.1, theirs.2.symm.trans mine.2⟩
    simp [kept]
  · simp [owns]

theorem AllAccounted.withoutFactors (accounted : AllAccounted d) (tid : TenantID)
    (uid : UserID) : AllAccounted (d.withoutFactors tid uid) := by
  have cleared : OthersAccounted ((d.changeAccount tid uid (withMFA false [])).replaceCodes
      tid uid []) tid uid := by
    intro tn2 otherUser other
    exact ((accounted tn2 otherUser).changeAccount_other other).replaceCodes_other other
  have removed := cleared.changeKeys fun tn2 otherUser other =>
    filter_delete_other (fun _ owned => owned) other
  refine removed.all ⟨?_, ?_⟩
  · intro acc found
    obtain ⟨old, -, rfl⟩ := changeAccount_self found
    refine ⟨fun flagged => (nomatch flagged), ?_⟩
    rintro (seeded | keyed)
    · exact absurd rfl seeded
    · refine absurd ?_ keyed
      simp [Data.userKeys, KeyTable.delete, List.filter_filter]
  · intro acc _ held
    exact absurd unusedCodes_replaceCodes_nil held

end Writes

end TangraAuth.Mfa

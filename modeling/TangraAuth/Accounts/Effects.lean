import TangraAuth.Accounts.Password
import TangraAuth.Accounts.Store
import TangraAuth.Library.Expiring

/-!
Contract: the shared tables and caches of the account flows, and what one call
of the store or the cache does to them.

Owns: `Shared`, the calls as `Effect`, their meaning `apply`, and the
transaction as the calls made in order.

Does not own: the session manager. A session that a sign-in creates is
recorded in `created`; revocations of sessions touch none of these tables.

`epoch` and `changed` are history: no call reads them. They record the last
password committed for a user and after which commit a call began.
-/

namespace TangraAuth.Accounts

open Library Store

/-- A token as bytes. -/
abbrev Token := List UInt8

def ipWindow : Int := 10 * minute
def accountWindow : Int := 10 * minute
def challengeTTL : Int := 5 * minute

/-- The pending second step of a sign-in. `presented` is history. -/
structure Challenge where
  tenantID : TenantID
  userID : UserID
  roles : List Slug
  operator : Bool
  policy : Tenant.Policy
  presented : Password
deriving DecidableEq

/-- The windowed counters. -/
inductive Counter where
  | signinIP (ip : Nat)
  | signinAccount (tid : Option TenantID) (email : Email)
  | failures (uid : UserID)
deriving DecidableEq, Repr

/-- A session a sign-in created. `presented` and `begun` are history. -/
structure Creation where
  tenantID : TenantID
  userID : UserID
  roles : List Slug
  amr : List String
  operator : Bool
  policy : Tenant.Policy
  presented : Password
  begun : Nat
deriving DecidableEq

structure Shared (H E : Type) where
  now : Int
  tenants : TenantID → Option Store.Tenant
  users : UserTable E
  invitations : List (Invitation H)
  recovery : List (RecoveryRequest H)
  challenges : ExpiringMap H Challenge
  counters : ExpiringMap Counter Nat
  locks : ExpiringMap UserID Unit
  created : List Creation
  epoch : Nat
  changed : TenantID → UserID → Option (Nat × Password)

/-- Why a password hash is written: a re-hash of the stored password at a sign-in, a change to
another one, or the first one of an account. Only history reads it. -/
inductive Purpose where
  | rehash
  | change (pw : Password)
  | initial

/-- One call of the store or the cache. -/
inductive Effect (H E : Type) where
  | count (counter : Counter) (window : Int)
  | refuse (uid : UserID) (pol : Tenant.Policy) (ch : Option H)
  | clearFailures (uid : UserID)
  | putChallenge (key : H) (ch : Challenge)
  | delChallenge (key : H)
  | create (creation : Creation)
  | insertUser (u : User E)
  | updateImportedUser (tid : TenantID) (uid : UserID) (email : Email)
  | deleteImportedUser (tid : TenantID) (uid : UserID)
  | updateUserStatus (tid : TenantID) (uid : UserID) (status : UserStatus)
  | setPassword (tid : TenantID) (uid : UserID) (encoded : E)
      (purpose : Purpose)
  | setMFA (tid : TenantID) (uid : UserID) (enabled : Bool)
  | resetCredentials (tid : TenantID) (uid : UserID)
  | insertInvitation (inv : Invitation H)
  | revokePendingInvitations (tid : TenantID) (email : Email)
  | markInvitationAccepted (id : InvitationID)
  | rotateInvitationToken (tid : TenantID) (id : InvitationID) (hash : H)
      (expiresAt : Int)
  | insertRecoveryRequest (req : RecoveryRequest H)
  | useRecoveryRequest (hash : H)
  | putTenant (tid : TenantID) (tn : Store.Tenant)
  | advance (duration : Nat)

variable {H E : Type}

/-- The history of a written password: a change is noted with its epoch, and a first password
starts the account's history over. -/
def Shared.note (sh : Shared H E) (tid : TenantID) (uid : UserID)
    (purpose : Purpose) : Shared H E :=
  { sh with
    epoch :=
      match purpose with
      | .rehash => sh.epoch
      | .change _ => sh.epoch + 1
      | .initial => sh.epoch
    changed := fun tn2 otherUser =>
      if tn2 = tid ∧ otherUser = uid then
        match purpose with
        | .rehash => sh.changed tn2 otherUser
        | .change pw => some (sh.epoch + 1, pw)
        | .initial => none
      else sh.changed tn2 otherUser }

/-- A refused attempt of a known account: one more failure, and at the threshold the lock. The
second step of a sign-in also drops its challenge then. -/
def Shared.refuse [DecidableEq H] (sh : Shared H E) (uid : UserID)
    (pol : Tenant.Policy) (ch : Option H) : Shared H E :=
  let counted := sh.counters.incr sh.now (.failures uid) pol.lockoutDuration
  if pol.lockoutThreshold ≤ (counted.2 : Int) then
    { sh with
      counters := counted.1
      locks := sh.locks.set sh.now uid () pol.lockoutDuration
      challenges :=
        match ch with
        | none => sh.challenges
        | some key => sh.challenges.del key }
  else { sh with counters := counted.1 }

def Shared.apply [DecidableEq H] (sh : Shared H E) : Effect H E → Shared H E
  | .count counter window =>
    { sh with counters := (sh.counters.incr sh.now counter window).1 }
  | .refuse uid pol ch => sh.refuse uid pol ch
  | .clearFailures uid =>
    { sh with counters := sh.counters.del (.failures uid) }
  | .putChallenge key ch =>
    { sh with
      challenges := sh.challenges.set sh.now key ch challengeTTL }
  | .delChallenge key => { sh with challenges := sh.challenges.del key }
  | .create creation => { sh with created := creation :: sh.created }
  | .insertUser u =>
    { sh.note u.tenantID u.id .initial with users := insertUser sh.users u }
  | .updateImportedUser tid uid email =>
    { sh with users := updateImportedUser sh.users tid uid email }
  | .deleteImportedUser tid uid =>
    { sh with users := deleteImportedUser sh.users tid uid }
  | .updateUserStatus tid uid status =>
    { sh with users := updateUserStatus sh.users tid uid status }
  | .setPassword tid uid encoded purpose =>
    { sh.note tid uid purpose with
      users := setPassword sh.users tid uid encoded }
  | .setMFA tid uid enabled =>
    { sh with users := setMFA sh.users tid uid enabled }
  | .resetCredentials tid uid =>
    { sh.note tid uid .initial with
      users := resetCredentials sh.users tid uid }
  | .insertInvitation inv =>
    { sh with invitations := sh.invitations ++ [inv] }
  | .revokePendingInvitations tid email =>
    { sh with
      invitations :=
        revokePendingInvitations sh.invitations sh.now tid email }
  | .markInvitationAccepted id =>
    { sh with
      invitations := markInvitationAccepted sh.invitations sh.now id }
  | .rotateInvitationToken tid id hash expiresAt =>
    { sh with
      invitations := rotateInvitationToken sh.invitations tid id hash expiresAt }
  | .insertRecoveryRequest req =>
    { sh with recovery := sh.recovery ++ [req] }
  | .useRecoveryRequest hash =>
    { sh with recovery := useRecoveryRequest sh.recovery sh.now hash }
  | .putTenant tid tn =>
    { sh with
      tenants := fun other => if other = tid then some tn else sh.tenants other }
  | .advance duration => { sh with now := sh.now + duration }

/-- The calls of one transaction, in order. -/
def Shared.applyAll [DecidableEq H] (sh : Shared H E) : List (Effect H E) → Shared H E
  | [] => sh
  | eff :: rest => (sh.apply eff).applyAll rest

@[simp] theorem applyAll_nil [DecidableEq H] (sh : Shared H E) : sh.applyAll [] = sh := rfl

@[simp] theorem applyAll_cons [DecidableEq H] (sh : Shared H E)
    (eff : Effect H E) (rest : List (Effect H E)) :
    sh.applyAll (eff :: rest) = (sh.apply eff).applyAll rest := rfl

theorem applyAll_preserves [DecidableEq H] {invariant : Shared H E → Prop}
    {permitted : Effect H E → Prop}
    (callPreserves : ∀ sh eff, invariant sh → permitted eff → invariant (sh.apply eff))
    {effs : List (Effect H E)} (allowed : ∀ eff ∈ effs, permitted eff)
    {sh : Shared H E} (holds : invariant sh) :
    invariant (sh.applyAll effs) := by
  induction effs generalizing sh with
  | nil => exact holds
  | cons eff rest ih =>
    grind [Shared.applyAll]

/-! ### What the calls do to users and challenges -/

/-- The user's row is active. -/
def IsActive (sh : Shared H E) (tid : TenantID) (uid : UserID) : Prop :=
  ∃ u, getUser sh.users tid uid = some u ∧ u.status = .active

theorem isActive_iff {sh : Shared H E} {tid : TenantID} {uid : UserID} :
    IsActive sh tid uid ↔ ∃ u ∈ sh.users.rows, u.tenantID = tid ∧ u.id = uid
        ∧ u.status = .active := by
  constructor
  · intro active
    obtain ⟨u, found, status⟩ := active
    have read := getUser_eq_some found
    exact ⟨u, read.1, read.2.1, read.2.2, status⟩
  grind [getUser_of_mem, IsActive]

/-- The challenge can still be completed. -/
def Pending (sh : Shared H E) (ch : Challenge) : Prop :=
  ∃ key, sh.challenges.get sh.now key = some ch

theorem pending_of_del [DecidableEq H] {sh : Shared H E} {removed key : H}
    {ch : Challenge}
    (read : (sh.challenges.del removed).get sh.now key = some ch) :
    Pending sh ch := by
  grind [ExpiringMap.get_del_of_ne, Pending, ExpiringMap.get, ExpiringMap.del]

theorem pending_of_apply [DecidableEq H] {sh : Shared H E}
    {eff : Effect H E} {ch : Challenge}
    (pending : Pending (sh.apply eff) ch) :
    Pending sh ch ∨ ∃ key, eff = .putChallenge key ch := by
  have frame : ∀ {other : Shared H E}, other.challenges = sh.challenges →
      other.now = sh.now → Pending other ch → Pending sh ch := by
    intro other challenges now alive
    unfold Pending at alive
    rw [challenges, now] at alive
    exact alive
  cases eff with
  | putChallenge written val =>
    obtain ⟨key, read⟩ := pending
    by_cases same : key = written
    · subst same
      have put : (sh.challenges.set sh.now key val challengeTTL).get sh.now key
          = some val := ExpiringMap.get_set_self _ _ _ _ (by decide)
      have isValue : val = ch := Option.some.inj (put.symm.trans read)
      exact Or.inr ⟨key, by rw [isValue]⟩
    · refine Or.inl ⟨key, ?_⟩
      exact (ExpiringMap.get_set_of_ne _ _ _ same _ _).symm.trans read
  | delChallenge removed =>
    obtain ⟨key, read⟩ := pending
    exact Or.inl (pending_of_del read)
  | refuse u pol key =>
    refine Or.inl ?_
    simp only [Shared.apply, Shared.refuse] at pending
    grind [pending_of_del, Pending]
  | advance duration =>
    obtain ⟨key, read⟩ := pending
    refine Or.inl ⟨key, ?_⟩
    exact ExpiringMap.get_of_get_later _ (by show sh.now ≤ sh.now + _; omega) read
  | _ => exact Or.inl (frame rfl rfl pending)

theorem pending_of_applyAll [DecidableEq H] {effs : List (Effect H E)}
    {sh : Shared H E} {ch : Challenge}
    (pending : Pending (sh.applyAll effs) ch) :
    Pending sh ch ∨ ∃ key, .putChallenge key ch ∈ effs := by
  induction effs generalizing sh with
  | nil => exact Or.inl pending
  | cons eff rest ih =>
    grind [pending_of_apply, Shared.applyAll]

/-- The session a call creates. -/
def Effect.creation? : Effect H E → Option Creation
  | .create creation => some creation
  | _ => none

theorem created_applyAll [DecidableEq H] (effs : List (Effect H E)) (sh : Shared H E) :
    (sh.applyAll effs).created = (effs.filterMap Effect.creation?).reverse ++ sh.created := by
  induction effs generalizing sh with
  | nil => rfl
  | cons eff rest ih =>
    rw [applyAll_cons, ih]
    cases eff with
    | create creation => simp [Effect.creation?, Shared.apply]
    | refuse u pol key =>
      simp only [Shared.apply, Shared.refuse, List.filterMap_cons, Effect.creation?]
      split_ifs <;> rfl
    | _ => rfl

theorem create_mem_of_created [DecidableEq H] {effs : List (Effect H E)}
    {sh : Shared H E} {creation : Creation}
    (created : (sh.applyAll effs).created = creation :: sh.created) :
    .create creation ∈ effs := by
  rw [created_applyAll] at created
  have only : (effs.filterMap Effect.creation?).reverse = [creation] :=
    List.append_cancel_right created
  have mem : creation ∈ effs.filterMap Effect.creation? := by
    rw [← List.mem_reverse, only]
    exact List.mem_singleton_self creation
  obtain ⟨eff, isEffect, isCreation⟩ := List.mem_filterMap.mp mem
  cases eff <;> cases isCreation
  exact isEffect

end TangraAuth.Accounts

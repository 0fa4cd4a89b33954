import TangraAuth.Accounts.Flows
import TangraAuth.Authz.Calls
import TangraAuth.Session.Spent

/-!
Contract: the break-glass reset of a user, over all the state it touches.

Owns: `resetUser` on accounts, session rows and authorization together, and for
which states of the session cache it ends the user's sessions.

Does not own: recovery codes, outbox and audit, which no modelled function reads.

Accounts, sessions and each tenant's authorization keep the rows that each of
them reads; the reset writes all of them, in one transaction up to the tuples.
-/

namespace TangraAuth.App

open Library Store
open TangraAuth.Session (Secret Ledger UsableAt Operation step)
open TangraAuth.Accounts (Email InvitationID RoleID Token)

structure State (H E : Type) where
  slugs : String → Option TenantID
  accounts : Accounts.Shared H E
  session : Session.State H
  authz : TenantID → Authz.State

variable {H E : Type} [DecidableEq H]

inductive ResetError where
  | argumentsRequired
  | tenant
  | notAllowed
  | store
  | tuplesNotRemoved
deriving DecidableEq, Repr

structure ResetResult where
  tenantID : TenantID
  userID : UserID
  roles : List Slug
  invitationID : InvitationID
deriving DecidableEq, Repr

/-- A statement of the transaction fails; the write of the tuples fails after so many requests. -/
structure ResetFaults where
  transaction : Bool
  tuples : Option Nat

/-- The id under a slug; of two roles with one slug the last listed one counts. -/
def bySlug (roles : List Authz.Role) (s : Slug) : Option RoleID :=
  (roles.reverse.find? fun r => r.slug == s).map Authz.Role.id

/-- The rows of the user's sessions are marked. Neither a mark is set nor a view evicted nor
the feed written. -/
def State.revokeRows (st : State H E) (tid : TenantID) (uid : UserID) : Session.State H :=
  { st.session with
    sessions := revokeUserSessions st.session.sessions st.session.now tid uid .adminRevoked none }

def State.withAuthz (st : State H E) (tid : TenantID) (authz : Authz.State) : State H E :=
  { st with authz := fun other => if other = tid then authz else st.authz other }

/-- What the transaction commits. -/
def State.resetRows (st : State H E) (tid : TenantID) (uid : UserID)
    (effs : List (Accounts.Effect H E)) : State H E :=
  State.withAuthz
    { st with
      accounts := st.accounts.applyAll effs
      session := st.revokeRows tid uid }
    tid
    { st.authz tid with
      mirror := (st.authz tid).mirror.updateUserStatus uid .invited }

/-- `ResetUser`. `address` is how the database compares the text of an address. -/
def State.resetUser (address : String → Email) (ht : Token → H)
    (fs : ResetFaults) (st : State H E) (tenantSlug userEmail : String)
    (invID : InvitationID) (tok : Token) :
    State H E × Except ResetError ResetResult :=
  if tenantSlug = "" ∨ userEmail = "" then (st, .error .argumentsRequired)
  else match st.slugs tenantSlug with
    | none => (st, .error .tenant)
    | some tid =>
      match Accounts.getUserByEmail st.accounts.users tid (address userEmail) with
      | none => (st, .error .notAllowed)
      | some u =>
        let m := (st.authz tid).mirror
        let roles := m.userRoleSlugs u.id
        let rids := roles.filterMap (bySlug m.roles)
        match Accounts.resetEffects ht st.accounts tid (address userEmail)
            invID tok rids with
        | none => (st, .error .notAllowed)
        | some effs =>
          if fs.transaction then (st, .error .store)
          else
            let committed := st.resetRows tid u.id effs
            -- Only an accepted user holds tuples; of any other there is nothing to remove.
            let removes :=
              Authz.resetTuples m.toTables u.id (u.status == .active)
            let written := writeWith Authz.maxTuplesPerWrite fs.tuples
              (st.authz tid).tuples [] removes
            let next := committed.withAuthz tid
              { committed.authz tid with tuples := written.2 }
            if written.1 then (next, .ok ⟨tid, u.id, roles, invID⟩)
            else (next, .error .tuplesNotRemoved)

theorem resetUser_eq_ok {address : String → Email} {ht : Token → H}
    {fs : ResetFaults} {st next : State H E} {tenantSlug userEmail : String}
    {invID : InvitationID} {tok : Token} {res : ResetResult}
    (succeeded : st.resetUser address ht fs tenantSlug userEmail invID tok = (next, .ok res)) :
    next.session = st.revokeRows res.tenantID res.userID := by
  unfold State.resetUser at succeeded
  by_cases missing : tenantSlug = "" ∨ userEmail = ""
  · rw [if_pos missing] at succeeded
    cases succeeded
  rw [if_neg missing] at succeeded
  cases s : st.slugs tenantSlug with
  | none => simp [s] at succeeded
  | some tid =>
    rw [s] at succeeded
    cases found : Accounts.getUserByEmail st.accounts.users tid (address userEmail) with
    | none => simp [found] at succeeded
    | some u =>
      simp only [found] at succeeded
      cases planned : Accounts.resetEffects ht st.accounts tid (address userEmail) invID tok
          (((st.authz tid).mirror.userRoleSlugs u.id).filterMap
            (bySlug (st.authz tid).mirror.roles)) with
      | none => simp [planned] at succeeded
      | some effs =>
        simp only [planned] at succeeded
        split_ifs at succeeded
        · cases succeeded
        · cases succeeded
          rfl
        · cases succeeded

/-! ### The sessions of the user -/

/-- The secret was issued for a session of the user. -/
def IssuedTo (sess : Session.State H) (tid : TenantID) (uid : UserID) (sec : Secret) : Prop :=
  ∃ row ∈ sess.sessions, (sec, row.id) ∈ sess.issued ∧ row.tenantID = tid ∧ row.userID = uid

omit [DecidableEq H] in
theorem revokeRows_ledger {ht : Token → H} {st : State H E}
    (lg : Ledger ht st.session) (tid : TenantID) (uid : UserID) :
    Ledger ht (st.revokeRows tid uid) :=
  lg.updateRows _ (Session.sameIdentity_revoke st.session.now .adminRevoked)

omit [DecidableEq H] in
theorem revokeRows_revoked {ht : Token → H} {st : State H E}
    (lg : Ledger ht st.session) {tid : TenantID} {uid : UserID}
    {sec : Secret} (issued : IssuedTo st.session tid uid sec) :
    ∀ row ∈ (st.revokeRows tid uid).sessions, row.secretHash = ht sec → row.revokedAt.isSome := by
  intro chg mem isHash
  obtain ⟨owner, ownerMem, ownerIssued, sameTenant, sameUser⟩ := issued
  have current := (revokeRows_ledger lg tid uid).current chg mem
  obtain ⟨held, heldIssued, heldHash⟩ := current
  have sameID : chg.id = owner.id :=
    lg.issuedOnce (held, chg.id) heldIssued (sec, owner.id) ownerIssued (heldHash.trans isHash)
  obtain ⟨row, rowMem, ⟨-, rfl⟩ | ⟨unmatched, rfl⟩⟩ := of_mem_updateWhere mem
  · rfl
  · have isOwner : chg = owner := eq_of_uniqueKey lg.ids rowMem ownerMem sameID
    subst isOwner
    cases held : chg.revokedAt with
    | none => simp [sameTenant, sameUser, held] at unmatched
    | some ins => rfl

/-- After a reset that succeeded, in whatever way the session manager runs on, no secret the
user held before resolves: exactly when no view cached under one of them is usable at the
reset or later. -/
theorem reset_ends_sessions_iff {address : String → Email} {ht : Token → H}
    {fs : ResetFaults} {st next : State H E} {tenantSlug userEmail : String}
    {invID : InvitationID} {tok : Token} {res : ResetResult}
    (lg : Ledger ht st.session)
    (succeeded : st.resetUser address ht fs tenantSlug userEmail invID tok = (next, .ok res)) :
    (∀ sec, IssuedTo st.session res.tenantID res.userID sec →
        ∀ operations fin, run (step ht) next.session operations = some fin →
          ∀ resolving a, (fin.resolve ht resolving sec).2 ≠ .ok a) ↔
      ∀ sec, IssuedTo st.session res.tenantID res.userID sec →
        ∀ e, st.session.views (ht sec) = some e →
          ∀ ins, st.session.now ≤ ins → ¬ UsableAt st.session ins e := by
  have sess := resetUser_eq_ok succeeded
  have exactly : ∀ sec, IssuedTo st.session res.tenantID res.userID sec →
      ((∀ operations fin, run (step ht) next.session operations = some fin →
          ∀ resolving a, (fin.resolve ht resolving sec).2 ≠ .ok a) ↔
        ∀ e, st.session.views (ht sec) = some e →
          ∀ ins, st.session.now ≤ ins → ¬ UsableAt st.session ins e) := by
    intro sec issued
    rw [sess]
    obtain ⟨owner, -, ownerIssued, -⟩ := id issued
    have again := Session.never_resolves_again_iff
      (revokeRows_ledger lg res.tenantID res.userID) ownerIssued
      (revokeRows_revoked lg issued)
    refine again.trans ?_
    have sameUsable := fun ins e =>
      @Session.usableAt_congr _ (st.revokeRows res.tenantID res.userID) st.session rfl ins e
    simp only [sameUsable]
    exact Iff.rfl
  constructor
  · intro ends sec issued
    exact (exactly sec issued).mp (ends sec issued)
  · intro unusable sec issued
    exact (exactly sec issued).mpr (unusable sec issued)

/-! ### A small instance

One tenant with one active user, an owner, who signs in at instant zero. -/

namespace Sample

def tenant : Store.Tenant := ⟨.customer, .active, Tenant.defaultPolicy⟩

def session : Session.State Secret :=
  Session.initial 0 (fun id => if id = 1 then some tenant else none) (fun _ _ => [])
    (fun _ _ => none)

def signin : Operation := .create Session.noFaults 1 1 [] [] 5 [9]

def idling : List Operation := [signin, .advance 3600000000000]

def authz : Authz.State where
  mirror :=
    { users := [⟨1, 1, .active⟩]
      roles := [⟨1, "owner", .builtin, false⟩]
      bindings := [(1, 1)]
      permissions := []
      groups := []
      members := []
      groupRoles := []
      catalogue := []
      integrity := by constructor <;> simp [UniqueKey] }
  tuples := {.membership .member 1, .roleAssignment "owner" 1, .membership .owner 1}

def app (sess : Session.State Secret) : State Secret (List UInt8) where
  slugs := fun s => if s = "acme" then some 1 else none
  accounts := (Accounts.Sample.pool false []).shared
  session := sess
  authz := fun _ => authz

/-- Every address is the one of the user. -/
def address (_ : String) : Email := 1

def hashToken (secret : Secret) : Secret := secret

/-- The sessions an hour after the sign-in. -/
def idle : Session.State Secret := (run (step hashToken) session idling).getD session

def reset (sess : Session.State Secret) :
    State Secret (List UInt8) × Except ResetError ResetResult :=
  (app sess).resetUser address hashToken ⟨false, none⟩ "acme" "owner@acme" 3 [4]

end Sample

/-- An hour after the sign-in the view has left the cache, and the reset ends the session. -/
theorem reset_ends_idle_session :
    run (step Sample.hashToken) Sample.session Sample.idling = some Sample.idle
      ∧ ∃ next res, Sample.reset Sample.idle = (next, .ok res)
        ∧ IssuedTo Sample.idle res.tenantID res.userID [9]
        ∧ ∀ operations fin, run (step Sample.hashToken) next.session operations = some fin →
            ∀ resolving a, (fin.resolve Sample.hashToken resolving [9]).2 ≠ .ok a := by
  have reaches : run (step Sample.hashToken) Sample.session Sample.idling = some Sample.idle :=
    rfl
  have lg : Ledger Sample.hashToken (Sample.app Sample.idle).session :=
    Session.run_preserves_ledger (Session.ledger_initial _ _ _ _) reaches
  have held : IssuedTo Sample.idle 1 1 [9] :=
    ⟨_, List.mem_singleton.mpr rfl, List.mem_singleton.mpr rfl, rfl, rfl⟩
  have succeeded : Sample.reset Sample.idle
      = ((Sample.reset Sample.idle).1, .ok ⟨1, 1, ["owner"], 3⟩) := rfl
  refine ⟨reaches, _, _, succeeded, held, ?_⟩
  refine (reset_ends_sessions_iff lg succeeded).mpr ?_ [9] held
  intro sec issued e stored ins later usable
  obtain ⟨row, mem, pair, -⟩ := issued
  obtain rfl : sec = [9] := congrArg Prod.fst (List.mem_singleton.mp pair)
  have exp : e.expires = some 3600000000000 := by
    cases stored
    rfl
  have alive := usable.1
  simp only [Entry.live, exp, decide_eq_true_eq] at alive
  have order : (3600000000000 : Int) ≤ ins := later
  omega

/-- Reset right after the sign-in: the view is still cached, and the old secret resolves. -/
theorem reset_leaves_cached_session : ∃ signedIn next res a,
      run (step Sample.hashToken) Sample.session [Sample.signin] = some signedIn
        ∧ Sample.reset signedIn = (next, .ok res)
        ∧ IssuedTo signedIn res.tenantID res.userID [9]
        ∧ (next.session.resolve Sample.hashToken Session.noFaults [9]).2 = .ok a
        ∧ a.userID = res.userID :=
  ⟨_, _, _, _, rfl, rfl,
    ⟨_, List.mem_singleton.mpr rfl, List.mem_singleton.mpr rfl, rfl, rfl⟩, rfl, rfl⟩

end TangraAuth.App

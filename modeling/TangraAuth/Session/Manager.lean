import TangraAuth.Library.Expiring
import TangraAuth.Store.Sessions

/-!
Contract: the session manager over its database rows and its cache.

Owns: the cached view, `create`, `resolve`, `renew`, `byID`, the three
revocations with their fan-out and `refreshUser`, each as a function of the
state that returns the next state and the call's result.

Does not own: the audit events, which nothing reads back, and the pub/sub
message of a mark, which no function of the manager receives. One operation
reads one instant; operations that interleave are modelled elsewhere.

A `Faults` oracle says which store calls of an operation fail. The key-value
store is the one that honours its times to live and does not fail.
-/

namespace TangraAuth.Session

open Library Store

def revocationRetention : Int := 60 * minute
def renewGrace : Int := minute
def renewMinInterval : Int := 30 * second

/-- A cookie value, as bytes; the empty one is no secret. -/
abbrev Secret := List UInt8

/-- The cached session projection. `none` stands for Go's zero instant. -/
structure View where
  id : SessionID
  tenantID : TenantID
  userID : UserID
  roles : List Slug
  amr : List String
  operator : Bool
  createdAt : Int
  lastSeen : Int
  expiresAt : Int
  idle : Int
  policyVersion : Int
  displayName : String
  avatarURL : String
  renewedAt : Option Int
  graceUntil : Option Int
deriving DecidableEq, Repr

inductive ActorKind where
  | user
  | operator
deriving DecidableEq, Repr

structure Actor where
  kind : ActorKind
  userID : UserID
  tenantID : TenantID
  sessionID : SessionID
  roles : List Slug
  amr : List String
  displayName : String
  avatarURL : String
deriving DecidableEq, Repr

def View.actor (v : View) : Actor where
  kind := if v.operator then .operator else .user
  userID := v.userID
  tenantID := v.tenantID
  sessionID := v.id
  roles := v.roles
  amr := v.amr
  displayName := v.displayName
  avatarURL := v.avatarURL

/-- The display attributes of a user row. -/
structure Profile where
  displayName : String
  avatarURL : String
deriving DecidableEq, Repr

/-- The calls of the manager's store interface, with the entropy source beside them. -/
inductive StoreCall where
  | insert
  | getByHash
  | get
  | listUser
  | touch
  | renew
  | revoke
  | revokeUser
  | revokeTenant
  | insertRevocation (subj : Subject)
  | tenant
  | roles
  | user
  | randomToken
deriving DecidableEq, Repr

/-- Which store calls of one operation are refused, without an effect. -/
abbrev Faults := StoreCall → Bool

def noFaults : Faults := fun _ => false

@[simp] theorem noFaults_apply (c : StoreCall) : noFaults c = false := rfl

inductive Failure where
  | noSession
  | notFound
  | store
  | policy (field : Tenant.PolicyField)
deriving DecidableEq, Repr

/-- The database, the key-value store and the clock. `issued` records every secret handed out
and the session it was handed out for; no operation reads it. -/
structure State (H : Type) where
  now : Int
  sessions : List (Store.Session H)
  feed : List Revocation
  tenants : TenantID → Option Store.Tenant
  roles : TenantID → UserID → List Slug
  users : TenantID → UserID → Option Profile
  views : ExpiringMap H View
  marks : ExpiringMap Subject Int
  versions : TenantID → Int
  issued : List (Secret × SessionID)

variable {H : Type} [DecidableEq H]

namespace State

/-! ### The cached view -/

/-- The time to live of a view: idle timeout, cut to the absolute expiry and to the grace. -/
def viewTTL (now : Int) (v : View) : Int :=
  let ttl := if v.expiresAt - now < v.idle then v.expiresAt - now else v.idle
  match v.graceUntil with
  | none => ttl
  | some deadline => if deadline - now < ttl then deadline - now else ttl

def putView (st : State H) (hash : H) (v : View) : State H :=
  { st with
    views :=
      if 0 < viewTTL st.now v then
        st.views.set st.now hash v (viewTTL st.now v)
      else st.views }

def getView (st : State H) (hash : H) : Option View :=
  st.views.get st.now hash

def evictView (st : State H) (hash : H) : State H :=
  { st with views := st.views.del hash }

/-- Display attributes from the user row; a missing row or a failing read leaves them. -/
def loadProfile (fs : Faults) (st : State H) (v : View) : View :=
  if fs .user then v
  else match st.users v.tenantID v.userID with
    | none => v
    | some profile =>
      { v with displayName := profile.displayName, avatarURL := profile.avatarURL }

/-- Reloads roles and profile when the tenant's version moved since the view was built. -/
def refreshIfStale (fs : Faults) (st : State H) (v : View) : View :=
  if st.versions v.tenantID = v.policyVersion then v
  else if fs .roles then v
  else
    loadProfile fs st
      { v with
        roles := st.roles v.tenantID v.userID
        policyVersion := st.versions v.tenantID }

/-- Whether the session, its user or its tenant is marked; the latter two only from a mark
not older than the session. -/
def revoked (st : State H) (v : View) : Bool :=
  (st.marks.get st.now (.session v.id)).isSome
    || [Subject.user v.userID, Subject.tenant v.tenantID].any fun key =>
      match st.marks.get st.now key with
      | none => false
      | some markedAt => decide (v.createdAt ≤ markedAt)

/-! ### Revocation -/

/-- Appends the feed row, then sets the mark. -/
def publish (fs : Faults) (st : State H) (revocation : Revocation) :
    State H × Except Failure Unit :=
  if fs (.insertRevocation revocation.subject) then (st, .error .store)
  else
    ({ st with
        feed := st.feed ++ [revocation]
        marks := st.marks.set st.now revocation.subject revocation.ts revocationRetention }, .ok ())

def revokeOne (fs : Faults) (st : State H) (tid : TenantID) (id : SessionID)
    (why : Reason) : State H × Except Failure Unit :=
  if fs .revoke then (st, .error .store)
  else
    publish fs
      { st with sessions := revokeSession st.sessions st.now tid id why }
      ⟨st.now, .session id, tid, why⟩

def expire (fs : Faults) (st : State H) (v : View) (hash : H) (why : Reason) : State H :=
  (revokeOne fs (st.evictView hash) v.tenantID v.id why).1

/-- Ends one session. -/
def revoke (fs : Faults) (st : State H) (tid : TenantID) (id : SessionID)
    (why : Reason) : State H × Except Failure Unit :=
  if fs .get then (st, .error .store)
  else match getSession st.sessions tid id with
    | none => (st, .error .notFound)
    | some row =>
      match revokeOne fs st tid id why with
      | (next, .error failure) => (next, .error failure)
      | (next, .ok ()) => (next.evictView row.secretHash, .ok ())

/-- Marks and evicts the listed sessions other than the kept one, stopping at a failure. -/
def publishOthers (fs : Faults) (tid : TenantID) (why : Reason) (keepID : SessionID) :
    State H → List (Store.Session H) → State H × Except Failure Unit
  | st, [] => (st, .ok ())
  | st, row :: rest =>
    if row.id = keepID then publishOthers fs tid why keepID st rest
    else
      match publish fs st ⟨st.now, .session row.id, tid, why⟩ with
      | (next, .error failure) => (next, .error failure)
      | (next, .ok ()) =>
        publishOthers fs tid why keepID (next.evictView row.secretHash) rest

/-- Ends every session of a user except `keepID`. -/
def revokeUser (fs : Faults) (st : State H) (tid : TenantID)
    (uid : UserID) (why : Reason) (keepID : Option SessionID) :
    State H × Except Failure Unit :=
  -- The listing comes before the rows are marked: it only returns unrevoked ones.
  if keepID.isSome && fs .listUser then (st, .error .store)
  else if fs .revokeUser then (st, .error .store)
  else
    let listed := listUserSessions st.sessions st.now tid uid
    let marked :=
      { st with
        sessions := revokeUserSessions st.sessions st.now tid uid why keepID }
    match keepID with
    | none => publish fs marked ⟨st.now, .user uid, tid, why⟩
    | some keep => publishOthers fs tid why keep marked listed

/-- Ends every session in a tenant. -/
def revokeTenant (fs : Faults) (st : State H) (tid : TenantID)
    (why : Reason) : State H × Except Failure Unit :=
  if fs .revokeTenant then (st, .error .store)
  else
    publish fs
      { st with sessions := revokeTenantSessions st.sessions st.now tid why }
      ⟨st.now, .tenant tid, tid, why⟩

/-- Evicts the cached view of every live session of a user. -/
def refreshUser (fs : Faults) (st : State H) (tid : TenantID) (uid : UserID) : State H :=
  if fs .listUser then st
  else (listUserSessions st.sessions st.now tid uid).foldl
    (fun current row => current.evictView row.secretHash) st

/-! ### Creation and resolution -/

structure CreateParams where
  tenantID : TenantID
  userID : UserID
  roles : List Slug
  amr : List String
  operator : Bool
  policy : Tenant.Policy

/-- The row of a new session. -/
def newRow (ht : Secret → H) (now : Int) (params : CreateParams) (id : SessionID)
    (sec : Secret) : Store.Session H where
  id := id
  tenantID := params.tenantID
  userID := params.userID
  secretHash := ht sec
  amr := params.amr
  createdAt := now
  lastSeen := now
  expiresAt := now + params.policy.sessionLifetime
  revokedAt := none
  revokedReason := none

/-- The view of a new session, before its profile is loaded. -/
def newView (now ver : Int) (params : CreateParams) (id : SessionID) : View where
  id := id
  tenantID := params.tenantID
  userID := params.userID
  roles := params.roles
  amr := params.amr
  operator := params.operator
  createdAt := now
  lastSeen := now
  expiresAt := now + params.policy.sessionLifetime
  idle := params.policy.idleTimeout
  policyVersion := ver
  displayName := ""
  avatarURL := ""
  renewedAt := none
  graceUntil := none

/-- Stores a session under a fresh id and a fresh secret, and caches its view. -/
def create (ht : Secret → H) (fs : Faults) (st : State H)
    (params : CreateParams) (id : SessionID) (sec : Secret) :
    State H × Except Failure Secret :=
  if fs .randomToken then (st, .error .store)
  else if fs .insert then (st, .error .store)
  else
    let stored :=
      { st with
        sessions := st.sessions ++ [newRow ht st.now params id sec]
        issued := st.issued ++ [(sec, id)] }
    let v := newView st.now (st.versions params.tenantID) params id
    (stored.putView (ht sec) (loadProfile fs stored v), .ok sec)

/-- The tenant and policy part of the liveness rules: an active tenant, a valid policy. -/
def activePolicy (fs : Faults) (st : State H) (tid : TenantID) :
    Except Failure (Store.Tenant × Tenant.Policy) :=
  if fs .tenant then .error .noSession
  else match st.tenants tid with
    | none => .error .noSession
    | some tn =>
      if tn.status ≠ .active then .error .noSession
      else match Tenant.parsePolicy tn.policy tn.kind with
        | .error field => .error (.policy field)
        | .ok pol => .ok (tn, pol)

/-- The view of a row under the tenant's current policy, before its profile is loaded. -/
def rowView (st : State H) (row : Store.Session H) (tn : Store.Tenant)
    (pol : Tenant.Policy) : View where
  id := row.id
  tenantID := row.tenantID
  userID := row.userID
  roles := st.roles row.tenantID row.userID
  amr := row.amr
  operator := decide (tn.kind = .platform)
  createdAt := row.createdAt
  lastSeen := row.lastSeen
  expiresAt := row.expiresAt
  idle := pol.idleTimeout
  policyVersion := st.versions row.tenantID
  displayName := ""
  avatarURL := ""
  renewedAt := none
  graceUntil := none

/-- The view of an unrevoked row, as `resolve` and `byID` build it from the database. -/
def viewOfRow (fs : Faults) (st : State H) (row : Store.Session H) : Except Failure View :=
  if row.revokedAt.isSome then .error .noSession
  else match activePolicy fs st row.tenantID with
    | .error failure => .error failure
    | .ok (tn, pol) =>
      if fs .roles then .error .store
      else
        .ok (loadProfile fs st (rowView st row tn pol))

/-- The checks every view passes before it yields an actor: absolute expiry, idle expiry,
marks; then the touch, at most once a minute, and the sliding of the cached view. -/
def admitView (fs : Faults) (st : State H) (hash : H) (v : View) : State H × Except Failure Actor :=
  if v.expiresAt ≤ st.now then
    (expire fs st v hash .expired, .error .noSession)
  else if st.now - v.lastSeen > v.idle then
    (expire fs st v hash .idleTimeout, .error .noSession)
  else if st.revoked v then (st.evictView hash, .error .noSession)
  else if st.now - v.lastSeen ≥ minute ∧ fs .touch = false then
    let touched :=
      { st with sessions := touchSession st.sessions st.now v.tenantID v.id }
    (touched.putView hash { v with lastSeen := st.now }, .ok v.actor)
  else (st.putView hash v, .ok v.actor)

/-- Turns a cookie secret into an actor. -/
def resolve (ht : Secret → H) (fs : Faults) (st : State H)
    (sec : Secret) : State H × Except Failure Actor :=
  if sec = [] then (st, .error .noSession)
  else match st.getView (ht sec) with
    | none =>
      if fs .getByHash then (st, .error .noSession)
      else match getSessionByHash st.sessions (ht sec) with
        | none => (st, .error .noSession)
        | some row =>
          match viewOfRow fs st row with
          | .error failure => (st, .error failure)
          | .ok v => admitView fs st (ht sec) v
    | some v =>
      -- A secret replaced by a refresh, past its grace: the session itself lives on.
      if v.graceUntil.any fun deadline => deadline ≤ st.now then
        (st.evictView (ht sec), .error .noSession)
      else admitView fs st (ht sec) (refreshIfStale fs st v)

/-- Resolves a live session by tenant and id, without touching or caching it. -/
def byID (fs : Faults) (st : State H) (tid : TenantID) (id : SessionID) : Except Failure Actor :=
  if fs .get then .error .noSession
  else match getSession st.sessions tid id with
    | none => .error .noSession
    | some row =>
      match viewOfRow fs st row with
      | .error failure => .error failure
      | .ok v =>
        if v.expiresAt ≤ st.now ∨ st.now - v.lastSeen > v.idle
            ∨ st.revoked v = true then .error .noSession
        else .ok v.actor

/-- The outcome of a refresh; no secret when the session kept its own. -/
structure Renewal where
  secret : Option Secret
  sessionID : SessionID
  expiresAt : Int
  idle : Int
deriving DecidableEq, Repr

/-- Go's zero instant. -/
def zeroInstant : Int := -62135596800 * second

/-- The view `renew` builds when the presented secret has none cached; its last-seen instant
is left zero. -/
def rebuiltView (st : State H) (a : Actor) (row : Store.Session H) (tn : Store.Tenant) : View where
  id := row.id
  tenantID := row.tenantID
  userID := row.userID
  roles := a.roles
  amr := row.amr
  operator := decide (tn.kind = .platform)
  createdAt := row.createdAt
  lastSeen := zeroInstant
  expiresAt := row.expiresAt
  idle := 0
  policyVersion := st.versions row.tenantID
  displayName := a.displayName
  avatarURL := a.avatarURL
  renewedAt := none
  graceUntil := none

/-- Whether a refresh keeps the secret: it was already replaced, or renewed moments ago. -/
def View.keepsSecret (v : View) (now : Int) : Bool :=
  v.graceUntil.isSome
    || v.renewedAt.any fun renewed => decide (now - renewed < renewMinInterval)

/-- The rotation itself: the row takes the new hash and expiry, the replaced secrets keep a
grace view, the new one gets a full view. -/
def rotate (ht : Secret → H) (fs : Faults) (st : State H)
    (row : Store.Session H) (pol : Tenant.Policy) (v : View) (sec next : Secret) :
    State H × Except Failure Renewal :=
  if fs .randomToken then (st, .error .store)
  else if fs .renew then (st, .error .noSession)
  else
    let exp := st.now + pol.sessionLifetime
    match renewSession st.sessions st.now row.tenantID row.id (ht next)
        exp with
    | none => (st, .error .noSession)
    | some sessions =>
      let grace :=
        { v with
          graceUntil := some (st.now + renewGrace), renewedAt := some st.now
          expiresAt := exp }
      let fresh :=
        { v with
          graceUntil := none, lastSeen := st.now, expiresAt := exp
          renewedAt := some st.now }
      let rotated :=
        { st with sessions := sessions, issued := st.issued ++ [(next, row.id)] }
      (((rotated.putView (ht sec) grace).putView row.secretHash grace).putView (ht next) fresh,
        .ok ⟨some next, row.id, exp, v.idle⟩)

/-- Refreshes a live session from its cookie secret. The store may fail independently in the
resolution and after it, so each part has its own oracle. -/
def renew (ht : Secret → H) (resolving fs : Faults) (st : State H)
    (sec next : Secret) : State H × Except Failure Renewal :=
  match resolve ht resolving st sec with
  | (resolved, .error failure) => (resolved, .error failure)
  | (resolved, .ok a) =>
    if fs .get then (resolved, .error .noSession)
    else match getSession resolved.sessions a.tenantID a.sessionID with
      | none => (resolved, .error .noSession)
      | some row =>
        if row.revokedAt.isSome then (resolved, .error .noSession)
        else match activePolicy fs resolved row.tenantID with
          | .error failure => (resolved, .error failure)
          | .ok (tn, pol) =>
            let cached := (resolved.getView (ht sec)).getD (rebuiltView resolved a row tn)
            let v := { cached with idle := pol.idleTimeout }
            if View.keepsSecret v resolved.now then
              (resolved, .ok ⟨none, row.id, row.expiresAt, v.idle⟩)
            else rotate ht fs resolved row pol v sec next

end State

end TangraAuth.Session

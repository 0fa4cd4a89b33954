import TangraAuth.Library.Execution
import TangraAuth.Session.Manager

/-!
Contract: the session manager as a system that takes one operation after another.

Owns: the operations, the freshness of ids and secrets as their guards, the
initial states, and what it means that an operation is a revocation that
covers a session and succeeded.

Does not own: the properties of its runs.
-/

namespace TangraAuth.Session

open Store

/-- One operation on the manager or its surroundings. `directory` is any change of tenant
statuses, roles, profiles and tenant versions; policies stay. -/
inductive Operation where
  | create (fs : Faults) (tid : TenantID) (uid : UserID) (roles : List Slug)
      (amr : List String) (id : SessionID) (sec : Secret)
  | resolve (fs : Faults) (sec : Secret)
  | renew (resolving fs : Faults) (sec next : Secret)
  | byID (fs : Faults) (tid : TenantID) (id : SessionID)
  | revoke (fs : Faults) (tid : TenantID) (id : SessionID) (why : Reason)
  | revokeUser (fs : Faults) (tid : TenantID) (uid : UserID) (why : Reason)
      (keepID : Option SessionID)
  | revokeTenant (fs : Faults) (tid : TenantID) (why : Reason)
  | refreshUser (fs : Faults) (tid : TenantID) (uid : UserID)
  | directory (status : TenantID → TenantStatus) (roles : TenantID → UserID → List Slug)
      (users : TenantID → UserID → Option Profile) (versions : TenantID → Int)
  | advance (elapsed : Nat)

variable {H : Type} [DecidableEq H]

/-- A generated secret is nonempty and its hash is no issued secret's. -/
def State.freshSecret (ht : Secret → H) (st : State H) (sec : Secret) :
    Bool :=
  sec != [] && st.issued.all fun pair => ht pair.1 != ht sec

def State.freshID (st : State H) (id : SessionID) : Bool :=
  st.sessions.all fun row => row.id != id

/-- The callers of `create` pass the tenant's parsed policy and its kind. -/
def State.createFor (ht : Secret → H) (fs : Faults) (st : State H)
    (tid : TenantID) (uid : UserID) (roles : List Slug) (amr : List String)
    (id : SessionID) (sec : Secret) : Option (State H) :=
  match st.tenants tid with
  | none => none
  | some tn =>
    match Tenant.parsePolicy tn.policy tn.kind with
    | .error _ => none
    | .ok pol =>
      some (st.create ht fs
        { tenantID := tid, userID := uid, roles := roles, amr := amr
          operator := decide (tn.kind = .platform), policy := pol } id sec).1

def State.withDirectory (st : State H) (status : TenantID → TenantStatus)
    (roles : TenantID → UserID → List Slug) (users : TenantID → UserID → Option Profile)
    (versions : TenantID → Int) : State H :=
  { st with
    tenants := fun tid =>
      (st.tenants tid).map fun tn => { tn with status := status tid }
    roles := roles, users := users, versions := versions }

def step (ht : Secret → H) (st : State H) : Operation → Option (State H)
  | .create fs tid uid roles amr id sec =>
    if st.freshID id && st.freshSecret ht sec then
      st.createFor ht fs tid uid roles amr id sec
    else none
  | .resolve fs sec => some (st.resolve ht fs sec).1
  | .renew resolving fs sec next =>
    if st.freshSecret ht next then
      some (st.renew ht resolving fs sec next).1
    else none
  | .byID _ _ _ => some st
  | .revoke fs tid id why => some (st.revoke fs tid id why).1
  | .revokeUser fs tid uid why keepID =>
    some (st.revokeUser fs tid uid why keepID).1
  | .revokeTenant fs tid why =>
    some (st.revokeTenant fs tid why).1
  | .refreshUser fs tid uid => some (st.refreshUser fs tid uid)
  | .directory status roles users versions =>
    some (st.withDirectory status roles users versions)
  | .advance elapsed => some { st with now := st.now + elapsed }

/-- A start without sessions, over the given tenants. -/
def initial (now : Int) (tns : TenantID → Option Store.Tenant)
    (roles : TenantID → UserID → List Slug) (users : TenantID → UserID → Option Profile) :
    State H where
  now := now
  sessions := []
  feed := []
  tenants := tns
  roles := roles
  users := users
  views := .empty
  marks := .empty
  versions := fun _ => 0
  issued := []

/-- The operation is a revocation that covers the session and returns no error. -/
def Revokes (st : State H) (id : SessionID) : Operation → Prop
  | .revoke fs tid target why =>
    target = id ∧ (st.revoke fs tid target why).2 = .ok ()
  | .revokeUser fs tid uid why keepID =>
    (∃ row ∈ st.sessions, row.id = id ∧ row.tenantID = tid ∧ row.userID = uid) ∧ keepID ≠ some id
      ∧ (st.revokeUser fs tid uid why keepID).2 = .ok ()
  | .revokeTenant fs tid why =>
    (∃ row ∈ st.sessions, row.id = id ∧ row.tenantID = tid)
      ∧ (st.revokeTenant fs tid why).2 = .ok ()
  | _ => False

/-- No insertion into the revocation feed fails. -/
def Faults.FeedWritable (fs : Faults) : Prop :=
  ∀ subj, fs (.insertRevocation subj) = false

/-- The oracles of the operation let every feed insertion through. -/
def Operation.FeedWritable : Operation → Prop
  | .create fs .. | .resolve fs .. | .byID fs .. | .revoke fs ..
  | .revokeUser fs .. | .revokeTenant fs .. | .refreshUser fs .. =>
    fs.FeedWritable
  | .renew resolving fs .. => resolving.FeedWritable ∧ fs.FeedWritable
  | .directory .. | .advance .. => True

end TangraAuth.Session

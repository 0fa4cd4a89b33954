import TangraAuth.Accounts.Effects
import TangraAuth.Library.Threads

/-!
Contract: sign-in, recovery, password change and user administration as calls
in flight, one store or cache call at a time, and the transactions around
them.

Owns: the points of each call between two store calls, the effect of the store
call made there, and the program over the shared tables.

Does not own: the second-factor check and the read of the roles, whose outcomes
are choices of the surroundings. Revoking the user's sessions is the last call of
a password change, a recovery and a deactivation; here it only ends the flow.
The count of a failure and the lock it may set are taken together.
-/

namespace TangraAuth.Accounts

open Library Store

def ipLimit : Nat := 60
def accountLimit : Nat := 20
def recoveryLifetime : Int := 30 * minute
def invitationLifetime : Int := 72 * hour
def resetInvitationLifetime : Int := 7 * 24 * hour

/-- The tokens that are looked up at all. -/
def plausibleToken (tok : Token) : Bool := tok != [] && tok.length ≤ 256

/-- What the surroundings decide at an action: whether the store or cache call fails, salts and
tokens, the outcome of the second-factor check, the role reads. -/
structure Choice where
  fails : Bool
  salt : Nat
  token : Token
  secondFactor : Option String
  lastOwner : Bool
  roles : List Slug

/-- `begun` is history: the epoch in which the call began. -/
structure SigninInput where
  tenantID : TenantID
  email : Email
  password : Password
  ip : Nat
  begun : Nat
deriving DecidableEq

/-- `Start`, by the store call it makes next. -/
inductive SigninFlow (E : Type) where
  | countIP (input : SigninInput)
  | lookup (input : SigninInput)
  | user (input : SigninInput) (tn : Store.Tenant)
  | countAccount (input : SigninInput) (tn : Option Store.Tenant)
      (known : Option (User E))
  | locked (input : SigninInput) (tn : Store.Tenant) (user : User E)
  | verify (input : SigninInput) (tn : Store.Tenant) (user : User E)
  | rehash (input : SigninInput) (tn : Store.Tenant) (user : User E)
  | roles (input : SigninInput) (tn : Store.Tenant) (user : User E)
  | finish (input : SigninInput) (tn : Store.Tenant) (user : User E)
      (roles : List Slug)

/-- `complete`, the second step of a sign-in. -/
inductive CompletionFlow (H : Type) where
  | pending (challengeID : Token) (begun : Nat)
  | locked (key : H) (begun : Nat) (ch : Challenge)
  | verify (key : H) (begun : Nat) (ch : Challenge)
  | consume (key : H) (begun : Nat) (ch : Challenge) (method : String)
  | clear (begun : Nat) (ch : Challenge) (method : String)
  | establish (begun : Nat) (ch : Challenge) (method : String)

/-- `Recovery.Request`. -/
inductive RequestFlow where
  | tenant (tid : TenantID) (email : Email)
  | user (tid : TenantID) (email : Email)
  | insert (tid : TenantID) (uid : UserID)

/-- `Recovery.Complete`. -/
inductive RecoveryFlow (H : Type) where
  | peek (tok : Token) (next : Password)
  | tenant (hash : H) (next : Password) (req : RecoveryRequest H)
  | use (hash : H) (next : Password) (req : RecoveryRequest H)
  | set (next : Password) (req : RecoveryRequest H)
  | revoke (req : RecoveryRequest H)

/-- `Changer.Change`. -/
inductive ChangeFlow where
  | user (tid : TenantID) (uid : UserID) (current next : Password)
  | tenant (tid : TenantID) (uid : UserID) (next : Password)
  | set (tid : TenantID) (uid : UserID) (next : Password)
  | revoke (tid : TenantID) (uid : UserID)

/-- `Deactivate` and `Reactivate`. -/
inductive AdminFlow where
  | deactivate (tid : TenantID) (uid : UserID)
  | deactivateOwner (tid : TenantID) (uid : UserID) (status : UserStatus)
  | deactivateWrite (tid : TenantID) (uid : UserID)
  | deactivateRevoke (tid : TenantID) (uid : UserID)
  | reactivate (tid : TenantID) (uid : UserID)
  | reactivateWrite (tid : TenantID) (uid : UserID)

inductive Flow (H E : Type) where
  | signin (f : SigninFlow E)
  | completion (f : CompletionFlow H)
  | request (f : RequestFlow)
  | recovery (f : RecoveryFlow H)
  | change (f : ChangeFlow)
  | admin (f : AdminFlow)

variable {H E : Type}

/-- The calls made at a point, and where the flow stands afterwards: `none` when it returned. -/
abbrev Outcome (H E : Type) (φ : Type) := List (Effect H E) × Option φ

def signinAct (hashing : Hashing E) (ht : Token → H) (sh : Shared H E) (choice : Choice) :
    SigninFlow E → Outcome H E (SigninFlow E)
  | .countIP input =>
    if choice.fails then ([], some (.lookup input))
    else
      let counted := sh.counters.incr sh.now (.signinIP input.ip) ipWindow
      ([.count (.signinIP input.ip) ipWindow],
        if counted.2 > ipLimit then none else some (.lookup input))
  | .lookup input =>
    match if choice.fails then none else sh.tenants input.tenantID with
    | none => ([], some (.countAccount input none none))
    | some tn => ([], some (.user input tn))
  | .user input tn =>
    match if choice.fails then none
      else getUserByEmail sh.users input.tenantID input.email with
    | none => ([], some (.countAccount input (some tn) none))
    | some user =>
      -- an imported account is treated as an unknown one
      if user.status = .imported then ([], some (.countAccount input (some tn) none))
      else ([], some (.countAccount input (some tn) (some user)))
  | .countAccount input tn known =>
    let counter := Counter.signinAccount (tn.map fun _ => input.tenantID) input.email
    let counted := sh.counters.incr sh.now counter accountWindow
    (if choice.fails then [] else [.count counter accountWindow],
      if choice.fails = false ∧ counted.2 > accountLimit then none
      else
        match tn, known with
        | some tn, some user => some (.locked input tn user)
        | _, _ => none)
  | .locked input tn user =>
    ([], if choice.fails = false ∧ (sh.locks.get sh.now user.id).isSome then none
      else some (.verify input tn user))
  | .verify input tn user =>
    let verdict := hashing.verify input.password user.passwordHash
    let pol := Tenant.forcedPolicy tn.policy tn.kind
    if verdict.1 = false ∨ tn.status ≠ .active ∨ user.status ≠ .active then
      (if choice.fails then [] else [.refuse user.id pol none], none)
    else
      (if choice.fails then [] else [.clearFailures user.id],
        if verdict.2 then some (.rehash input tn user) else some (.roles input tn user))
  | .rehash input tn user =>
    (if choice.fails then []
      else [.setPassword input.tenantID user.id (hashing.hash choice.salt input.password) .rehash],
      some (.roles input tn user))
  | .roles input tn user =>
    ([], if choice.fails then none else some (.finish input tn user choice.roles))
  | .finish input tn user roles =>
    let pol := Tenant.forcedPolicy tn.policy tn.kind
    let operator := decide (tn.kind = .platform)
    if choice.fails then ([], none)
    else if user.mfaEnabled then
      ([.putChallenge (ht choice.token)
        ⟨input.tenantID, user.id, roles, operator, pol, input.password⟩], none)
    else
      ([.create ⟨input.tenantID, user.id, roles, ["pwd"], operator, pol, input.password,
        input.begun⟩], none)

def completionAct [DecidableEq H] (ht : Token → H) (sh : Shared H E) (choice : Choice) :
    CompletionFlow H → Outcome H E (CompletionFlow H)
  | .pending challengeID begun =>
    match if choice.fails ∨ challengeID = [] then none
      else sh.challenges.get sh.now (ht challengeID) with
    | none => ([], none)
    | some ch => ([], some (.locked (ht challengeID) begun ch))
  | .locked key begun ch =>
    ([], if choice.fails = false ∧ (sh.locks.get sh.now ch.userID).isSome
      then none else some (.verify key begun ch))
  | .verify key begun ch =>
    match choice.secondFactor with
    | none =>
      (if choice.fails then [] else [.refuse ch.userID ch.policy (some key)], none)
    | some method => ([], some (.consume key begun ch method))
  | .consume key begun ch method =>
    (if choice.fails then [] else [.delChallenge key], some (.clear begun ch method))
  | .clear begun ch method =>
    (if choice.fails then [] else [.clearFailures ch.userID], some (.establish begun ch method))
  | .establish begun ch method =>
    (if choice.fails then [] else [.create ⟨ch.tenantID, ch.userID, ch.roles, ["pwd", method],
        ch.operator, ch.policy, ch.presented, begun⟩], none)

def requestAct (ht : Token → H) (sh : Shared H E) (choice : Choice) :
    RequestFlow → Outcome H E RequestFlow
  | .tenant tid email =>
    match if choice.fails then none else sh.tenants tid with
    | none => ([], none)
    | some tn =>
      ([], if tn.status = .active then some (.user tid email) else none)
  | .user tid email =>
    match if choice.fails then none else getUserByEmail sh.users tid email with
    | none => ([], none)
    | some user =>
      ([], if user.status = .active then some (.insert tid user.id) else none)
  | .insert tid uid =>
    (if choice.fails then [] else [.insertRecoveryRequest
        ⟨tid, uid, ht choice.token, sh.now + recoveryLifetime, none⟩], none)

def recoveryAct [DecidableEq H] (hashing : Hashing E) (ht : Token → H)
    (sh : Shared H E) (choice : Choice) :
    RecoveryFlow H → Outcome H E (RecoveryFlow H)
  | .peek tok next =>
    match if choice.fails ∨ plausibleToken tok = false then none
      else peekRecovery sh.recovery sh.now (ht tok) with
    | none => ([], none)
    | some req => ([], some (.tenant (ht tok) next req))
  | .tenant hash next req =>
    match if choice.fails then none else sh.tenants req.tenantID with
    | none => ([], none)
    | some tn =>
      if tn.status ≠ .active then ([], none)
      else
        match Tenant.parsePolicy tn.policy tn.kind with
        | .error _ => ([], none)
        | .ok pol =>
          match check pol next with
          | .error _ => ([], none)
          | .ok () => ([], some (.use hash next req))
  | .use hash next req =>
    match if choice.fails then none else peekRecovery sh.recovery sh.now hash with
    | none => ([], none)
    | some _ => ([.useRecoveryRequest hash], some (.set next req))
  | .set next req =>
    match if choice.fails then none
      else getUser sh.users req.tenantID req.userID with
    | none => ([], none)
    | some _ =>
      ([.setPassword req.tenantID req.userID (hashing.hash choice.salt next)
        (.change next)], some (.revoke req))
  | .revoke _ => ([], none)

def changeAct (hashing : Hashing E) (sh : Shared H E) (choice : Choice) :
    ChangeFlow → Outcome H E ChangeFlow
  | .user tid uid current next =>
    match if choice.fails then none else getUser sh.users tid uid with
    | none => ([], none)
    | some user =>
      ([], if (hashing.verify current user.passwordHash).1
        then some (.tenant tid uid next) else none)
  | .tenant tid uid next =>
    match if choice.fails then none else sh.tenants tid with
    | none => ([], none)
    | some tn =>
      match Tenant.parsePolicy tn.policy tn.kind with
      | .error _ => ([], none)
      | .ok pol =>
        match check pol next with
        | .error _ => ([], none)
        | .ok () => ([], some (.set tid uid next))
  | .set tid uid next =>
    match if choice.fails then none else getUser sh.users tid uid with
    | none => ([], none)
    | some _ =>
      ([.setPassword tid uid (hashing.hash choice.salt next) (.change next)],
        some (.revoke tid uid))
  | .revoke _ _ => ([], none)

def adminAct (sh : Shared H E) (choice : Choice) : AdminFlow → Outcome H E AdminFlow
  | .deactivate tid uid =>
    match if choice.fails then none else getUser sh.users tid uid with
    | none => ([], none)
    | some user =>
      ([], if user.status = .imported then none else some (.deactivateOwner tid uid user.status))
  | .deactivateOwner tid uid status =>
    ([], if choice.fails ∨ choice.lastOwner then none
      else if status = .deactivated then some (.deactivateRevoke tid uid)
      else some (.deactivateWrite tid uid))
  | .deactivateWrite tid uid =>
    match if choice.fails then none else getUser sh.users tid uid with
    | none => ([], none)
    | some _ =>
      ([.updateUserStatus tid uid .deactivated], some (.deactivateRevoke tid uid))
  | .deactivateRevoke _ _ => ([], none)
  | .reactivate tid uid =>
    match if choice.fails then none else getUser sh.users tid uid with
    | none => ([], none)
    | some user =>
      ([], if user.status = .deactivated then some (.reactivateWrite tid uid) else none)
  | .reactivateWrite tid uid =>
    (if choice.fails then [] else [.updateUserStatus tid uid .active], none)

/-- The transactions around the flows, and the clock. -/
inductive Event where
  | advance (duration : Nat)
  | resetUser (tid : TenantID) (email : Email) (invID : InvitationID)
      (tok : Token) (rids : List RoleID)
  | accept (tok : Token) (pw : Password) (salt : Nat) (nid : UserID)
  | invite (tid : TenantID) (email : Email) (invID : InvitationID) (tok : Token)
      (rids : List RoleID) (groupIDs : List GroupID)
  | activate (tid : TenantID) (uid : UserID) (invID : InvitationID)
      (tok : Token) (rids : List RoleID) (groupIDs : List GroupID)
  | resend (tid : TenantID) (invID : InvitationID) (tok : Token)
  | importUser (tid : TenantID) (uid : UserID) (email : Email)
  | refreshImported (tid : TenantID) (uid : UserID) (email : Email)
  | removeImported (tid : TenantID) (uid : UserID)
  | setMFA (tid : TenantID) (uid : UserID) (enabled : Bool)
  | createTenant (tid : TenantID)
  | suspend (tid : TenantID)
  | reactivateTenant (tid : TenantID)
  | updatePolicy (tid : TenantID) (pol : Tenant.Policy)

def freshInvitation (sh : Shared H E) (id : InvitationID) : Bool :=
  sh.invitations.all fun inv => inv.id != id

def freshUser (sh : Shared H E) (id : UserID) : Bool :=
  sh.users.rows.all fun user => user.id != id

/-- The open invitation behind a token hash, with its active tenant's policy. -/
def redeemable [DecidableEq H] (sh : Shared H E) (hash : H) :
    Option (Invitation H × Tenant.Policy) :=
  match getInvitationByTokenHash sh.invitations hash with
  | none => none
  | some inv =>
    if inv.outstanding = false ∨ inv.expiresAt ≤ sh.now then none
    else
      match sh.tenants inv.tenantID with
      | none => none
      | some tn =>
        if tn.status ≠ .active then none
        else
          match Tenant.parsePolicy tn.policy tn.kind with
          | .error _ => none
          | .ok pol => some (inv, pol)

/-- `Accept` up to its commit. -/
def acceptEffects [DecidableEq H] (hashing : Hashing E) (ht : Token → H)
    (sh : Shared H E) (tok : Token) (pw : Password) (salt : Nat)
    (nid : UserID) : Option (List (Effect H E)) :=
  if plausibleToken tok = false then none
  else
    match redeemable sh (ht tok) with
    | none => none
    | some (inv, pol) =>
      match check pol pw with
      | .error _ => none
      | .ok () =>
        let encoded := hashing.hash salt pw
        match getUserByEmail sh.users inv.tenantID inv.email with
        | none =>
          if freshUser sh nid then
            some [.insertUser ⟨nid, inv.tenantID, inv.email, .active, some encoded, false⟩,
              .markInvitationAccepted inv.id]
          else none
        | some user =>
          if user.status = .invited then
            some [.setPassword inv.tenantID user.id encoded .initial,
              .updateUserStatus inv.tenantID user.id .active,
              .markInvitationAccepted inv.id]
          else none

/-- `ResetUser` up to its commit, as far as these tables go. -/
def resetEffects (ht : Token → H) (sh : Shared H E)
    (tid : TenantID) (email : Email) (invID : InvitationID) (tok : Token)
    (rids : List RoleID) : Option (List (Effect H E)) :=
  match sh.tenants tid with
  | none => none
  | some _ =>
    match getUserByEmail sh.users tid email with
    | none => none
    | some user =>
      if resettable tid user.id user ∧ freshInvitation sh invID then
        some [.resetCredentials tid user.id, .revokePendingInvitations tid user.email,
          .insertInvitation ⟨invID, tid, user.email, rids, [],
            ht tok, sh.now + resetInvitationLifetime, none, none⟩]
      else none

/-- `invite` inside a transaction: a new invitation of the usual lifetime. -/
def newInvitation (ht : Token → H) (sh : Shared H E)
    (tid : TenantID) (email : Email) (invID : InvitationID) (tok : Token)
    (rids : List RoleID) (groupIDs : List GroupID) : Effect H E :=
  .insertInvitation ⟨invID, tid, email, rids, groupIDs, ht tok,
    sh.now + invitationLifetime, none, none⟩

/-- The calls of an event, if it commits. -/
def eventEffects [DecidableEq H] (hashing : Hashing E) (ht : Token → H)
    (sh : Shared H E) : Event → Option (List (Effect H E))
  | .advance duration => some [.advance duration]
  | .resetUser tid email invID tok rids =>
    resetEffects ht sh tid email invID tok rids
  | .accept tok pw salt nid =>
    acceptEffects hashing ht sh tok pw salt nid
  | .invite tid email invID tok rids groupIDs =>
    if freshInvitation sh invID then
      match getUserByEmail sh.users tid email with
      | none =>
        some [newInvitation ht sh tid email invID tok rids groupIDs]
      | some user =>
        match user.status with
        | .imported =>
          some [newInvitation ht sh tid user.email invID tok rids groupIDs,
            .updateUserStatus tid user.id .invited]
        | .invited =>
          some [newInvitation ht sh tid email invID tok rids groupIDs]
        -- an existing account: refused, nothing written
        | .active | .deactivated => some []
    else none
  | .activate tid uid invID tok rids groupIDs =>
    if freshInvitation sh invID then
      match getUser sh.users tid uid with
      | none => none
      | some user =>
        if user.status = .imported then
          some [newInvitation ht sh tid user.email invID tok rids groupIDs,
            .updateUserStatus tid user.id .invited]
        else none
    else none
  | .resend tid invID tok =>
    match sh.invitations.find? fun inv =>
        inv.tenantID == tid && inv.id == invID with
    | none => none
    | some inv =>
      if inv.outstanding then
        some [.rotateInvitationToken tid invID (ht tok) (sh.now + invitationLifetime)]
      else none
  | .importUser tid uid email =>
    if freshUser sh uid ∧ (getUserByEmail sh.users tid email).isNone then
      some [.insertUser ⟨uid, tid, email, .imported, none, false⟩]
    else none
  | .refreshImported tid uid email =>
    if (getUserByEmail sh.users tid email).isNone then
      some [.updateImportedUser tid uid email]
    else none
  | .removeImported tid uid => some [.deleteImportedUser tid uid]
  | .setMFA tid uid enabled => some [.setMFA tid uid enabled]
  | .createTenant tid =>
    match sh.tenants tid with
    | none => some [.putTenant tid ⟨.customer, .active, Tenant.defaultPolicy⟩]
    | some _ => none
  | .suspend tid =>
    match sh.tenants tid with
    | none => none
    | some tn =>
      if tn.kind = .platform then none
      else some [.putTenant tid { tn with status := .suspended }]
  | .reactivateTenant tid =>
    match sh.tenants tid with
    | none => none
    | some tn => some [.putTenant tid { tn with status := .active }]
  | .updatePolicy tid pol =>
    match sh.tenants tid with
    | none => none
    | some tn =>
      match Tenant.parsePolicy pol tn.kind with
      | .error _ => none
      | .ok accepted => some [.putTenant tid { tn with policy := accepted }]

/-- Where calls begin. A sign-in step notes the epoch it begins in. -/
def starts (sh : Shared H E) : Flow H E → Bool
  | .signin (.countIP input) => input.begun == sh.epoch
  | .completion (.pending _ begun) => begun == sh.epoch
  | .request (.tenant _ _) => true
  | .recovery (.peek _ _) => true
  | .change (.user _ _ _ _) => true
  | .admin (.deactivate _ _) => true
  | .admin (.reactivate _ _) => true
  | _ => false

def flowAct [DecidableEq H] (hashing : Hashing E) (ht : Token → H)
    (sh : Shared H E) (choice : Choice) :
    Flow H E → Outcome H E (Flow H E)
  | .signin f => (signinAct hashing ht sh choice f).map id (·.map .signin)
  | .completion f => (completionAct ht sh choice f).map id (·.map .completion)
  | .request f => (requestAct ht sh choice f).map id (·.map .request)
  | .recovery f => (recoveryAct hashing ht sh choice f).map id (·.map .recovery)
  | .change f => (changeAct hashing sh choice f).map id (·.map .change)
  | .admin f => (adminAct sh choice f).map id (·.map .admin)

/-- The account flows as a program over the shared tables. -/
def program [DecidableEq H] (hashing : Hashing E) (ht : Token → H) :
    Program (Shared H E) (Flow H E) Choice Event where
  entry := starts
  act sh f choice :=
    let out := flowAct hashing ht sh choice f
    some (sh.applyAll out.1, out.2)
  environment sh event :=
    (eventEffects hashing ht sh event).map sh.applyAll

/-! ### A small instance

One active tenant with the default policy, one active user, hashing that stores
the bytes. Runs of it are evaluated where a behaviour is shown on concrete input. -/

namespace Sample

def hashing (weak : Bool) : Hashing (List UInt8) where
  hashPassword _ bytes := bytes
  verifyPassword presented stored := (presented == stored, weak)

def hashToken (tok : Token) : List UInt8 := tok

def oldPassword : Password := ['o', 'l', 'd', ' ', 'p', 'a', 's', 's', 'w', 'o', 'r', 'd']
def newPassword : Password := ['n', 'e', 'w', ' ', 'p', 'a', 's', 's', 'w', 'o', 'r', 'd']

def tenant : Store.Tenant := ⟨.customer, .active, Tenant.defaultPolicy⟩

def user (mfaEnabled : Bool) : User (List UInt8) :=
  ⟨1, 1, 1, .active, some (utf8 oldPassword), mfaEnabled⟩

def users (mfaEnabled : Bool) : UserTable (List UInt8) where
  rows := [user mfaEnabled]
  unique := by simp [UniqueKey]

def pool (mfaEnabled : Bool) (recovery : List (RecoveryRequest (List UInt8))) :
    Pool (Shared (List UInt8) (List UInt8)) (Flow (List UInt8) (List UInt8)) where
  shared :=
    { now := 0
      tenants := fun id => if id = 1 then some tenant else none
      users := users mfaEnabled
      invitations := []
      recovery := recovery
      challenges := ExpiringMap.empty
      counters := ExpiringMap.empty
      locks := ExpiringMap.empty
      created := []
      epoch := 0
      changed := fun _ _ => none }
  flows := fun _ => none

/-- Nothing fails, and the second factor is right. -/
def choice : Choice := ⟨false, 0, [7], some "totp", false, []⟩

/-- A sign-in with the old password, up to the session or the challenge. -/
def signin : List (Move (Flow (List UInt8) (List UInt8)) Choice Event) :=
  .spawn 0 (.signin (.countIP ⟨1, 1, oldPassword, 4, 0⟩)) :: List.replicate 8 (.act 0 choice)

end Sample

end TangraAuth.Accounts

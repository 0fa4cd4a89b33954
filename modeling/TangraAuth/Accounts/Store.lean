import TangraAuth.Store.Sessions

/-!
Contract: the `users`, `invitations` and `recovery_requests` tables.

Owns: the rows and the statements run on them, each as a function on the list
of rows, and what each statement does to one row.

Does not own: who calls the statements and in which transaction.
-/

namespace TangraAuth.Accounts

open Library Store

/-- An address, compared as the database compares it. -/
abbrev Email := Nat

abbrev InvitationID := Nat
abbrev RoleID := Nat
abbrev GroupID := Nat

inductive UserStatus where
  | invited
  | active
  | deactivated
  | imported
deriving DecidableEq, Repr

structure User (E : Type) where
  id : UserID
  tenantID : TenantID
  email : Email
  status : UserStatus
  passwordHash : Option E
  mfaEnabled : Bool
deriving DecidableEq, Repr

structure Invitation (H : Type) where
  id : InvitationID
  tenantID : TenantID
  email : Email
  roleIDs : List RoleID
  groupIDs : List GroupID
  tokenHash : H
  expiresAt : Int
  acceptedAt : Option Int
  revokedAt : Option Int
deriving DecidableEq, Repr

structure RecoveryRequest (H : Type) where
  tenantID : TenantID
  userID : UserID
  tokenHash : H
  expiresAt : Int
  usedAt : Option Int
deriving DecidableEq, Repr

variable {H E : Type}

/-! ### Users -/

/-- The `users` table. The primary key is a field, so a table with two rows of one id cannot
be built. -/
structure UserTable (E : Type) where
  rows : List (User E)
  unique : UniqueKey User.id rows

def isUser (tid : TenantID) (id : UserID) (u : User E) : Bool :=
  u.tenantID == tid && u.id == id

def getUser (users : UserTable E) (tid : TenantID) (id : UserID) : Option (User E) :=
  users.rows.find? (isUser tid id)

def getUserByEmail (users : UserTable E) (tid : TenantID) (email : Email) : Option (User E) :=
  users.rows.find? fun u => u.tenantID == tid && u.email == email

/-- An update of the matching rows that leaves the primary key alone. -/
def UserTable.update (users : UserTable E) (matching : User E → Bool)
    (change : User E → User E) (keepsID : ∀ u, (change u).id = u.id) :
    UserTable E :=
  ⟨updateWhere matching change users.rows, uniqueKey_updateWhere keepsID users.unique⟩

/-- A taken id is a conflict, and nothing is inserted. -/
def insertUser (users : UserTable E) (u : User E) : UserTable E :=
  if fresh : ∀ old ∈ users.rows, old.id ≠ u.id then
    ⟨users.rows ++ [u], uniqueKey_append_singleton users.unique fresh⟩
  else users

def updateUserStatus (users : UserTable E) (tid : TenantID) (id : UserID)
    (status : UserStatus) : UserTable E :=
  users.update (isUser tid id) (fun u => { u with status := status }) fun _ => rfl

/-- The stored hash becomes `encoded`, and an invited user becomes active. -/
def withPassword (encoded : E) (u : User E) : User E :=
  { u with
    passwordHash := some encoded
    status := if u.status = .invited then .active else u.status }

def setPassword (users : UserTable E) (tid : TenantID) (id : UserID) (encoded : E) : UserTable E :=
  users.update (isUser tid id) (withPassword encoded) fun _ => rfl

def setMFA (users : UserTable E) (tid : TenantID) (id : UserID) (enabled : Bool) : UserTable E :=
  users.update (isUser tid id) (fun u => { u with mfaEnabled := enabled }) fun _ => rfl

/-- The users a break-glass reset accepts. -/
def resettable (tid : TenantID) (id : UserID) (u : User E) : Bool :=
  isUser tid id u && (u.status == .active || u.status == .invited)

/-- Credentials cleared and back to invited. -/
def withoutCredentials (u : User E) : User E :=
  { u with passwordHash := none, mfaEnabled := false, status := .invited }

def resetCredentials (users : UserTable E) (tid : TenantID) (id : UserID) : UserTable E :=
  users.update (resettable tid id) withoutCredentials fun _ => rfl

/-- The rows a directory import may still touch. -/
def isImported (tid : TenantID) (id : UserID) (u : User E) : Bool :=
  isUser tid id u && u.status == .imported

def updateImportedUser (users : UserTable E) (tid : TenantID) (id : UserID)
    (email : Email) : UserTable E :=
  users.update (isImported tid id) (fun u => { u with email := email }) fun _ => rfl

def deleteImportedUser (users : UserTable E) (tid : TenantID) (id : UserID) : UserTable E :=
  ⟨users.rows.filter fun u => !isImported tid id u, uniqueKey_filter users.unique _⟩

/-! ### Invitations -/

def getInvitationByTokenHash [DecidableEq H] (invitations : List (Invitation H))
    (hash : H) : Option (Invitation H) :=
  invitations.find? fun inv => inv.tokenHash == hash

/-- Neither accepted nor revoked. -/
def Invitation.outstanding (inv : Invitation H) : Bool :=
  inv.acceptedAt.isNone && inv.revokedAt.isNone

def revokePendingInvitations (invitations : List (Invitation H)) (now : Int)
    (tid : TenantID) (email : Email) : List (Invitation H) :=
  updateWhere (fun inv => inv.tenantID == tid && inv.email == email && inv.outstanding)
    (fun inv => { inv with revokedAt := some now }) invitations

def acceptable (now : Int) (id : InvitationID) (inv : Invitation H) : Bool :=
  inv.id == id && inv.outstanding && decide (now < inv.expiresAt)

/-- Sets the acceptance instant of an outstanding, unexpired invitation. -/
def markInvitationAccepted (invitations : List (Invitation H)) (now : Int)
    (id : InvitationID) : List (Invitation H) :=
  updateWhere (acceptable now id) (fun inv => { inv with acceptedAt := some now }) invitations

/-- A new token and expiry for an unaccepted invitation. -/
def rotateInvitationToken (invitations : List (Invitation H)) (tid : TenantID)
    (id : InvitationID) (hash : H) (expiresAt : Int) : List (Invitation H) :=
  updateWhere (fun inv => inv.tenantID == tid && inv.id == id && inv.acceptedAt.isNone)
    (fun inv => { inv with tokenHash := hash, expiresAt := expiresAt })
    invitations

/-! ### Recovery requests -/

/-- Unused and unexpired. -/
def RecoveryRequest.open (req : RecoveryRequest H) (now : Int) : Bool :=
  req.usedAt.isNone && decide (now < req.expiresAt)

def peekRecovery [DecidableEq H] (requests : List (RecoveryRequest H)) (now : Int)
    (hash : H) : Option (RecoveryRequest H) :=
  requests.find? fun req => req.tokenHash == hash && req.open now

/-- Consumes the open request of the hash. -/
def useRecoveryRequest [DecidableEq H] (requests : List (RecoveryRequest H)) (now : Int)
    (hash : H) : List (RecoveryRequest H) :=
  updateWhere (fun req => req.tokenHash == hash && req.open now)
    (fun req => { req with usedAt := some now }) requests

/-! ### What the lookups return -/

variable {tid : TenantID} {u : User E}

theorem isUser_iff {id : UserID} : isUser tid id u = true ↔ u.tenantID = tid ∧ u.id = id := by
  simp [isUser]

variable {users : UserTable E}

theorem of_mem_insertUser {inserted : User E} (mem : u ∈ (insertUser users inserted).rows) :
    u ∈ users.rows ∨ (u = inserted ∧ ∀ old ∈ users.rows, old.id ≠ inserted.id) := by
  unfold insertUser at mem
  grind

theorem getUser_eq_some {id : UserID} (found : getUser users tid id = some u) :
    u ∈ users.rows ∧ u.tenantID = tid ∧ u.id = id := by
  have sel := List.find?_some found
  exact ⟨List.mem_of_find?_eq_some found, isUser_iff.mp sel⟩

theorem getUser_of_mem (mem : u ∈ users.rows) : getUser users u.tenantID u.id = some u := by
  have sel : isUser u.tenantID u.id u = true := isUser_iff.mpr ⟨rfl, rfl⟩
  cases found : getUser users u.tenantID u.id with
  | none =>
    have missed := List.find?_eq_none.mp found u mem
    exact absurd sel missed
  | some other =>
    have read := getUser_eq_some found
    rw [eq_of_uniqueKey users.unique read.1 mem read.2.2]

theorem getUserByEmail_eq_some {email : Email} (found : getUserByEmail users tid email = some u) :
    u ∈ users.rows ∧ u.tenantID = tid ∧ u.email = email := by
  have sel := List.find?_some found
  simp only [Bool.and_eq_true, beq_iff_eq] at sel
  exact ⟨List.mem_of_find?_eq_some found, sel⟩

end TangraAuth.Accounts

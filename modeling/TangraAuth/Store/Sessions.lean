import TangraAuth.Library.Table
import TangraAuth.Tenant.Policy

/-!
Contract: the `sessions` and `revocations` tables and the statements run on them.

Owns: the rows a session manager reads and writes, each query of the session
part of the repository layer as a function on the list of rows, and what each
statement does to one row.

Does not own: which of the statements fail; a failing statement leaves the
table as it is, and the callers decide what that means.
-/

namespace TangraAuth.Store

open TangraAuth.Library

/-! Identifiers are opaque; only their equality is ever used. -/

abbrev TenantID := Nat
abbrev UserID := Nat
abbrev SessionID := Nat

/-- A role slug. -/
abbrev Slug := String

inductive TenantStatus where
  | active
  | suspended
deriving DecidableEq, Repr

/-- A tenant row, its policy decoded. -/
structure Tenant where
  kind : Tenant.Kind
  status : TenantStatus
  policy : Tenant.Policy
deriving DecidableEq, Repr

/-- The revocation reasons, a closed vocabulary shared with the feed. -/
inductive Reason where
  | signout
  | userRevoked
  | adminRevoked
  | passwordChanged
  | userDeactivated
  | tenantSuspended
  | idleTimeout
  | expired
deriving DecidableEq, Repr

/-- What a revocation is about: its kind and subject id. -/
inductive Subject where
  | session (id : SessionID)
  | user (id : UserID)
  | tenant (id : TenantID)
deriving DecidableEq, Repr

/-- A row of the revocation feed. -/
structure Revocation where
  ts : Int
  subject : Subject
  tenantID : TenantID
  reason : Reason
deriving DecidableEq, Repr

/-- A session row. -/
structure Session (H : Type) where
  id : SessionID
  tenantID : TenantID
  userID : UserID
  secretHash : H
  amr : List String
  createdAt : Int
  lastSeen : Int
  expiresAt : Int
  revokedAt : Option Int
  revokedReason : Option Reason
deriving DecidableEq, Repr

variable {H : Type}

/-- Select by tenant and id. -/
def getSession (rs : List (Session H)) (tid : TenantID) (id : SessionID) : Option (Session H) :=
  rs.find? fun row => row.tenantID == tid && row.id == id

/-- Select by the hash of the secret. -/
def getSessionByHash [DecidableEq H] (rs : List (Session H)) (hash : H) : Option (Session H) :=
  rs.find? fun row => row.secretHash == hash

/-- The live sessions of a user: neither revoked nor past their expiry. -/
def listUserSessions (rs : List (Session H)) (now : Int) (tid : TenantID)
    (uid : UserID) : List (Session H) :=
  rs.filter fun row =>
    row.tenantID == tid && row.userID == uid && row.revokedAt.isNone && decide (now < row.expiresAt)

/-- `last_seen_at = now()`. -/
def touchSession (rs : List (Session H)) (now : Int) (tid : TenantID)
    (id : SessionID) : List (Session H) :=
  updateWhere (fun row => row.tenantID == tid && row.id == id)
    (fun row => { row with lastSeen := now }) rs

/-- The rows `renewSession` changes. -/
def renewable (tid : TenantID) (id : SessionID) (row : Session H) : Bool :=
  row.tenantID == tid && row.id == id && row.revokedAt.isNone

/-- Rotates the secret hash and moves the absolute expiry; not found without a live row. -/
def renewSession (rs : List (Session H)) (now : Int) (tid : TenantID)
    (id : SessionID) (hash : H) (expiresAt : Int) : Option (List (Session H)) :=
  if rs.any (renewable tid id) then
    some (updateWhere (renewable tid id)
      (fun row => { row with secretHash := hash, expiresAt := expiresAt, lastSeen := now }) rs)
  else none

/-- `SET revoked_at = now(), revoked_reason = …` on the unrevoked rows of a selection. -/
def revokeWhere (sel : Session H → Bool) (now : Int) (why : Reason)
    (rs : List (Session H)) : List (Session H) :=
  updateWhere (fun row => sel row && row.revokedAt.isNone)
    (fun row => { row with revokedAt := some now, revokedReason := some why }) rs

def revokeSession (rs : List (Session H)) (now : Int) (tid : TenantID)
    (id : SessionID) (why : Reason) : List (Session H) :=
  revokeWhere (fun row => row.tenantID == tid && row.id == id) now why rs

/-- All sessions of a user but `keepID`, the empty id being no session's. -/
def revokeUserSessions (rs : List (Session H)) (now : Int) (tid : TenantID)
    (uid : UserID) (why : Reason) (keepID : Option SessionID) : List (Session H) :=
  revokeWhere (fun row => row.tenantID == tid && row.userID == uid
    && decide (some row.id ≠ keepID)) now why rs

def revokeTenantSessions (rs : List (Session H)) (now : Int) (tid : TenantID)
    (why : Reason) : List (Session H) :=
  revokeWhere (fun row => row.tenantID == tid) now why rs

/-! ### What the statements do to a row -/

variable {rs : List (Session H)} {row : Session H}

theorem getSession_eq_some {tid : TenantID} {id : SessionID}
    (found : getSession rs tid id = some row) :
    row ∈ rs ∧ row.tenantID = tid ∧ row.id = id := by
  have sel := List.find?_some found
  simp only [Bool.and_eq_true, beq_iff_eq] at sel
  exact ⟨List.mem_of_find?_eq_some found, sel⟩

theorem getSessionByHash_eq_some [DecidableEq H] {hash : H}
    (found : getSessionByHash rs hash = some row) : row ∈ rs ∧ row.secretHash = hash := by
  have sel := List.find?_some found
  rw [beq_iff_eq] at sel
  exact ⟨List.mem_of_find?_eq_some found, sel⟩

theorem mem_listUserSessions {now : Int} {tid : TenantID} {uid : UserID} :
    row ∈ listUserSessions rs now tid uid ↔
      row ∈ rs ∧ row.tenantID = tid ∧ row.userID = uid ∧ row.revokedAt = none
        ∧ now < row.expiresAt := by
  simp only [listUserSessions, List.mem_filter, Bool.and_eq_true, beq_iff_eq,
    Option.isNone_iff_eq_none, decide_eq_true_eq]
  tauto

end TangraAuth.Store

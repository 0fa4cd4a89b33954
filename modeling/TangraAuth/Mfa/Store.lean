import TangraAuth.Library.Expiring
import TangraAuth.Library.Tasks
import TangraAuth.Accounts.Store

/-!
Contract: the tables and the cache entries behind the second factors.

Owns: the columns of `users` the factors use, `webauthn_credentials`, `recovery_codes`,
the pending enrolments and ceremonies, and each statement the services issue, every one a
transaction of its own that may fail.

Does not own: the order in which the services issue them.
-/

namespace TangraAuth.Mfa

open Library Store Accounts

abbrev Bytes := List UInt8
abbrev KeyID := Nat

/-- The second-factor columns of a user row. -/
structure Account where
  status : UserStatus
  mfaEnabled : Bool
  mfaSecretEnc : Bytes
  mfaLastCounter : Int
  webauthnHandle : Option Bytes
deriving DecidableEq, Repr

/-- A registered security key; `cloneFlagged` says that `clone_flagged_at` is set. -/
structure WebAuthnCredential where
  id : KeyID
  tenantID : TenantID
  userID : UserID
  credentialID : Bytes
  publicKey : Bytes
  aaguid : Bytes
  signCount : Nat
  transports : List String
  backupEligible : Bool
  backupState : Bool
  name : String
  cloneFlagged : Bool
deriving DecidableEq, Repr

structure RecoveryCode where
  userID : UserID
  tenantID : TenantID
  codeHash : String
  used : Bool
deriving DecidableEq, Repr

/-- The key rows; the id is the primary key. -/
structure KeyTable where
  rows : List WebAuthnCredential
  unique : UniqueKey (·.id) rows

theorem KeyTable.unique_nil : UniqueKey WebAuthnCredential.id [] := List.nodup_nil

/-- Ceremony purposes. -/
inductive Purpose where
  | register
  | signin
  | stepUp
deriving DecidableEq, Repr

/-- The single-use record of a pending ceremony. -/
structure Ceremony where
  purpose : Purpose
  tenantID : TenantID
  userID : UserID
  name : String
  session : Bytes
deriving DecidableEq, Repr

/-- The tables and the cache. A ceremony is stored under its purpose and a subject, the user
or the reference of a sign-in challenge. -/
structure Data where
  now : Int
  tenants : TenantID → Option Tenant
  accounts : TenantID → UserID → Option Account
  keys : KeyTable
  codes : List RecoveryCode
  enrolments : ExpiringMap UserID Bytes
  ceremonies : ExpiringMap (Purpose × Nat) Ceremony
  failures : ExpiringMap UserID Nat
  locks : ExpiringMap UserID Unit

inductive Error where
  -- the store and the cache
  | unavailable | notFound | conflict | credentialExists
  -- the authenticator app and the recovery codes
  | invalidCode | notEnrolled | required | noPending | undecryptable | hashing
  | badPolicy
  -- security keys
  | invalidName | nameTaken | keyLimit | alreadyRegistered | registrationFailed
  | assertionFailed | keyFlagged | noKeys | tooLarge | confirmationFailed | lastFactor | locked
  -- administration
  | invalidState | forbidden | resetNotAllowed
deriving DecidableEq, Repr

abbrev Work := Task Data Error

/-! ### Calls -/

/-- The function a statement is issued by. -/
inductive Site where
  | enrol | confirm | verify | disable | clear | regenerate | state | keyAdded | keyRemoved
  | beginRegistration | finishRegistration | beginAssertion | finishAssertion | remove | failed
  | resetMFA | resetUser
deriving DecidableEq, Repr

/-- The method of the store or of the cache. -/
inductive Method where
  | user | tenant | roles | setMFA | setMFACounter | replaceRecoveryCodes
  | listRecoveryCodeHashes | useRecoveryCode | webAuthnHandle | ensureWebAuthnHandle
  | listWebAuthnCredentials | insertWebAuthnCredential | deleteWebAuthnCredential
  | updateWebAuthnUse | flagWebAuthnClone | resetMFA | resetCredentials
  | get | set | del | getDel | count | lock
deriving DecidableEq, Repr

/-- The calls of one operation that the store or the cache refuses; that an answer is lost after
the commit is left out. No operation issues a method twice from one site. -/
abbrev Faults := Site → Method → Bool

/-- One call. A statement that is refused changes nothing. -/
def call {α : Type} (fs : Faults) (site : Site) (method : Method)
    (stmt : Data → Except Error (α × Data)) : Work α := fun d =>
  if fs site method then (.error .unavailable, d)
  else
    match stmt d with
    | .error error => (.error error, d)
    | .ok (val, chg) => (.ok val, chg)

/-- A call that only reads. -/
def query {α : Type} (fs : Faults) (site : Site) (method : Method)
    (v : Data → Except Error α) : Work α :=
  call fs site method fun d => (v d).map (·, d)

theorem query_state {α : Type} (fs : Faults) (site : Site) (method : Method)
    (v : Data → Except Error α) (d : Data) : (query fs site method v d).2 = d := by
  unfold query call
  split_ifs
  · rfl
  · dsimp only
    cases v d with
    | error => rfl
    | ok => rfl

/-- The caller drops the error. -/
def ignoringError {α : Type} (work : Work α) : Work (Option α) := fun d =>
  match work d with
  | (.ok val, chg) => (.ok (some val), chg)
  | (.error _, chg) => (.ok none, chg)

/-! ### Statements on users -/

section Statements

variable (fs : Faults) (site : Site) (tid : TenantID) (uid : UserID)

def user : Work Account :=
  query fs site .user fun d =>
    match d.accounts tid uid with
    | none => .error .notFound
    | some acc => .ok acc

def tenant : Work Tenant :=
  query fs site .tenant fun d =>
    match d.tenants tid with
    | none => .error .notFound
    | some tn => .ok tn

/-- The users with one row changed. -/
def Data.changeAccount (d : Data) (tid : TenantID) (uid : UserID)
    (change : Account → Account) : Data :=
  { d with
    accounts := fun tn2 otherUser =>
      if tn2 = tid ∧ otherUser = uid then
        (d.accounts tn2 otherUser).map change
      else d.accounts tn2 otherUser }

/-- An update of the row; no row is `notFound`. -/
def updateAccount (method : Method) (change : Account → Account) : Work Unit :=
  call fs site method fun d =>
    match d.accounts tid uid with
    | none => .error .notFound
    | some _ => .ok ((), d.changeAccount tid uid change)

/-- The replay counter starts over with every seed. -/
def withMFA (enabled : Bool) (secretEnc : Bytes) (acc : Account) : Account :=
  { acc with mfaEnabled := enabled, mfaSecretEnc := secretEnc, mfaLastCounter := 0 }

def setMFA (enabled : Bool) (secretEnc : Bytes) : Work Unit :=
  updateAccount fs site tid uid .setMFA (withMFA enabled secretEnc)

/-- The counter only grows; a missing row is no error. -/
def setMFACounter (counter : Int) : Work Unit :=
  call fs site .setMFACounter fun d =>
    .ok ((), d.changeAccount tid uid fun acc =>
      if acc.mfaLastCounter < counter then { acc with mfaLastCounter := counter }
      else acc)

def webAuthnHandle : Work (Option Bytes) :=
  query fs site .webAuthnHandle fun d =>
    match d.accounts tid uid with
    | none => .error .notFound
    | some acc => .ok acc.webauthnHandle

/-- The stored handle, or `candidate` from now on. -/
def ensureWebAuthnHandle (candidate : Bytes) : Work Bytes :=
  call fs site .ensureWebAuthnHandle fun d =>
    match d.accounts tid uid with
    | none => .error .notFound
    | some acc =>
      let handle := acc.webauthnHandle.getD candidate
      .ok (handle, d.changeAccount tid uid fun acc =>
        { acc with webauthnHandle := some handle })

/-! ### Recovery codes -/

def ownsCode (code : RecoveryCode) : Bool := code.tenantID == tid && code.userID == uid

/-- The codes after a replacement. -/
def Data.replaceCodes (d : Data) (tid : TenantID) (uid : UserID) (hashes : List String) : Data :=
  { d with
    codes := d.codes.filter (fun code => !ownsCode tid uid code)
      ++ hashes.map fun hash => ⟨uid, tid, hash, false⟩ }

/-- Two equal hashes of one user are refused by the primary key. -/
def replaceRecoveryCodes (hashes : List String) : Work Unit :=
  call fs site .replaceRecoveryCodes fun d =>
    if hashes.Nodup then .ok ((), d.replaceCodes tid uid hashes)
    else .error .conflict

/-- The unused codes of a user. -/
def Data.unusedCodes (d : Data) (tid : TenantID) (uid : UserID) : List RecoveryCode :=
  d.codes.filter fun code => ownsCode tid uid code && !code.used

def listRecoveryCodeHashes : Work (List String) :=
  query fs site .listRecoveryCodeHashes fun d =>
    .ok ((d.unusedCodes tid uid).map (·.codeHash))

def useRecoveryCode (hash : String) : Work Unit :=
  call fs site .useRecoveryCode fun d =>
    let matching := fun code => ownsCode tid uid code && code.codeHash == hash && !code.used
    if d.codes.any matching then
      .ok ((), { d with codes := updateWhere matching ({ · with used := true }) d.codes })
    else .error .notFound

/-! ### Security keys -/

def ownsKey (key : WebAuthnCredential) : Bool := key.tenantID == tid && key.userID == uid

/-- A user's keys, oldest first. -/
def Data.userKeys (d : Data) (tid : TenantID) (uid : UserID) : List WebAuthnCredential :=
  d.keys.rows.filter (ownsKey tid uid)

def listWebAuthnCredentials : Work (List WebAuthnCredential) :=
  query fs site .listWebAuthnCredentials fun d => .ok (d.userKeys tid uid)

/-- Why a key is refused: a taken id, a taken credential, or a name the user already uses in
some case. `lower` folds names as the index does. -/
def insertRefused (lower : String → String) (rs : List WebAuthnCredential)
    (key : WebAuthnCredential) : Option Error :=
  if rs.any fun row => row.id == key.id then some .conflict
  else if rs.any fun row => row.credentialID == key.credentialID then some .credentialExists
  else if rs.any fun row => row.userID == key.userID && lower row.name == lower key.name then
    some .conflict
  else none

theorem free_of_insertRefused_none {lower : String → String} {rs : List WebAuthnCredential}
    {key : WebAuthnCredential} (accepted : insertRefused lower rs key = none) :
    ∀ old ∈ rs, old.id ≠ key.id := by
  unfold insertRefused at accepted
  grind

/-- The keys with one more row. -/
def KeyTable.insert (table : KeyTable) (key : WebAuthnCredential)
    (free : ∀ old ∈ table.rows, old.id ≠ key.id) : KeyTable where
  rows := table.rows ++ [key]
  unique := uniqueKey_append_singleton table.unique free

/-- A user that does not exist is refused by the foreign key. -/
def insertWebAuthnCredential (lower : String → String) (key : WebAuthnCredential) : Work Unit :=
  call fs site .insertWebAuthnCredential fun d =>
    match d.accounts key.tenantID key.userID with
    | none => .error .notFound
    | some _ =>
      match refused : insertRefused lower d.keys.rows key with
      | some error => .error error
      | none =>
        .ok ((), { d with
          keys := d.keys.insert key (free_of_insertRefused_none refused) })

/-- The keys that are kept. -/
def KeyTable.delete (table : KeyTable) (deleted : WebAuthnCredential → Bool) : KeyTable where
  rows := table.rows.filter fun key => !deleted key
  unique := uniqueKey_filter table.unique _

def deleteWebAuthnCredential (id : KeyID) : Work Unit :=
  call fs site .deleteWebAuthnCredential fun d =>
    let matching := fun key => ownsKey tid uid key && key.id == id
    if d.keys.rows.any matching then
      .ok ((), { d with keys := d.keys.delete matching })
    else .error .notFound

/-- The keys with some rows changed, their ids kept. -/
def KeyTable.update (table : KeyTable) (matching : WebAuthnCredential → Bool)
    (change : WebAuthnCredential → WebAuthnCredential) (keepsID : ∀ key, (change key).id = key.id) :
    KeyTable where
  rows := updateWhere matching change table.rows
  unique := uniqueKey_updateWhere keepsID table.unique

/-- An update of one key of the tenant; no row is `notFound`. -/
def updateKey (method : Method) (id : KeyID) (change : WebAuthnCredential → WebAuthnCredential)
    (keepsID : ∀ key, (change key).id = key.id) : Work Unit :=
  call fs site method fun d =>
    let matching := fun key : WebAuthnCredential => key.tenantID == tid && key.id == id
    if d.keys.rows.any matching then
      .ok ((), { d with keys := d.keys.update matching change keepsID })
    else .error .notFound

def updateWebAuthnUse (id : KeyID) (signCount : Nat) (backupState : Bool) : Work Unit :=
  updateKey fs site tid .updateWebAuthnUse id
    (fun key => { key with signCount := signCount, backupState := backupState }) fun _ => rfl

def flagWebAuthnClone (id : KeyID) : Work Unit :=
  updateKey fs site tid .flagWebAuthnClone id
    (fun key => { key with cloneFlagged := true }) fun _ => rfl

/-! ### Resets -/

/-- Every factor of the user removed. -/
def Data.withoutFactors (d : Data) (tid : TenantID) (uid : UserID) : Data :=
  let cleared := (d.changeAccount tid uid (withMFA false [])).replaceCodes tid uid []
  { cleared with keys := cleared.keys.delete (ownsKey tid uid) }

/-- `store.ResetMFA`: the flag, the seed, the codes and the keys in one transaction. -/
def resetMFARows : Work Unit :=
  call fs site .resetMFA fun d =>
    match d.accounts tid uid with
    | none => .error .notFound
    | some _ => .ok ((), d.withoutFactors tid uid)

/-- `store.ResetCredentials` and the removal of the recovery codes, one transaction. -/
def resetCredentialRows : Work Unit :=
  call fs site .resetCredentials fun d =>
    match d.accounts tid uid with
    | none => .error .resetNotAllowed
    | some acc =>
      if acc.status = .active ∨ acc.status = .invited then
        .ok ((), (d.withoutFactors tid uid).changeAccount tid uid ({ · with status := .invited }))
      else .error .resetNotAllowed

end Statements

end TangraAuth.Mfa

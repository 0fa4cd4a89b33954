import TangraAuth.Mfa.Service

/-!
Contract: security keys as a second factor.

Owns: the registration and assertion ceremonies with their single-use records, the limits
and names of keys, clone detection, and the removal of a key behind a current factor.

Does not own: the ceremonies' cryptography. The relying party of the library is a
parameter, as is what it parses.
-/

namespace TangraAuth.Webauthn

open Library Store
open TangraAuth.Mfa

/-- What the library made of an accepted registration. -/
structure Created where
  id : Bytes
  publicKey : Bytes
  aaguid : Bytes
  signCount : Nat
  backupEligible : Bool
  backupState : Bool
  transports : List String
deriving DecidableEq, Repr

/-- What the library made of an accepted assertion. -/
structure Asserted where
  signCount : Nat
  backupState : Bool
  cloneWarning : Bool
deriving DecidableEq, Repr

/-- The relying party. The functions see the user's row, handle and keys, as the adapter gives
them; numbers stand for the challenges drawn. -/
structure RelyingParty where
  ttl : Int
  beginRegistration : Account → Bytes → List WebAuthnCredential → Nat → Option Bytes
  parsesCreation : Bytes → Bool
  createCredential :
    Account → Option Bytes → List WebAuthnCredential → Bytes → Bytes → Option Created
  beginLogin : Account → Option Bytes → List WebAuthnCredential → Nat → Option Bytes
  /-- The raw id of a parsed assertion. -/
  parseAssertion : Bytes → Option Bytes
  validateLogin : Account → Option Bytes → List WebAuthnCredential → Bytes → Bytes → Option Asserted

def maxKeys : Nat := 10
def maxNameRunes : Nat := 64
def maxResponseBytes : Nat := 64 * 1024
def minCredentialID : Nat := 16
def maxCredentialID : Nat := 1023
def maxPublicKey : Nat := 2048
def maxTransports : Nat := 8

/-- A trimmed name of 1 to 64 characters, none of them a control. -/
@[irreducible] def normalizeName (name : String) : Option String :=
  let trimmed := Library.trimSpace name
  if trimmed.isEmpty ∨ maxNameRunes < trimmed.length ∨ trimmed.toList.any Authz.isControl then none
  else some trimmed

/-- The keys that are not flagged as possibly cloned. -/
def usable (ks : List WebAuthnCredential) : List WebAuthnCredential :=
  ks.filter fun key => !key.cloneFlagged

/-- The sizes the columns hold. -/
def Created.fits (created : Created) : Bool :=
  decide (minCredentialID ≤ created.id.length) && decide (created.id.length ≤ maxCredentialID)
    && decide (created.publicKey.length ≤ maxPublicKey)
    && decide (created.transports.length ≤ maxTransports)

section Service

variable (plat : Platform) (party : RelyingParty) (fs : Faults) (actor : Actor)

/-! ### Ceremonies -/

def save (site : Site) (subj : Nat) (ceremony : Ceremony) : Work Unit :=
  call fs site .set fun d =>
    .ok ((), { d with
      ceremonies := d.ceremonies.set d.now (ceremony.purpose, subj) ceremony party.ttl })

/-- The record is consumed whether or not it is the user's. -/
def consume (site : Site) (purpose : Purpose) (subj : Nat) : Work (Option Ceremony) := do
  let taken ← ignoringError <| call fs site .getDel fun d =>
    .ok (d.ceremonies.get d.now (purpose, subj),
      { d with ceremonies := d.ceremonies.del (purpose, subj) })
  pure (taken.bind id)

/-- `take`: the pending ceremony of the user for this purpose; any mismatch is a missing one. -/
def take (site : Site) (purpose : Purpose) (subj : Nat) (missing : Error) : Work Ceremony := do
  let taken ← consume fs site purpose subj
  match taken with
  | none => Task.fail missing
  | some ceremony =>
    if ceremony.purpose = purpose ∧ ceremony.tenantID = actor.tenantID
        ∧ ceremony.userID = actor.userID then pure ceremony
    else Task.fail missing

/-! ### Registration -/

def beginRegistration (name : String) (candidate : Bytes) (random : Nat) : Work Bytes :=
  match normalizeName name with
  | none => Task.fail .invalidName
  | some name => do
      let acc ← user fs .beginRegistration actor.tenantID actor.userID
      let ks ← listWebAuthnCredentials fs .beginRegistration actor.tenantID actor.userID
      if maxKeys ≤ ks.length then Task.fail .keyLimit
      else if ks.any fun key => plat.equalFold key.name name then Task.fail .nameTaken
      else do
        let handle ← ensureWebAuthnHandle fs .beginRegistration actor.tenantID actor.userID
          candidate
        match party.beginRegistration acc handle ks random with
        | none => Task.fail .registrationFailed
        | some sess => do
            save party fs .beginRegistration actor.userID
              ⟨.register, actor.tenantID, actor.userID, name, sess⟩
            pure sess

/-- The errors of the insertion, in the service's words. -/
def insertError : Error → Error
  | .credentialExists => .alreadyRegistered
  | .conflict => .nameTaken
  | error => error

def finishRegistration (resp : Bytes) (id : KeyID) (draws : Nat → Draw) :
    Work (WebAuthnCredential × List String) := do
  let ceremony ← take fs actor .finishRegistration .register actor.userID .registrationFailed
  if maxResponseBytes < resp.length ∨ !party.parsesCreation resp then
    Task.fail .registrationFailed
  else do
    let acc ← user fs .finishRegistration actor.tenantID actor.userID
    let handle ← webAuthnHandle fs .finishRegistration actor.tenantID actor.userID
    let ks ← listWebAuthnCredentials fs .finishRegistration actor.tenantID actor.userID
    match party.createCredential acc handle ks ceremony.session resp with
    | none => Task.fail .registrationFailed
    | some created =>
      if !created.fits then Task.fail .registrationFailed
      else if maxKeys ≤ ks.length then Task.fail .keyLimit
      else do
        let row : WebAuthnCredential :=
          ⟨id, actor.tenantID, actor.userID, created.id, created.publicKey, created.aaguid,
            created.signCount, created.transports, created.backupEligible, created.backupState,
            ceremony.name, false⟩
        (insertWebAuthnCredential fs .finishRegistration plat.lower row).mapError insertError
        let codes ← keyAdded plat fs actor draws
        pure (row, codes)

/-! ### Assertion -/

def beginAssertion (purpose : Purpose) (subj random : Nat) : Work Bytes := do
  let acc ← user fs .beginAssertion actor.tenantID actor.userID
  let handle ← webAuthnHandle fs .beginAssertion actor.tenantID actor.userID
  let ks ← listWebAuthnCredentials fs .beginAssertion actor.tenantID actor.userID
  match party.beginLogin acc handle (usable ks) random with
  | none => Task.fail .noKeys
  | some sess => do
      save party fs .beginAssertion subj ⟨purpose, actor.tenantID, actor.userID, "", sess⟩
      pure sess

/-- The outcome of a valid signature: a counter that did not grow flags the key. -/
def recordAssertion (key : Option WebAuthnCredential) (asserted : Asserted) : Work Unit :=
  match key with
  | none => Task.fail .notFound
  | some key =>
    if asserted.cloneWarning then do
      flagWebAuthnClone fs .finishAssertion actor.tenantID key.id
      Task.fail .keyFlagged
    else
      updateWebAuthnUse fs .finishAssertion actor.tenantID key.id asserted.signCount
        asserted.backupState

def finishAssertion (purpose : Purpose) (subj : Nat) (resp : Bytes) : Work Unit := do
  let ceremony ← take fs actor .finishAssertion purpose subj .assertionFailed
  match if maxResponseBytes < resp.length then none else party.parseAssertion resp with
  | none => Task.fail .assertionFailed
  | some rawID => do
      let acc ← user fs .finishAssertion actor.tenantID actor.userID
      let handle ← webAuthnHandle fs .finishAssertion actor.tenantID actor.userID
      let ks ← listWebAuthnCredentials fs .finishAssertion actor.tenantID actor.userID
      let key := (ks.filter fun key => key.credentialID == rawID).getLast?
      if key.any (·.cloneFlagged) then Task.fail .keyFlagged
      else
        match party.validateLogin acc handle (usable ks) ceremony.session resp with
        | none => Task.fail .assertionFailed
        | some asserted => recordAssertion fs actor key asserted

/-! ### Removal -/

/-- A current factor: a code, or the answer to a step-up ceremony. -/
structure Confirmation where
  code : String
  credential : Bytes
deriving DecidableEq, Repr

def checkConfirmation (confirmation : Confirmation) : Work Unit :=
  if !confirmation.code.isEmpty then do
    let _ ← verify plat fs actor confirmation.code
    pure ()
  else if !confirmation.credential.isEmpty then
    finishAssertion party fs actor .stepUp actor.userID confirmation.credential
  else Task.fail .confirmationFailed

/-- The tenant's policy, or the default where it cannot be read. -/
def policyOrDefault : Work Tenant.Policy := do
  let pol ← ignoringError do
    let row ← tenant fs .failed actor.tenantID
    policyOf row
  pure (pol.getD Tenant.defaultPolicy)

/-- `failed` counts a wrong confirmation and locks the account at the threshold. -/
def failed : Work Unit := do
  let pol ← policyOrDefault fs actor
  let counted ← ignoringError <| call fs .failed .count fun d =>
    let (failures, count) := d.failures.incr d.now actor.userID pol.lockoutDuration
    .ok (count, { d with failures := failures })
  if pol.lockoutThreshold ≤ (counted.getD 0 : Nat) then do
    let _ ← ignoringError <| call fs .failed .lock fun d =>
      .ok ((), { d with
        locks := d.locks.set d.now actor.userID () pol.lockoutDuration })
    pure ()
  else pure ()

/-- The guard's error, in the service's words. -/
def guardError : Error → Error
  | .required => .lastFactor
  | error => error

/-- `Remove` deletes one of the user's keys after confirming a current factor. -/
def remove (id : KeyID) (confirmation : Confirmation) : Work Unit := do
  (guardRemoval fs actor id).mapError guardError
  let locked ← ignoringError <| query fs .remove .get fun d =>
    .ok (d.locks.get d.now actor.userID).isSome
  if locked.getD false then Task.fail .locked
  else do
    let confirmed ← ignoringError (checkConfirmation plat party fs actor confirmation)
    if confirmed.isNone then do
      failed fs actor
      Task.fail .confirmationFailed
    else do
      deleteWebAuthnCredential fs .remove actor.tenantID actor.userID id
      keyRemoved fs actor

end Service

end TangraAuth.Webauthn

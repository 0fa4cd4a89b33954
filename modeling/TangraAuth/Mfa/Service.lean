import TangraAuth.Mfa.Store
import TangraAuth.Authz.Registration

/-!
Contract: the authenticator app, the recovery codes and the state shared by all factors.

Owns: enrolment, confirmation, verification and removal of the app, the recovery codes,
and what is done when a security key comes or goes.

Does not own: one-time codes, password hashing and the cipher, which are parameters.
-/

namespace TangraAuth.Mfa

open Library Store

/-- The libraries under the services, with the text functions of Go and of the database. -/
structure Platform where
  generateCode : Bytes → Int → Option String
  /-- Opening the envelope of a user once it is long enough. -/
  openEnvelope : UserID → Bytes → Option Bytes
  /-- Sealing a secret; the number stands for the data key and the nonces. -/
  sealEnvelope : UserID → Bytes → Nat → Bytes
  verifyPassword : String → String → Bool
  hashPassword : String → Nat → Option String
  toUpper : String → String
  equalFold : String → String → Bool
  lower : String → String

/-- The user a call acts for. -/
structure Actor where
  tenantID : TenantID
  userID : UserID
deriving DecidableEq, Repr

def period : Int := 30
def skew : List Int := [-1, 0, 1]
def enrolTTL : Int := 10 * minute
def recoveryCount : Nat := 10
def recoveryAlpha : List Char := "ABCDEFGHJKLMNPQRSTUVWXYZ23456789".toList

/-- Nonce, wrapped data key, nonce and tag. -/
def minEnvelope : Nat := 12 + (32 + 16) + 12 + 16

def decrypt (plat : Platform) (uid : UserID) (blob : Bytes) : Option Bytes :=
  if blob.length < minEnvelope then none else plat.openEnvelope uid blob

/-! ### Codes -/

/-- The counter of the step within the skew whose code was given. -/
@[irreducible] def matchCode (plat : Platform) (now : Int) (sec : Bytes) (code : String) :
    Option Int :=
  let trimmed := Library.trimSpace code
  if trimmed.utf8ByteSize ≠ 6 then none
  else
    skew.findSome? fun delta =>
      let ins := now + delta * period * second
      match plat.generateCode sec ins with
      | none => none
      | some want => if want = trimmed then some (ins / second / period) else none

def isDigits (text : String) : Bool :=
  !text.isEmpty && text.toList.all fun letter => '0' ≤ letter && letter ≤ '9'

/-- The canonical form of a recovery code; `none` for the empty text of the source. -/
def normalizeRecovery (plat : Platform) (code : String) : Option String :=
  let kept := (Library.trimSpace code).toList.filter fun letter => letter ≠ '-' ∧ letter ≠ ' '
  let upper := plat.toUpper (String.ofList kept)
  if upper.utf8ByteSize ≠ 10 then none
  else if upper.toList.all (recoveryAlpha.contains ·) then some upper
  else none

/-- The randomness of one recovery code and of its hash. -/
structure Draw where
  bytes : Bytes
  salt : Nat
deriving DecidableEq, Repr

/-- Ten letters, a dash after the fifth. -/
def newRecoveryCode (bytes : Bytes) : String :=
  let letters := (bytes.take 10).map fun byte =>
    recoveryAlpha.getD (byte.toNat % recoveryAlpha.length) 'A'
  String.ofList (letters.take 5 ++ '-' :: letters.drop 5)

/-- The fresh codes, and their hashes if hashing succeeds. -/
def freshCodes (draws : Nat → Draw) : List String :=
  (List.range recoveryCount).map fun index => newRecoveryCode (draws index).bytes

def freshHashes (plat : Platform) (draws : Nat → Draw) : Option (List String) :=
  (List.range recoveryCount).mapM fun index =>
    plat.hashPassword ((normalizeRecovery plat (newRecoveryCode (draws index).bytes)).getD "")
      (draws index).salt

/-! ### The service -/

section Service

variable (plat : Platform) (fs : Faults) (a : Actor)

/-- `Enrol`: a new seed, sealed until it is confirmed. -/
def enrol (sec : Bytes) (random : Nat) : Work Unit := do
  let _ ← user fs .enrol a.tenantID a.userID
  call fs .enrol .set fun d =>
    .ok ((), { d with
      enrolments := d.enrolments.set d.now a.userID
        (plat.sealEnvelope a.userID sec random) enrolTTL })

def regenerate (draws : Nat → Draw) : Work (List String) :=
  match freshHashes plat draws with
  | none => Task.fail .hashing
  | some hashes => do
      replaceRecoveryCodes fs .regenerate a.tenantID a.userID hashes
      pure (freshCodes draws)

/-- The pending seed; an error of the cache is no pending seed either. -/
def pendingSeed : Work Bytes := do
  let pending ← ignoringError <| query fs .confirm .get fun d =>
    match d.enrolments.get d.now a.userID with
    | none => .error .notFound
    | some sealed => .ok sealed
  match pending with
  | none => Task.fail .noPending
  | some sealed => pure sealed

/-- `Confirm` activates the pending seed. -/
def confirm (code : String) (draws : Nat → Draw) : Work (List String) := do
  let sealed ← pendingSeed fs a
  match decrypt plat a.userID sealed with
  | none => Task.fail .noPending
  | some sec =>
    let now ← Task.read (·.now)
    match matchCode plat now sec code with
    | none => Task.fail .invalidCode
    | some counter =>
      let ks ← listWebAuthnCredentials fs .confirm a.tenantID a.userID
      setMFA fs .confirm a.tenantID a.userID true sealed
      setMFACounter fs .confirm a.tenantID a.userID counter
      let _ ← ignoringError <| call fs .confirm .del fun d =>
        .ok ((), { d with enrolments := d.enrolments.del a.userID })
      -- security keys came with codes of their own
      if ks.isEmpty then regenerate plat fs a draws else pure []

inductive VerifyMethod where
  | otp
  | recovery
deriving DecidableEq, Repr

def verifyOTP (acc : Account) (code : String) : Work VerifyMethod := do
  if acc.mfaSecretEnc.isEmpty then Task.fail .invalidCode
  else
    match decrypt plat a.userID acc.mfaSecretEnc with
    | none => Task.fail .undecryptable
    | some sec =>
      let now ← Task.read (·.now)
      match matchCode plat now sec code with
      | none => Task.fail .invalidCode
      | some counter =>
        if counter ≤ acc.mfaLastCounter then Task.fail .invalidCode
        else do
          setMFACounter fs .verify a.tenantID a.userID counter
          pure .otp

def verifyRecovery (code : String) : Work VerifyMethod := do
  match normalizeRecovery plat code with
  | none => Task.fail .invalidCode
  | some norm =>
    let hashes ← listRecoveryCodeHashes fs .verify a.tenantID a.userID
    match hashes.find? (plat.verifyPassword norm) with
    | none => Task.fail .invalidCode
    | some hash => do
        (useRecoveryCode fs .verify a.tenantID a.userID hash).mapError fun _ => .invalidCode
        pure .recovery

/-- Digits are a one-time code, anything else is a recovery code. -/
@[irreducible] def verifyTrimmed (acc : Account) (trimmed : String) : Work VerifyMethod :=
  if isDigits trimmed then verifyOTP plat fs a acc trimmed
  else verifyRecovery plat fs a trimmed

/-- `Verify` a one-time or recovery code. -/
def verify (code : String) : Work VerifyMethod := do
  let acc ← (user fs .verify a.tenantID a.userID).mapError fun _ => .invalidCode
  if acc.mfaEnabled then verifyTrimmed plat fs a acc (Library.trimSpace code)
  else Task.fail .notEnrolled

/-- `clear` turns the second step off and drops the unused codes. -/
def clear : Work Unit := do
  setMFA fs .clear a.tenantID a.userID false []
  replaceRecoveryCodes fs .clear a.tenantID a.userID []

def usableKeys (ks : List WebAuthnCredential) : Nat :=
  (ks.filter fun key => !key.cloneFlagged).length

/-- The tenant's policy, as it was parsed. -/
def policyOf (row : Tenant) : Work Tenant.Policy :=
  match Tenant.parsePolicy row.policy row.kind with
  | .error _ => Task.fail .badPolicy
  | .ok pol => pure pol

/-- `Disable` turns the authenticator app off. -/
def disable (code : String) : Work Unit := do
  let row ← tenant fs .disable a.tenantID
  let pol ← policyOf row
  let ks ← listWebAuthnCredentials fs .disable a.tenantID a.userID
  if pol.mfaRequired ∧ usableKeys ks = 0 then Task.fail .required
  else do
    let _ ← verify plat fs a code
    if ks.isEmpty then clear fs a
    else setMFA fs .disable a.tenantID a.userID true []

/-- `Regenerate` replaces the recovery codes after a valid code. -/
def regenerateCodes (code : String) (draws : Nat → Draw) : Work (List String) := do
  let _ ← verify plat fs a code
  regenerate plat fs a draws

/-! ### Factors of all kinds -/

/-- A user's second-factor methods. -/
structure State where
  enabled : Bool
  totp : Bool
  keys : List WebAuthnCredential
  recoveryCodesLeft : Nat
  required : Bool

/-- The factors that can complete a sign-in. -/
def State.usable (state : State) : Nat :=
  (if state.totp then 1 else 0) + usableKeys state.keys

def state : Work State := do
  let acc ← user fs .state a.tenantID a.userID
  let row ← tenant fs .state a.tenantID
  let pol ← policyOf row
  let ks ← listWebAuthnCredentials fs .state a.tenantID a.userID
  let codes ← listRecoveryCodeHashes fs .state a.tenantID a.userID
  pure ⟨acc.mfaEnabled, !acc.mfaSecretEnc.isEmpty, ks, codes.length, pol.mfaRequired⟩

/-- The flag, with the seed as it was read. -/
def ensureFlag (acc : Account) : Work Unit :=
  if acc.mfaEnabled then pure ()
  else setMFA fs .keyAdded a.tenantID a.userID true acc.mfaSecretEnc

/-- `KeyAdded` runs after a key was stored. -/
def keyAdded (draws : Nat → Draw) : Work (List String) := do
  let acc ← user fs .keyAdded a.tenantID a.userID
  let ks ← listWebAuthnCredentials fs .keyAdded a.tenantID a.userID
  ensureFlag fs a acc
  if !acc.mfaSecretEnc.isEmpty ∨ 1 < ks.length then pure []
  else regenerate plat fs a draws

/-- `KeyRemoved` runs after a key was deleted. -/
def keyRemoved : Work Unit := do
  let acc ← user fs .keyRemoved a.tenantID a.userID
  let ks ← listWebAuthnCredentials fs .keyRemoved a.tenantID a.userID
  if !acc.mfaSecretEnc.isEmpty ∨ !ks.isEmpty then pure () else clear fs a

/-- `GuardRemoval` refuses the last usable factor where the tenant requires one. -/
def guardRemoval (keyID : KeyID) : Work Unit := do
  let current ← state fs a
  match current.keys.find? (·.id == keyID) with
  | none => Task.fail .notFound
  | some key =>
    if !key.cloneFlagged ∧ current.required ∧ current.usable ≤ 1 then Task.fail .required
    else pure ()

end Service

end TangraAuth.Mfa

import TangraAuth.Webauthn.Service
import TangraAuth.Library.Execution

/-!
Contract: everything that changes a user's second factors, one operation at a time.

Owns: the administrator's resets and the operations as one step function, each with the
calls of its own that fail.

Does not own: operations that overlap, and the sessions the resets revoke.
-/

namespace TangraAuth.Mfa

open Library Store Accounts
open TangraAuth.Webauthn

/-! ### Resets -/

/-- The built-in roles in order of privilege. -/
def rank (roles : List Slug) : Nat :=
  roles.foldl
    (fun best r =>
      if r = "operator" ∧ best < 3 then 3
      else if r = "owner" ∧ best < 2 then 2
      else if r = "admin" ∧ best < 1 then 1
      else best) 0

/-- `Admin.ResetMFA`, with the administrator's roles and those read for the user. -/
def resetMFA (fs : Faults) (a : Actor) (actorRoles : List Slug) (uid : UserID)
    (roles : List Slug) : Work Unit := do
  let acc ← (user fs .resetMFA a.tenantID uid).mapError fun _ => .notFound
  if acc.status = .imported then Task.fail .invalidState
  else do
    let found ← query fs .resetMFA .roles fun _ => .ok roles
    if uid = a.userID ∨ rank actorRoles < rank found then Task.fail .forbidden
    else do
      let _ ← listWebAuthnCredentials fs .resetMFA a.tenantID uid
      let _ ← listRecoveryCodeHashes fs .resetMFA a.tenantID uid
      resetMFARows fs .resetMFA a.tenantID uid

/-- The transaction of `App.ResetUser` on the factors of the user it finds. -/
def resetUser (fs : Faults) (tid : TenantID) (uid : UserID) : Work Unit :=
  resetCredentialRows fs .resetUser tid uid

/-! ### Operations -/

inductive Operation where
  | enrol (a : Actor) (sec : Bytes) (random : Nat)
  | confirm (a : Actor) (code : String) (draws : Nat → Draw)
  | disable (a : Actor) (code : String)
  | regenerate (a : Actor) (code : String) (draws : Nat → Draw)
  | beginRegistration (a : Actor) (name : String) (candidate : Bytes) (random : Nat)
  | finishRegistration (a : Actor) (resp : Bytes) (id : KeyID) (draws : Nat → Draw)
  | stepUpOptions (a : Actor) (random : Nat)
  | remove (a : Actor) (id : KeyID) (confirmation : Confirmation)
  | resetMFA (a : Actor) (actorRoles : List Slug) (uid : UserID) (roles : List Slug)
  | resetUser (tid : TenantID) (uid : UserID)
  -- around them: the second step of sign-ins, and rows that others write
  | verifyCode (a : Actor) (code : String)
  | signinOptions (reference : Nat) (a : Actor) (random : Nat)
  | verifySignin (reference : Nat) (a : Actor) (resp : Bytes)
  | updateStatus (tid : TenantID) (uid : UserID) (status : UserStatus)
  | updateTenant (tid : TenantID) (row : Tenant)
  | advance (duration : Nat)

/-- An operation and its calls that fail. -/
structure Move where
  operation : Operation
  faults : Faults

/-- The work of an operation; its answer is dropped. -/
def Move.work (plat : Platform) (party : RelyingParty) (move : Move) : Work Unit :=
  let fs := move.faults
  match move.operation with
  | .enrol a sec random => enrol plat fs a sec random
  | .confirm a code draws => do
      let _ ← confirm plat fs a code draws
      pure ()
  | .disable a code => disable plat fs a code
  | .regenerate a code draws => do
      let _ ← regenerateCodes plat fs a code draws
      pure ()
  | .beginRegistration a name candidate random => do
      let _ ← beginRegistration plat party fs a name candidate random
      pure ()
  | .finishRegistration a resp id draws => do
      let _ ← finishRegistration plat party fs a resp id draws
      pure ()
  | .stepUpOptions a random => do
      let _ ← beginAssertion party fs a .stepUp a.userID random
      pure ()
  | .remove a id confirmation => remove plat party fs a id confirmation
  | .resetMFA a actorRoles uid roles => resetMFA fs a actorRoles uid roles
  | .resetUser tid uid => resetUser fs tid uid
  | .verifyCode a code => do
      let _ ← verify plat fs a code
      pure ()
  | .signinOptions reference a random => do
      let _ ← beginAssertion party fs a .signin reference random
      pure ()
  | .verifySignin reference a resp =>
    finishAssertion party fs a .signin reference resp
  | .updateStatus tid uid status => fun d =>
    (.ok (), d.changeAccount tid uid ({ · with status := status }))
  | .updateTenant tid row => fun d =>
    (.ok (), { d with
      tenants := fun other => if other = tid then some row else d.tenants other })
  | .advance duration => fun d => (.ok (), { d with now := d.now + duration })

/-- One operation. What it wrote before an error stays written. -/
def step (plat : Platform) (party : RelyingParty) (d : Data) (move : Move) : Option Data :=
  some (move.work plat party d).2

end TangraAuth.Mfa

import TangraAuth.AuthClient.Verifier
import TangraAuth.Token.Ring

/-!
Contract: the tokens an issuer signs with the ring's active key.

Owns: `Issue` and `IssueEnrollment` with their lifetimes and refusals, the signed
token with the key it verifies under, and how long a verifier may accept it.

Does not own: the encoding and the signature. A signature is valid under the public
key of the key that made it; token ids are left out.
-/

namespace TangraAuth.Token

open TangraAuth.Store
open TangraAuth.AuthClient (Claims unix)

/-- A token to mint; the ids are those of rows and never empty. -/
structure Request where
  userID : UserID
  tenantID : TenantID
  sessionID : SessionID
  roles : List Slug
  amr : List String
  audience : Option String
  lifetime : Int
deriving DecidableEq, Repr

inductive IssueError where
  | noActiveKey
  | brokenKey
  | enrollmentRequest
  | enrollmentLifetime
deriving DecidableEq, Repr

structure EnrollClaims where
  tenantID : TenantID
  spiffePaths : List String
  issuedAt : Int
  expiresAt : Int
deriving DecidableEq, Repr

inductive Body where
  | access (cl : Claims)
  | enrollment (cl : EnrollClaims)
deriving DecidableEq, Repr

/-- A signed token: the key id of its header and the public key its signature is valid under. -/
structure SignedToken where
  kid : KeyID
  signer : PublicKey
  body : Body
deriving DecidableEq, Repr

def accessClaims (cfg : Config) (now : Int) (req : Request) : Claims :=
  let life :=
    if req.lifetime ≤ 0 ∨ req.lifetime > cfg.accessLifetime then cfg.accessLifetime
    else req.lifetime
  { subject := req.userID, tenantID := req.tenantID, sessionID := req.sessionID
    roles := req.roles, amr := req.amr, audience := req.audience.toList
    issuedAt := unix now, expiresAt := unix (now + life) }

/-- A token signed with the active key. -/
def issue (cfg : Config) (ks : Keys) (now : Int) (req : Request) : Except IssueError SignedToken :=
  match activeKey ks.ring with
  | none => .error .noActiveKey
  | some key =>
    if !key.priv then .error .brokenKey
    else .ok ⟨key.kid, key.publicKey, .access (accessClaims cfg now req)⟩

theorem issue_eq_ok {cfg : Config} {ks : Keys} {now : Int} {req : Request}
    {tok : SignedToken} (issued : issue cfg ks now req = .ok tok) :
    tok.body = .access (accessClaims cfg now req) := by
  unfold issue at issued
  split at issued
  · cases issued
  · split_ifs at issued
    cases issued
    rfl

def defaultEnrollLifetime : Int := 10 * minute

def enrollLifetime (ttl : Int) : Int := if ttl ≤ 0 then defaultEnrollLifetime else ttl

/-- An enrollment token; a lifetime above the maximum is refused, not shortened. -/
def issueEnrollment (ks : Keys) (now : Int) (tid : Option TenantID)
    (spiffePaths : List String) (ttl : Int) : Except IssueError SignedToken :=
  match tid with
  | none => .error .enrollmentRequest
  | some tn =>
    if spiffePaths = [] then .error .enrollmentRequest
    else if ttl > maxEnrollLifetime then .error .enrollmentLifetime
    else match activeKey ks.ring with
      | none => .error .noActiveKey
      | some key =>
        if !key.priv then .error .brokenKey
        else
          .ok ⟨key.kid, key.publicKey, .enrollment
            ⟨tn, spiffePaths, unix now, unix (now + enrollLifetime ttl)⟩⟩

/-! ### How long a token is accepted -/

/-- The skew a verifier configured with `skew` allows. -/
def allowedSkew (skew : Int) : Int :=
  if skew < 0 ∨ skew > 60 * second then 60 * second else skew

def SignedToken.expiresAt (tok : SignedToken) : Int :=
  match tok.body with
  | .access cl => cl.expiresAt * second
  | .enrollment cl => cl.expiresAt * second

/-- The skews of the token's verifiers: an access token is verified by anyone, an enrollment
token by the issuer. -/
def SignedToken.VerifiedWith (tok : SignedToken) (cfg : Config) (skew : Int) : Prop :=
  match tok.body with
  | .access _ => ∃ configured, skew = allowedSkew configured
  | .enrollment _ => skew = allowedSkew cfg.clockSkew

end TangraAuth.Token

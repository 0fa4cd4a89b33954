import TangraAuth.Token.Issuer

/-!
Contract: authorization codes, from the signed-in actor to the token request.

Owns: the registered clients a request is checked against, `IssueCode`, the checks
of `Redeem` on a code it has taken, and the PKCE verification.

Does not own: the parsing of the authorize query; the hash of a code, the SHA-256
challenge and the argon2 comparison of a client secret, which are parameters.
-/

namespace TangraAuth.OAuth

open Library Store
open TangraAuth.Session (Actor)

def codeTTL : Int := 60 * second

/-- An authorization code, as bytes; the empty one is none. -/
abbrev Code := List UInt8

/-- A PKCE verifier or challenge, as its characters. -/
abbrev Text := List Char

inductive Refusal where
  | invalidRequest
  | invalidGrant
  | invalidClient
  | issue (error : Token.IssueError)
deriving DecidableEq, Repr

/-- A registered application. -/
structure ClientApplication (E : Type) where
  clientID : String
  tenantID : TenantID
  redirectURIs : List String
  isPublic : Bool
  secretHash : Option E

/-- The functions of the crypto package the service calls. -/
structure Crypto (H E : Type) where
  hashToken : Code → H
  challenge : Text → Text
  verifyPassword : String → E → Bool

variable {H E : Type}

/-- The parsed query of `/authorize`, as far as a code depends on it. -/
structure AuthorizeRequest where
  clientID : String
  redirectURI : String
  codeChallenge : Text
deriving DecidableEq, Repr

/-- The client exists and the redirect URI is one of its own, to the letter. -/
def validateClient (clients : String → Option (ClientApplication E))
    (req : AuthorizeRequest) : Except Refusal (ClientApplication E) :=
  match clients req.clientID with
  | none => .error .invalidRequest
  | some client =>
    if req.redirectURI ∈ client.redirectURIs then .ok client else .error .invalidRequest

/-- What a code stands for. `checkedAt` is the instant the actor was resolved at; the code does
not store it and no function reads it. -/
structure Pending where
  clientID : String
  redirectURI : String
  challenge : Text
  tenantID : TenantID
  userID : UserID
  sessionID : SessionID
  roles : List Slug
  amr : List String
  checkedAt : Int
deriving DecidableEq, Repr

/-- Binds a code to the actor and the request; the actor's tenant must own the client. -/
def issueCode [DecidableEq H] (crypto : Crypto H E)
    (codes : ExpiringMap H Pending) (now : Int) (a : Actor) (checkedAt : Int)
    (client : ClientApplication E) (req : AuthorizeRequest) (code : Code) :
    Except Refusal (ExpiringMap H Pending) :=
  if a.tenantID ≠ client.tenantID then .error .invalidRequest
  else
    .ok (codes.set now (crypto.hashToken code)
      { clientID := client.clientID, redirectURI := req.redirectURI
        challenge := req.codeChallenge, tenantID := a.tenantID, userID := a.userID
        sessionID := a.sessionID, roles := a.roles, amr := a.amr
        checkedAt := checkedAt }
      codeTTL)

theorem issueCode_eq_ok [DecidableEq H] {crypto : Crypto H E}
    {codes stored : ExpiringMap H Pending} {now : Int} {a : Actor} {checkedAt : Int}
    {client : ClientApplication E} {req : AuthorizeRequest} {code : Code}
    (issued : issueCode crypto codes now a checkedAt client req code = .ok stored) :
    ∃ pending, stored = codes.set now (crypto.hashToken code) pending codeTTL
      ∧ pending.tenantID = a.tenantID ∧ pending.userID = a.userID
      ∧ pending.sessionID = a.sessionID ∧ pending.checkedAt = checkedAt := by
  grind [issueCode]

/-! ### PKCE -/

def minVerifier : Nat := 43
def maxVerifier : Nat := 128

/-- Every allowed character is one byte long, so bytes and characters count the same. -/
def validVerifier (vf : Text) : Bool :=
  decide (minVerifier ≤ vf.length) && decide (vf.length ≤ maxVerifier)
    && vf.all fun chr =>
      ('A' ≤ chr && chr ≤ 'Z') || ('a' ≤ chr && chr ≤ 'z')
        || ('0' ≤ chr && chr ≤ '9') || chr == '-' || chr == '.'
        || chr == '_' || chr == '~'

def verifyPKCE (crypto : Crypto H E) (vf ch : Text) : Bool :=
  validVerifier vf && ch != [] && crypto.challenge vf == ch

/-! ### Redemption -/

/-- The form fields of the token request. -/
structure TokenRequest where
  grantType : String
  code : Code
  redirectURI : String
  clientID : String
  codeVerifier : Text
  clientSecret : String
deriving DecidableEq, Repr

/-- The fields that must be there before the code is looked up. -/
def TokenRequest.complete (req : TokenRequest) : Bool :=
  req.grantType == "authorization_code" && req.code != [] && req.clientID != ""
    && req.redirectURI != ""

/-- The secret of a confidential client. -/
def authenticates (crypto : Crypto H E) (client : ClientApplication E)
    (clientSecret : String) : Bool :=
  client.isPublic
    || (clientSecret != "" && client.secretHash.any (crypto.verifyPassword clientSecret))

/-- The checks on a code that was taken, down to the token to mint. -/
def exchangeFor (crypto : Crypto H E)
    (clients : String → Option (ClientApplication E)) (req : TokenRequest)
    (pending : Pending) : Except Refusal Token.Request :=
  match clients req.clientID with
  | none => .error .invalidGrant
  | some client =>
    if pending.clientID ≠ req.clientID ∨ pending.redirectURI ≠ req.redirectURI then
      .error .invalidGrant
    else if !authenticates crypto client req.clientSecret then .error .invalidClient
    else if !verifyPKCE crypto req.codeVerifier pending.challenge then
      .error .invalidGrant
    else
      .ok
        { userID := pending.userID, tenantID := pending.tenantID
          sessionID := pending.sessionID, roles := pending.roles, amr := pending.amr
          audience := some client.clientID, lifetime := 0 }

end TangraAuth.OAuth

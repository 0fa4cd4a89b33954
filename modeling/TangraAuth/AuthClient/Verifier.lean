import TangraAuth.Session.Manager

/-!
Contract: the SDK's offline verifier, after the token itself was found good.

Owns: the claims, the entries of the revocation feed the verifier holds, which of
them it forgets, and which tokens it refuses for them.

Does not own: signature, issuer and time checks, which belong to the token library
and are behind a claims value; and the refresh of keys.
-/

namespace TangraAuth.AuthClient

open TangraAuth.Store

/-- The access-token claims the verifier reads; instants in Unix seconds. -/
structure Claims where
  subject : UserID
  tenantID : TenantID
  sessionID : SessionID
  roles : List Slug
  amr : List String
  audience : List String
  issuedAt : Int
  expiresAt : Int
deriving DecidableEq, Repr

/-- A verified end user. -/
structure Identity where
  userID : UserID
  tenantID : TenantID
  sessionID : SessionID
  roles : List Slug
  amr : List String
  audience : Option String
  issuedAt : Int
  expiresAt : Int
deriving DecidableEq, Repr

structure Config where
  audience : Option String
  tenantID : Option TenantID
  maxStale : Int
  retention : Int
deriving DecidableEq, Repr

/-- `none` is the cursor no page has been read with, and the instant of no sync. -/
structure Verifier where
  config : Config
  entries : List Revocation
  cursor : Option Int
  syncedAt : Option Int
deriving DecidableEq, Repr

/-- The defaults of a new verifier. -/
def newVerifier (cfg : Config) : Verifier where
  config :=
    { cfg with
      maxStale := if cfg.maxStale ≤ 0 then 60 * minute else cfg.maxStale
      retention := if cfg.retention ≤ 0 then 60 * minute else cfg.retention }
  entries := []
  cursor := none
  syncedAt := none

/-- Entries past the retention are dropped. -/
def Verifier.forgetExpired (vf : Verifier) (now : Int) : Verifier :=
  { vf with
    entries := vf.entries.filter fun e =>
      decide (now - vf.config.retention < e.ts) }

/-- The Unix second of an instant. -/
def unix (ins : Int) : Int := ins / second

/-- The entry is about the token's session, user or tenant. -/
def concerns (cl : Claims) (e : Revocation) : Bool :=
  match e.subject with
  | .session id => id == cl.sessionID
  | .user id => id == cl.subject && e.tenantID == cl.tenantID
  | .tenant id => id == cl.tenantID

/-- An entry for the session, user or tenant invalidates the token from the second the token
was issued in. -/
def Verifier.revoked (vf : Verifier) (cl : Claims) : Bool :=
  vf.entries.any fun e =>
    !decide (unix e.ts < cl.issuedAt) && concerns cl e

inductive VerifyError where
  | audience
  | wrongTenant
  | stale
  | revoked
deriving DecidableEq, Repr

/-- `Verify` on the claims of a token whose signature, issuer and times are good. -/
def Verifier.verify (vf : Verifier) (now : Int) (cl : Claims) : Except VerifyError Identity :=
  if vf.config.audience.any fun expected => expected ∉ cl.audience then
    .error .audience
  else if vf.config.tenantID.any fun expected => cl.tenantID ≠ expected then
    .error .wrongTenant
  else match vf.syncedAt with
    | none => .error .stale
    | some ins =>
      if now - ins > vf.config.maxStale then .error .stale
      else if vf.revoked cl then .error .revoked
      else
        .ok ⟨cl.subject, cl.tenantID, cl.sessionID, cl.roles, cl.amr,
          cl.audience.head?, cl.issuedAt, cl.expiresAt⟩

theorem mem_forgetExpired {vf : Verifier} {now : Int} {e : Revocation} :
    e ∈ (vf.forgetExpired now).entries ↔ e ∈ vf.entries ∧ now - vf.config.retention < e.ts := by
  simp [Verifier.forgetExpired]

theorem not_verify_of_mem {vf : Verifier} {e : Revocation}
    (held : e ∈ vf.entries) {cl : Claims} (about : concerns cl e = true)
    (dated : cl.issuedAt ≤ unix e.ts) (now : Int) (identity : Identity) :
    vf.verify now cl ≠ .ok identity := by
  have revoked : vf.revoked cl = true := by
    unfold Verifier.revoked
    rw [List.any_eq_true]
    refine ⟨e, held, ?_⟩
    rw [about, decide_eq_false (by omega)]
    rfl
  intro verified
  unfold Verifier.verify at verified
  cases synced : vf.syncedAt with
  | none =>
    rw [synced] at verified
    split_ifs at verified
  | some ins =>
    rw [synced] at verified
    dsimp only at verified
    rw [if_pos revoked] at verified
    split_ifs at verified

end TangraAuth.AuthClient

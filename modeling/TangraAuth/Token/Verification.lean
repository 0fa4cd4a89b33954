import TangraAuth.Token.Retention

/-!
Contract: the issuer's own verifiers over any schedule of the ring.

Owns: `Verify` and `VerifyEnrollment` with their limits, when a token that `Issue` signed is
accepted until its expiry, and that neither verifier accepts the tokens of the other.

Does not own: the encoding. The length of a token's text is a parameter.
-/

namespace TangraAuth.Token

open Library Store
open TangraAuth.AuthClient (Claims unix)

inductive Refusal where
  | tooLong
  | unknownKey
  | invalid
  | lifetime
  | claimsMissing
deriving DecidableEq, Repr

def maxTokenLength : Nat := 8 * 1024

def maxTokenLifetime : Int := 15 * minute

def SignedToken.issuedAt (tok : SignedToken) : Int :=
  match tok.body with
  | .access cl => cl.issuedAt * second
  | .enrollment cl => cl.issuedAt * second

/-- What both parsers check of a text of that length: the key id, the signature and the times. -/
def parse (cfg : Config) (ks : Keys) (now : Int) (length : Nat) (tok : SignedToken) :
    Except Refusal Unit :=
  if length > maxTokenLength then .error .tooLong
  else match ks.publicKey tok.kid with
    | none => .error .unknownKey
    | some pk =>
      let skew := allowedSkew cfg.clockSkew
      if pk ≠ tok.signer ∨ tok.expiresAt + skew ≤ now
          ∨ now < tok.issuedAt - skew then .error .invalid
      else .ok ()

def enrollAudience : String := "lcm"

/-- The claims of a token as either verifier decodes them: one that the token does not carry is
empty. Of the token's id only the presence is read. -/
structure Payload where
  subject : Option Nat
  tenantID : Option TenantID
  sessionID : Option SessionID
  hasID : Bool
  roles : List Slug
  amr : List String
  audience : List String
  spiffePaths : List String
  issuedAt : Int
  expiresAt : Int
deriving DecidableEq, Repr

def Body.payload : Body → Payload
  | .access cl => ⟨some cl.subject, some cl.tenantID, some cl.sessionID, true, cl.roles, cl.amr,
      cl.audience, [], cl.issuedAt, cl.expiresAt⟩
  | .enrollment cl => ⟨some cl.tenantID, some cl.tenantID, none, true, [], [], [enrollAudience],
      cl.spiffePaths, cl.issuedAt, cl.expiresAt⟩

/-- A user, a tenant, a session and an id are required. -/
def Payload.claims (load : Payload) : Except Refusal Claims :=
  match load.subject, load.tenantID, load.sessionID, load.hasID with
  | some subject, some tid, some sid, true => .ok
      { subject, tenantID := tid, sessionID := sid, roles := load.roles, amr := load.amr
        audience := load.audience, issuedAt := load.issuedAt, expiresAt := load.expiresAt }
  | _, _, _, _ => .error .claimsMissing

/-- A tenant, an id and paths are required. -/
def Payload.enrollClaims (load : Payload) : Except Refusal EnrollClaims :=
  match load.tenantID, load.hasID, load.spiffePaths with
  | some tid, true, path :: rest => .ok ⟨tid, path :: rest, load.issuedAt, load.expiresAt⟩
  | _, _, _ => .error .claimsMissing

def verifyToken (cfg : Config) (ks : Keys) (now : Int) (length : Nat)
    (tok : SignedToken) : Except Refusal Claims := do
  parse cfg ks now length tok
  let maxLife :=
    if cfg.accessLifetime ≤ 0 ∨ cfg.accessLifetime > maxTokenLifetime then maxTokenLifetime
    else cfg.accessLifetime
  if tok.expiresAt - tok.issuedAt > maxLife then .error .lifetime
  else tok.body.payload.claims

def verifyEnrollment (cfg : Config) (ks : Keys) (now : Int) (length : Nat)
    (tok : SignedToken) : Except Refusal EnrollClaims := do
  parse cfg ks now length tok
  if !tok.body.payload.audience.contains enrollAudience then .error .invalid
  else if tok.expiresAt - tok.issuedAt > maxEnrollLifetime then .error .lifetime
  else tok.body.payload.enrollClaims

/-- The lifetime `Issue` gives to a token. -/
def grantedLife (cfg : Config) (req : Request) : Int :=
  if req.lifetime ≤ 0 ∨ req.lifetime > cfg.accessLifetime then cfg.accessLifetime
  else req.lifetime

/-! ### Which tokens are refused -/

theorem parse_eq_ok {cfg : Config} {ks : Keys} {now : Int} {length : Nat}
    {tok : SignedToken} (known : ks.publicKey tok.kid = some tok.signer)
    (short : length ≤ maxTokenLength)
    (unexpired : now < tok.expiresAt + allowedSkew cfg.clockSkew)
    (since : tok.issuedAt - allowedSkew cfg.clockSkew ≤ now) :
    parse cfg ks now length tok = .ok () := by
  unfold parse
  rw [if_neg (by omega), known]
  dsimp only
  rw [if_neg]
  rintro (other | late | early)
  · exact other rfl
  · omega
  · omega

/-- Nothing is read from a token that fails after its parsing. -/
theorem parse_bind_ne_ok {α : Type} {cfg : Config} {ks : Keys} {now : Int} {length : Nat}
    {tok : SignedToken} {rest : Unit → Except Refusal α} {read : α} (fails : rest () ≠ .ok read) :
    (parse cfg ks now length tok >>= rest) ≠ .ok read := by
  cases parse cfg ks now length tok with
  | error refusal => exact fun accepted => nomatch accepted
  | ok _ => exact fails

theorem Payload.claims_ne_ok {load : Payload} (noSession : load.sessionID = none)
    (read : Claims) : load.claims ≠ .ok read := by
  unfold Payload.claims
  rw [noSession]
  simp

theorem Payload.enrollClaims_ne_ok {load : Payload} (noPaths : load.spiffePaths = [])
    (read : EnrollClaims) : load.enrollClaims ≠ .ok read := by
  unfold Payload.enrollClaims
  rw [noPaths]
  simp

/-- An enrollment token names no session. -/
theorem verifyToken_enrollment {cl : EnrollClaims} {tok : SignedToken}
    (isBody : tok.body = .enrollment cl) (cfg : Config) (ks : Keys) (now : Int)
    (length : Nat) (read : Claims) : verifyToken cfg ks now length tok ≠ .ok read := by
  apply parse_bind_ne_ok
  intro accepted
  dsimp only at accepted
  split_ifs at accepted
  all_goals exact Payload.claims_ne_ok (isBody ▸ rfl) read accepted

/-- An access token names no paths, whatever its audience. -/
theorem verifyEnrollment_access {cl : Claims} {tok : SignedToken}
    (isBody : tok.body = .access cl) (cfg : Config) (ks : Keys) (now : Int)
    (length : Nat) (read : EnrollClaims) :
    verifyEnrollment cfg ks now length tok ≠ .ok read := by
  apply parse_bind_ne_ok
  intro accepted
  split_ifs at accepted
  exact Payload.enrollClaims_ne_ok (isBody ▸ rfl) read accepted

/-- An access token in its time is accepted if its text and its lifetime are short enough. -/
theorem verifyToken_access_iff {cfg : Config} {ks : Keys} {now : Int} {length : Nat}
    {tok : SignedToken} {cl : Claims} (isBody : tok.body = .access cl)
    (known : ks.publicKey tok.kid = some tok.signer)
    (unexpired : now < tok.expiresAt + allowedSkew cfg.clockSkew)
    (since : tok.issuedAt - allowedSkew cfg.clockSkew ≤ now)
    (positive : 0 < cfg.accessLifetime) (bounded : cfg.accessLifetime ≤ maxTokenLifetime) :
    verifyToken cfg ks now length tok = .ok cl ↔ length ≤ maxTokenLength
        ∧ tok.expiresAt - tok.issuedAt ≤ cfg.accessLifetime := by
  by_cases short : length ≤ maxTokenLength
  · unfold verifyToken
    rw [parse_eq_ok known short unexpired since, isBody]
    dsimp only [bind, Except.bind]
    rw [if_neg (by omega : ¬ (cfg.accessLifetime ≤ 0 ∨ cfg.accessLifetime > maxTokenLifetime))]
    split_ifs with late
    · refine ⟨fun impossible => (nomatch impossible), ?_⟩
      rintro ⟨-, within⟩
      omega
    · exact ⟨fun _ => ⟨short, by omega⟩, fun _ => rfl⟩
  · refine ⟨?_, fun both => absurd both.1 short⟩
    intro accepted
    unfold verifyToken parse at accepted
    rw [if_pos (by omega)] at accepted
    cases accepted

/-! ### Lifetimes in whole seconds -/

theorem Config.normalize_access_pos (cfg : Config) : 0 < cfg.normalize.accessLifetime := by
  unfold Config.normalize
  dsimp only
  split_ifs with invalid
  · decide
  · omega

/-- The dates of the token are cut to seconds, so they may be further apart than the lifetime. -/
theorem cut_dates_within_iff (now life limit : Int) :
    unix (now + life) * second - unix now * second ≤ limit
      ↔ now % second + life < (limit / second + 1) * second := by
  unfold unix second
  omega

/-! ### Every schedule -/

/-- What a step leaves: the configuration and the tokens; the clock does not go back. -/
theorem step_keeps {st next : State} {move : Move} (taken : step st move = some next) :
    next.config = st.config ∧ st.now ≤ next.now ∧ ∀ tok ∈ st.tokens, tok ∈ next.tokens := by
  have signs : ∀ res, (st.sign res).config = st.config ∧ st.now ≤ (st.sign res).now
      ∧ ∀ tok ∈ st.tokens, tok ∈ (st.sign res).tokens := by
    intro res
    cases res with
    | error refusal => exact ⟨rfl, le_refl _, fun _ mem => mem⟩
    | ok tok => exact ⟨rfl, le_refl _, fun _ mem => List.mem_append_left _ mem⟩
  cases move with
  | load | rotate | sweep | shuffle =>
    dsimp only [step] at taken
    split_ifs at taken
    cases taken
    exact ⟨rfl, le_refl _, fun _ mem => mem⟩
  | issue req | enroll tid spiffePaths ttl =>
    cases taken
    exact signs _
  | advance elapsed =>
    cases taken
    exact ⟨rfl, by dsimp only; omega, fun _ mem => mem⟩

/-- Since an instant: the ring was made with the configuration and holds the tokens. -/
structure Holds (cfg : Config) (since : Int) (signed : List SignedToken) (st : State) :
    Prop where
  made : st.config = cfg.normalize
  sound : Sound st.config st.tokens st.now st.keys
  after : since ≤ st.now
  issued : ∀ tok ∈ signed, tok ∈ st.tokens

theorem Holds.normal {cfg : Config} {since : Int} {signed : List SignedToken} {st : State}
    (holds : Holds cfg since signed st) : st.config.Normal :=
  holds.made ▸ cfg.normalize_normal

theorem step_preserves_holds {cfg : Config} {since : Int} {signed : List SignedToken}
    (st : State) (move : Move) (next : State) (holds : Holds cfg since signed st)
    (taken : step st move = some next) : Holds cfg since signed next := by
  obtain ⟨sameConfig, later, keeps⟩ := step_keeps taken
  have sound := step_preserves_sound st move next ⟨holds.normal, holds.sound⟩ taken
  exact ⟨sameConfig.trans holds.made, sound.2, le_trans holds.after later,
    fun tok mem => keeps tok (holds.issued tok mem)⟩

/-- Whatever the schedule before and after, a token that `Issue` signed is accepted with its
claims until its expiry exactly if its text is short enough and its lifetime, counted from the
whole second before its issue, ends before the second after the longest one. -/
theorem issued_token_verified_iff (now : Int) (cfg : Config) (store : List SigningKey)
    (unique : UniqueKey SigningKey.kid store) {moves : List Move} {init : State}
    (reaches : run step (initial now cfg store) moves = some init) {req : Request}
    {tok : SignedToken}
    (issued : issue init.config init.keys init.now req = .ok tok) {later : List Move}
    {fin : State} (ran : run step (init.sign (.ok tok)) later = some fin)
    (unexpired : fin.now ≤ tok.expiresAt) (length : SignedToken → Nat) :
    (verifyToken fin.config fin.keys fin.now (length tok) tok
          = .ok (accessClaims init.config init.now req)
        ↔ length tok ≤ maxTokenLength ∧ init.now % second + grantedLife init.config req
            < (init.config.accessLifetime / second + 1) * second)
      ∧ (∀ access cl, access.body = .access cl → ∀ read,
        verifyEnrollment fin.config fin.keys fin.now (length access) access ≠ .ok read)
      ∧ ∀ enrollment cl, enrollment.body = .enrollment cl → ∀ read,
        verifyToken fin.config fin.keys fin.now (length enrollment) enrollment ≠ .ok read := by
  refine ⟨?_, fun access cl isBody => verifyEnrollment_access isBody _ _ _ _,
    fun enrollment cl isBody => verifyToken_enrollment isBody _ _ _ _⟩
  have begun : Holds cfg now [] init :=
    run_preserves_always step_preserves_holds
      ⟨rfl, (sound_initial now cfg unique).2, le_refl _, by simp⟩ reaches
  have signed : Holds cfg init.now [tok] (init.sign (.ok tok)) :=
    ⟨begun.made, begun.sound.sign (signedNow_of_issue begun.normal issued), le_refl _,
      fun _ mem => List.mem_append_right _ mem⟩
  have held : Holds cfg init.now [tok] fin :=
    run_preserves_always step_preserves_holds signed ran
  have isBody := issue_eq_ok issued
  have exp : tok.expiresAt = unix (init.now + grantedLife init.config req) * second := by
    unfold SignedToken.expiresAt
    rw [isBody]
    rfl
  have begins : tok.issuedAt = unix init.now * second := by
    unfold SignedToken.issuedAt
    rw [isBody]
    rfl
  -- Until then the ring publishes the key, whatever was rotated in between.
  have skew := held.normal.skew.1
  have isSkew := held.normal.allowedSkew_eq
  have known : fin.keys.publicKey tok.kid = some tok.signer := by
    apply held.sound.published (held.issued tok List.mem_cons_self)
      (show tok.VerifiedWith fin.config (allowedSkew fin.config.clockSkew) from ?_)
    · omega
    · unfold SignedToken.VerifiedWith
      rw [isBody]
      exact ⟨_, rfl⟩
  have past := unix_mul_second_le init.now
  have post := held.after
  have sameConfig : fin.config = init.config := held.made.trans begun.made.symm
  rw [verifyToken_access_iff isBody known (by omega) (by omega)
    (held.made ▸ cfg.normalize_access_pos) held.normal.access, exp, begins,
    sameConfig, cut_dates_within_iff]

namespace Sample

/-- A lifetime of a second and a half. -/
def fractional : Config := ⟨1500000000, 0, 0, 0⟩

def request : Request := ⟨1, 1, 1, [], [], none, 0⟩

def signedAt (instant : Nat) : List Move := [.load noFaults 1 11, .advance instant]

end Sample

/-- Issued on the second, the token is good for its last instant. -/
theorem whole_second_token_verified :
    ∃ init tok fin, run step (initial 0 Sample.fractional []) (Sample.signedAt 0) = some init
      ∧ issue init.config init.keys init.now Sample.request = .ok tok
      ∧ run step (init.sign (.ok tok)) [.advance 1000000000] = some fin
      ∧ fin.now = tok.expiresAt
      ∧ verifyToken fin.config fin.keys fin.now 400 tok
        = .ok (accessClaims init.config init.now Sample.request) := by
  obtain ⟨init, tok, fin, reaches, issued, ran, isNow, within⟩ : ∃ init tok fin,
        run step (initial 0 Sample.fractional []) (Sample.signedAt 0) = some init
        ∧ issue init.config init.keys init.now Sample.request = .ok tok
        ∧ run step (init.sign (.ok tok)) [.advance 1000000000] = some fin
        ∧ fin.now = tok.expiresAt
        ∧ init.now % second + grantedLife init.config Sample.request
          < (init.config.accessLifetime / second + 1) * second :=
    ⟨_, _, _, rfl, rfl, rfl, by decide, by decide⟩
  have accepted := issued_token_verified_iff 0 Sample.fractional [] List.nodup_nil reaches issued
    ran (le_of_eq isNow) (fun _ => 400)
  exact ⟨init, tok, fin, reaches, issued, ran, isNow, accepted.1.mpr ⟨by decide, within⟩⟩

/-- Issued six tenths of a second later, its dates are two seconds apart and it is refused at
once. -/
theorem fractional_lifetime_refused :
    ∃ init tok, run step (initial 0 Sample.fractional []) (Sample.signedAt 600000000) = some init
      ∧ issue init.config init.keys init.now Sample.request = .ok tok
      ∧ verifyToken init.config init.keys init.now 400 tok = .error .lifetime :=
  ⟨_, _, rfl, rfl, by decide⟩

end TangraAuth.Token

import TangraAuth.Library.Execution
import TangraAuth.Token.Issuer

/-!
Contract: the SDK's whole verifier with its clock, over every feed.

Owns: `New`, the token check, a sync whose answers are arbitrary, `Verify`, and for
which configurations a token that was refused as revoked is refused for good.

Does not own: the parsing of a token's text and its signature, which the token
library does: a bearer token here is what it reads. No sync runs inside a `Verify`.
-/

namespace TangraAuth.AuthClient.Offline

open TangraAuth.Library
open TangraAuth.Token (PublicKey allowedSkew)

/-- The access-token claims; instants in Unix seconds. -/
structure Claims where
  id : String
  issuer : String
  subject : String
  tenantID : String
  sessionID : String
  roles : List String
  amr : List String
  audience : List String
  issuedAt : Option Int
  notBefore : Option Int
  expiresAt : Option Int

/-- `signer` is the key under which the signature is good. -/
structure Bearer where
  length : Nat
  algorithm : String
  kid : String
  signer : PublicKey
  claims : Claims

structure Config where
  issuer : String
  audience : String
  tenantID : String
  skew : Int
  unknownKidCap : Int
  maxStale : Int
  retention : Int

inductive Kind where
  | session
  | user
  | tenant
  | other

/-- One feed entry. -/
structure Revocation where
  ts : Int
  kind : Kind
  subjectID : String
  tenantID : String

abbrev KeySet := String → Option PublicKey

/-- `feed` says whether there is a revocation source. -/
structure Verifier where
  config : Config
  feed : Bool
  keySet : KeySet
  lastUnknown : Option Int
  entries : List Revocation
  cursor : String
  syncedAt : Option Int

/-- A configured value where it is positive. -/
def orDefault (val default : Int) : Int := if val ≤ 0 then default else val

def new (cfg : Config) (feed : Bool) : Verifier where
  config := { cfg with
    skew := if cfg.skew ≤ 0 ∨ cfg.skew > 60 * second then 60 * second else cfg.skew
    unknownKidCap := orDefault cfg.unknownKidCap minute
    maxStale := orDefault cfg.maxStale (60 * minute)
    retention := orDefault cfg.retention (60 * minute) }
  feed := feed
  keySet := fun _ => none
  lastUnknown := none
  entries := []
  cursor := ""
  syncedAt := none

/-! ### The token -/

/-- The contract ceiling for the lifetime of a token. -/
def maxTokenLifetime : Int := 15 * minute

inductive TokenError where
  | tooLong
  | method
  | kidRequired
  | unknownKey
  | invalid
  | lifetime
  | required
deriving DecidableEq

/-- The issuer and the times, as the token library checks them. -/
def Claims.valid (cl : Claims) (issuer : String) (skew now : Int) : Bool :=
  (issuer == "" || cl.issuer == issuer)
    && (cl.expiresAt.any fun ins => decide (now < ins * second + skew))
    && (cl.issuedAt.all fun ins => decide (ins * second - skew ≤ now))
    && cl.notBefore.all fun ins => decide (ins * second - skew ≤ now)

def verifyToken (cfg : Config) (now : Int) (lookup : KeySet) (tok : Bearer) :
    Except TokenError Claims :=
  if tok.length > 8 * 1024 then .error .tooLong
  else if tok.algorithm ≠ "EdDSA" then .error .method
  else if tok.kid = "" then .error .kidRequired
  else match lookup tok.kid with
    | none => .error .unknownKey
    | some key =>
      if key ≠ tok.signer ∨ tok.claims.valid cfg.issuer (allowedSkew cfg.skew) now = false then
        .error .invalid
      else match tok.claims.issuedAt, tok.claims.notBefore, tok.claims.expiresAt with
        | some issuedAt, some _, some expiresAt =>
          if (expiresAt - issuedAt) * second > maxTokenLifetime then .error .lifetime
          else if "" ∈ [tok.claims.subject, tok.claims.tenantID, tok.claims.sessionID,
              tok.claims.id] then .error .required
          else .ok tok.claims
        | _, _, _ => .error .lifetime

/-! ### The feed -/

def Verifier.forgetExpired (vf : Verifier) (now : Int) : Verifier :=
  { vf with
    entries := vf.entries.filter fun e =>
      decide (now - vf.config.retention < e.ts) }

def Revocation.concerns (e : Revocation) (cl : Claims) : Bool :=
  match e.kind with
  | .session => e.subjectID == cl.sessionID
  | .user => e.subjectID == cl.subject
      && (e.tenantID == "" || e.tenantID == cl.tenantID)
  | .tenant => e.subjectID == cl.tenantID
  | .other => false

/-- From the second of its issue on, an entry about the token invalidates it. -/
def Revocation.revokes (cl : Claims) (e : Revocation) : Bool :=
  (cl.issuedAt.any fun issuedAt => decide (issuedAt ≤ unix e.ts)) && e.concerns cl

def Verifier.revoked (vf : Verifier) (cl : Claims) : Bool :=
  vf.entries.any (Revocation.revokes cl)

/-! ### `Verify` -/

structure Identity where
  userID : String
  tenantID : String
  sessionID : String
  roles : List String
  amr : List String
  audience : Option String
  issuedAt : Option Int
  expiresAt : Option Int
  jti : String

inductive VerifyError where
  | token (error : TokenError)
  | audience
  | wrongTenant
  | stale
  | revoked

def Claims.identity (cl : Claims) : Identity :=
  ⟨cl.subject, cl.tenantID, cl.sessionID, cl.roles, cl.amr,
    cl.audience.head?, cl.issuedAt, cl.expiresAt, cl.id⟩

/-- What follows the token check. -/
def Verifier.judge (vf : Verifier) (now : Int) (cl : Claims) : Except VerifyError Identity :=
  if vf.config.audience ≠ "" ∧ vf.config.audience ∉ cl.audience then
    .error .audience
  else if vf.config.tenantID ≠ "" ∧ cl.tenantID ≠ vf.config.tenantID then
    .error .wrongTenant
  else if vf.feed = false then .ok cl.identity
  else match vf.syncedAt with
    | none => .error .stale
    | some ins =>
      if now - ins > vf.config.maxStale then .error .stale
      else if vf.revoked cl then .error .revoked
      else .ok cl.identity

/-- The time that passes inside a call: until it may refresh the keys, until it looks at the
token again, and until it consults the feed. -/
structure Waits where
  refresh : Nat
  again : Nat
  judge : Nat

/-- `answer` is the key set a refresh would get. -/
def Verifier.verify (vf : Verifier) (now : Int) (waits : Waits) (answer : Option KeySet)
    (tok : Bearer) : Except VerifyError Identity × Verifier :=
  match verifyToken vf.config now vf.keySet tok with
  | .ok cl => (vf.judge (now + waits.judge) cl, vf)
  | .error .unknownKey =>
    let asked := now + waits.refresh
    if vf.lastUnknown.all fun last =>
        decide (asked - last ≥ vf.config.unknownKidCap) then
      match answer with
      | none => (.error (.token .unknownKey), { vf with lastUnknown := some asked })
      | some ks =>
        let refreshed := { vf with lastUnknown := some asked, keySet := ks }
        match verifyToken vf.config (asked + waits.again) ks tok with
        | .ok cl => (refreshed.judge (asked + waits.again + waits.judge) cl, refreshed)
        | .error error => (.error (.token error), refreshed)
    else (.error (.token .unknownKey), vf)
  | .error error => (.error (.token error), vf)

/-! ### The system -/

/-- A `SyncRevocations` call between two of its steps. -/
inductive Sync where
  | idle
  | requesting (cursor : String) (iteration : Nat)
  | finishing

structure State where
  now : Int
  verifier : Verifier
  sync : Sync

inductive Move where
  | begin
  | answer (entries : List Revocation) (next : String)
  | fail
  | finish
  | refreshKeys (ks : KeySet)
  | verify (waits : Waits) (answer : Option KeySet) (tok : Bearer)
  | advance (elapsed : Nat)

/-- Pages read in one sync at most. -/
def maxPages : Nat := 100

/-- The page is kept and what is past the retention forgotten. -/
def Verifier.take (vf : Verifier) (now : Int) (entries : List Revocation) (next : String) :
    Verifier :=
  Verifier.forgetExpired
    { vf with entries := vf.entries ++ entries, cursor := next } now

def step (st : State) : Move → Option State
  | .begin =>
    match st.sync with
    | .idle =>
      if st.verifier.feed then
        some { st with sync := .requesting st.verifier.cursor 0 }
      else some st
    | _ => none
  | .answer entries next =>
    match st.sync with
    | .requesting cursor iteration =>
      some { st with
        verifier := st.verifier.take st.now entries next
        sync :=
          if next = cursor ∨ entries.isEmpty ∨ maxPages ≤ iteration + 1 then .finishing
          else .requesting next (iteration + 1) }
    | _ => none
  | .fail =>
    match st.sync with
    | .requesting _ _ => some { st with sync := .idle }
    | _ => none
  | .finish =>
    match st.sync with
    | .finishing =>
      some { st with
        verifier := { st.verifier with syncedAt := some st.now }
        sync := .idle }
    | _ => none
  | .refreshKeys ks =>
    some { st with verifier := { st.verifier with keySet := ks } }
  | .verify waits answer tok =>
    some { st with
      now := st.now + waits.refresh + waits.again + waits.judge
      verifier := (st.verifier.verify st.now waits answer tok).2 }
  | .advance elapsed => some { st with now := st.now + elapsed }

/-- After a call that refuses a token as revoked, no call accepts the token. -/
def RefusesForGood (init : State) : Prop :=
  ∀ (pre post : List Move) (reached later : State) (tok : Bearer) (waits waits' : Waits)
    (answer answer' : Option KeySet) (identity : Identity),
    run step init pre = some reached →
    (reached.verifier.verify reached.now waits answer tok).1 = .error .revoked →
    run step reached (.verify waits answer tok :: post) = some later →
    (later.verifier.verify later.now waits' answer' tok).1 ≠ .ok identity

/-! ### What an answer tells -/

section Answers

variable {vf : Verifier} {cfg : Config} {now : Int} {tok : Bearer} {cl : Claims}

/-- An accepted token is inside its lifetime, which is at most the ceiling. -/
theorem verifyToken_eq_ok {lookup : KeySet} (checked : verifyToken cfg now lookup tok = .ok cl) :
    cl = tok.claims ∧ ∃ issuedAt, cl.issuedAt = some issuedAt
      ∧ now < issuedAt * second + maxTokenLifetime + allowedSkew cfg.skew := by
  unfold verifyToken Claims.valid at checked
  have apart : ∀ left right : Int, (left - right) * second = left * second - right * second :=
    fun left right => Int.sub_mul left right second
  grind

/-- A call that gets past the token judges the token's claims. -/
theorem verify_judged {waits : Waits} {answer : Option KeySet}
    {out : Except VerifyError Identity}
    (returned : (vf.verify now waits answer tok).1 = out)
    (past : ∀ error, out ≠ .error (.token error)) :
    ∃ ins later ks, now ≤ ins ∧ verifyToken vf.config ins ks tok = .ok tok.claims
      ∧ vf.judge later tok.claims = out := by
  unfold Verifier.verify at returned
  split at returned
  case h_1 cl checked =>
    obtain ⟨rfl, -⟩ := verifyToken_eq_ok checked
    exact ⟨now, _, _, le_refl now, checked, returned⟩
  case h_2 =>
    dsimp only at returned
    split_ifs at returned
    · split at returned
      case h_1 => exact absurd returned.symm (past _)
      case h_2 ks =>
        split at returned
        case h_1 cl checked =>
          obtain ⟨rfl, -⟩ := verifyToken_eq_ok checked
          exact ⟨_, _, ks, by omega, checked, returned⟩
        case h_2 => exact absurd returned.symm (past _)
    · exact absurd returned.symm (past _)
  case h_3 => exact absurd returned.symm (past _)

theorem of_judge_revoked (judged : vf.judge now cl = .error .revoked) :
    vf.feed = true ∧ vf.revoked cl = true := by
  grind [Verifier.judge]

theorem of_judge_ok {identity : Identity} (judged : vf.judge now cl = .ok identity) :
    vf.feed = false ∨ vf.revoked cl = false := by
  grind [Verifier.judge]

end Answers

/-! ### Entries along a run -/

/-- The verifier has each of the entries, or is past the instant up to which it keeps it. -/
structure Remembers (cfg : Config) (feed : Bool) (entries : List Revocation) (st : State) :
    Prop where
  sameConfig : st.verifier.config = cfg
  sameFeed : st.verifier.feed = feed
  kept : ∀ e ∈ entries, e ∈ st.verifier.entries ∨ e.ts + cfg.retention ≤ st.now

theorem verify_keeps {vf : Verifier} {now : Int} {waits : Waits} {answer : Option KeySet}
    {tok : Bearer} : (vf.verify now waits answer tok).2.config = vf.config
      ∧ (vf.verify now waits answer tok).2.feed = vf.feed
      ∧ (vf.verify now waits answer tok).2.entries = vf.entries := by
  unfold Verifier.verify
  refine ⟨?_, ?_, ?_⟩ <;> grind

theorem Remembers.step {cfg : Config} {feed : Bool} {entries : List Revocation}
    {st next : State} {move : Move} (remembers : Remembers cfg feed entries st)
    (taken : step st move = some next) : Remembers cfg feed entries next := by
  obtain ⟨sameConfig, sameFeed, kept⟩ := remembers
  cases move with
  | verify waits answer tok =>
    cases taken
    have keeps := @verify_keeps st.verifier st.now waits answer tok
    constructor <;> grind
  | answer page cursor =>
    -- only here an entry goes, and then its time is over
    simp only [Offline.step] at taken
    split at taken
    case h_1 =>
      cases taken
      refine ⟨sameConfig, sameFeed, fun e mem => ?_⟩
      simp only [Verifier.take, Verifier.forgetExpired, List.mem_filter, List.mem_append,
        sameConfig]
      grind
    case h_2 => cases taken
  | _ => grind [Offline.step, Remembers]

theorem new_skew (cfg : Config) (feed : Bool) :
    0 < (new cfg feed).config.skew ∧ allowedSkew (new cfg feed).config.skew
      = (new cfg feed).config.skew := by
  have positive : 0 < 60 * second := by decide
  simp only [new, allowedSkew]
  grind

/-! ### For good -/

/-- An entry that revoked a token is forgotten only when the token is past its time. -/
theorem refusesForGood {cfg : Config} {feed : Bool} {now : Int}
    (long : feed = false ∨ maxTokenLifetime + (new cfg feed).config.skew
      ≤ (new cfg feed).config.retention) :
    RefusesForGood ⟨now, new cfg feed, .idle⟩ := by
  intro pre post reached later tok waits waits' answer answer' identity ran refused ranOn accepted
  have fixed : Remembers (new cfg feed).config feed [] reached :=
    run_preserves_always (fun _ _ _ => Remembers.step) ⟨rfl, rfl, nofun⟩ ran
  have remembered : Remembers (new cfg feed).config feed reached.verifier.entries later :=
    run_preserves_always (fun _ _ _ => Remembers.step)
      ⟨fixed.sameConfig, fixed.sameFeed, fun _ => Or.inl⟩ ranOn
  obtain ⟨_, _, _, -, -, judged⟩ := verify_judged refused nofun
  obtain ⟨isFeed, isRevoked⟩ := of_judge_revoked judged
  obtain ⟨e, mem, revokes⟩ := List.any_eq_true.mp isRevoked
  obtain ⟨ins, _, _, notBefore, checked, judged⟩ := verify_judged accepted nofun
  obtain ⟨-, issuedAt, isIssued, pre⟩ := verifyToken_eq_ok checked
  rw [remembered.sameConfig, (new_skew cfg feed).2] at pre
  have dated : issuedAt ≤ unix e.ts := by grind [Revocation.revokes]
  have since : issuedAt * second ≤ e.ts := by
    have positive : 0 < second := by decide
    exact (Int.le_ediv_iff_mul_le positive).mp dated
  rcases remembered.kept e mem with held | forgotten
  · have : later.verifier.revoked tok.claims = true := List.any_eq_true.mpr ⟨e, held, revokes⟩
    grind [of_judge_ok, remembered.sameFeed, fixed.sameFeed]
  · grind [fixed.sameFeed]

/-! ### A retention that is too short -/

/-- A token every such verifier may get, issued at 0 with the longest lifetime. -/
def longest (cfg : Config) : Bearer where
  length := 1
  algorithm := "EdDSA"
  kid := "k"
  signer := 1
  claims := {
    id := "j", issuer := cfg.issuer, subject := "u", sessionID := "s"
    tenantID := if cfg.tenantID = "" then "t" else cfg.tenantID
    roles := [], amr := [], audience := [cfg.audience]
    issuedAt := some 0, notBefore := some 0, expiresAt := some (15 * 60) }

/-- The revocation of its session in the second of its issue. -/
def revocation : Revocation := ⟨0, .session, "s", ""⟩

def atOnce : Waits := ⟨0, 0, 0⟩

/-- The verifier after a sync at `now`, with the entries it holds then. -/
def synced (cfg : Config) (now : Int) (entries : List Revocation) : State where
  now := now
  verifier := { new cfg true with
    keySet := fun _ => some 1, entries := entries, cursor := "c", syncedAt := some now }
  sync := .idle

/-- Until the token is over, the entries alone decide about it. -/
theorem verify_longest {cfg : Config} {now : Int} {entries : List Revocation}
    (started : 0 ≤ now) (early : now < maxTokenLifetime + (new cfg true).config.skew) :
    (synced cfg now entries).verifier.verify (synced cfg now entries).now atOnce none (longest cfg)
      = (if entries.any (Revocation.revokes (longest cfg).claims) then .error .revoked
        else .ok (longest cfg).claims.identity, (synced cfg now entries).verifier) := by
  have skew := new_skew cfg true
  have patient : 0 < (new cfg true).config.maxStale := by
    have positive : 0 < 60 * minute := by decide
    grind [new, orDefault]
  have valid : (longest cfg).claims.valid (new cfg true).config.issuer
      (allowedSkew (new cfg true).config.skew) now = true := by
    have life : 15 * 60 * second = maxTokenLifetime := rfl
    have issuer : (new cfg true).config.issuer = cfg.issuer := rfl
    simp only [skew.2, issuer, Claims.valid, longest, Option.any_some, Option.all_some, life,
      beq_self_eq_true, Bool.or_true, Bool.true_and, Bool.and_eq_true, decide_eq_true_eq]
    omega
  have checked : verifyToken (new cfg true).config now (fun _ => some 1) (longest cfg)
      = .ok (longest cfg).claims := by
    unfold verifyToken
    rw [valid]
    have inside : ¬(15 * 60 - 0) * second > maxTokenLifetime := by decide
    grind [longest]
  have judged : (synced cfg now entries).verifier.judge now (longest cfg).claims
      = if entries.any (Revocation.revokes (longest cfg).claims) then .error .revoked
        else .ok (longest cfg).claims.identity := by
    grind [Verifier.judge, Verifier.revoked, synced, longest, new]
  rw [← judged]
  simp [Verifier.verify, synced, checked, atOnce]

/-- The sync at the end of the retention forgets the entry before the token is over. -/
theorem not_refusesForGood {cfg : Config} (short : (new cfg true).config.retention
      < maxTokenLifetime + (new cfg true).config.skew) :
    ¬RefusesForGood ⟨0, new cfg true, .idle⟩ := by
  have positive : 0 < (new cfg true).config.retention := by
    have default : 0 < 60 * minute := by decide
    grind [new, orDefault]
  have skew := (new_skew cfg true).1
  have life : 0 < maxTokenLifetime := by decide
  have revokes : Revocation.revokes (longest cfg).claims revocation = true := rfl
  have refused := @verify_longest cfg 0 [revocation] (le_refl 0) (by omega)
  have accepted := @verify_longest cfg (new cfg true).config.retention [] (by omega) short
  have feed : (new cfg true).feed = true := rfl
  have empty : (new cfg true).entries = [] ∧ (new cfg true).cursor = "" := ⟨rfl, rfl⟩
  intro refuses
  refine refuses
    [.refreshKeys fun _ => some 1, .begin, .answer [revocation] "c", .answer [] "c", .finish]
    [.advance (new cfg true).config.retention.toNat, .begin, .answer [] "c", .finish]
    (synced cfg 0 [revocation]) (synced cfg (new cfg true).config.retention [])
    (longest cfg) atOnce atOnce none none (longest cfg).claims.identity ?_ ?_ ?_ ?_
  · simp [run, step, synced, Verifier.take, Verifier.forgetExpired, revocation, positive, feed,
      empty, maxPages]
  · rw [refused]
    simp [revokes]
  · simp only [run, step, refused]
    simp [synced, Verifier.take, Verifier.forgetExpired, revocation, feed, atOnce]
    omega
  · rw [accepted]
    rfl

/-- Exactly the configurations that keep an entry for as long as a token may be accepted. -/
theorem revoked_token_refused_for_good_iff (cfg : Config) (feed : Bool) :
    (∀ now, RefusesForGood ⟨now, new cfg feed, .idle⟩) ↔
      feed = false ∨ maxTokenLifetime + (new cfg feed).config.skew
        ≤ (new cfg feed).config.retention := by
  constructor
  · intro refuses
    cases feed with
    | false => exact Or.inl rfl
    | true => exact Or.inr (Int.not_lt.mp fun short => not_refusesForGood short (refuses 0))
  · exact fun long now => refusesForGood long

/-- A verifier that keeps the feed for a minute. -/
def shortMemory : Config := ⟨"", "", "", 0, 0, 0, minute⟩

/-- A revoked token is accepted again a minute later. -/
theorem short_memory_accepts_revoked : ¬RefusesForGood ⟨0, new shortMemory true, .idle⟩ :=
  not_refusesForGood (by decide)

end TangraAuth.AuthClient.Offline

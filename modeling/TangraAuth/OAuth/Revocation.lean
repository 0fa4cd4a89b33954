import TangraAuth.OAuth.Flows
import TangraAuth.Session.Publication
import TangraAuth.Session.Revocation

/-!
Contract: tokens minted after a revocation of their session.

Owns: what it means that such tokens are refused by a verifier that holds the feed,
for which interleavings they are, and the code that outlives a revocation.

Does not own: how the verifier came to hold the feed.
-/

namespace TangraAuth.OAuth

open Library Store
open TangraAuth.AuthClient (Claims Verifier Identity concerns unix)
open TangraAuth.Session (Actor Secret Consistent Published LiveAt RowRevoked Revokes About)

variable {H E : Type} [DecidableEq H]

/-! ### The property -/

/-- In every permitted interleaving: a token minted for a session after a revocation that covers
the session has succeeded is never accepted by a verifier that holds the whole feed. -/
def RevokedTokensRefused (crypto : Crypto H E)
    (permitted : Pool (Shared H E) Flow → Move Flow Choice (Event E) → Prop)
    (init : Pool (Shared H E) Flow) : Prop :=
  ∀ (pre between post : List (Move Flow Choice (Event E)))
    (revocation : Session.Operation) (slot : Nat) (choice : Choice)
    (live revoked ready minted fin : Pool (Shared H E) Flow)
    (tok : Token.SignedToken) (cl : Claims),
    EveryStep (program crypto).step permitted init
      (pre ++ .environment (.session revocation) :: (between ++ .act slot choice :: post)) →
    run (program crypto).step init pre = some live →
    Revokes live.shared.session cl.sessionID revocation →
    (program crypto).step live (.environment (.session revocation)) = some revoked →
    run (program crypto).step revoked between = some ready →
    (program crypto).step ready (.act slot choice) = some minted →
    minted.shared.tokens = ready.shared.tokens ++ [tok] →
    tok.body = .access cl →
    run (program crypto).step minted post = some fin →
    ∀ (vf : Verifier), (∀ e ∈ fin.shared.session.feed, e ∈ vf.entries) →
      ∀ (now : Int) (identity : Identity), vf.verify now cl ≠ .ok identity

/-- At the minting: whatever was published about the session since its actor was resolved is
dated in the current second, and the session has not expired. -/
def Prompt (sh : Shared H E) (req : Token.Request) (checkedAt : Int) : Prop :=
  (∀ e ∈ sh.session.feed, concerns (Token.accessClaims sh.config sh.session.now req) e = true →
    checkedAt ≤ e.ts → unix sh.session.now ≤ unix e.ts)
  ∧ ∀ row ∈ sh.session.sessions, row.id = req.sessionID → sh.session.now < row.expiresAt

/-- No insertion into the feed fails, and every minting is prompt. -/
def PromptMoves (pl : Pool (Shared H E) Flow) : Move Flow Choice (Event E) → Prop
  | .act slot choice => choice.faults.FeedWritable ∧
      ∀ req checkedAt, pl.flows slot = some (.mint req checkedAt) → Prompt pl.shared req checkedAt
  | .environment (.session op) => op.FeedWritable
  | _ => True

/-! ### The invariant -/

variable {crypto : Crypto H E} {life : TenantID → Int}

structure SharedSound (crypto : Crypto H E) (life : TenantID → Int)
    (sh : Shared H E) : Prop where
  consistent : Consistent crypto.hashToken life Session.revocationRetention sh.session
  published : Published sh.session
  codes : ∀ hash e, sh.codes hash = some e →
    LiveAt sh.session e.value.tenantID e.value.userID e.value.sessionID e.value.checkedAt

/-- What a call takes along was live when its actor was resolved. -/
def FlowLive (sh : Shared H E) : Flow → Prop
  | .authorized a checkedAt _ =>
    LiveAt sh.session a.tenantID a.userID a.sessionID checkedAt
  | .found _ pending | .taken _ pending =>
    LiveAt sh.session pending.tenantID pending.userID pending.sessionID pending.checkedAt
  | .mint req checkedAt =>
    LiveAt sh.session req.tenantID req.userID req.sessionID checkedAt
  | _ => True

variable {sh : Shared H E}

omit [DecidableEq H] in
theorem FlowLive.mono {next : Shared H E} {f : Flow} (live : FlowLive sh f)
    (kept : ∀ tid uid id checkedAt, LiveAt sh.session tid uid id checkedAt →
      LiveAt next.session tid uid id checkedAt) : FlowLive next f := by
  cases f with
  | authorize | redeem | exchange | mintToken => exact True.intro
  | authorized a checkedAt req | found req pending | taken req pending
  | mint req checkedAt => exact kept _ _ _ _ live

theorem SharedSound.step {sh : Shared H E}
    (sound : SharedSound crypto life sh) {op : Session.Operation}
    (writable : op.FeedWritable) {sess : Session.State H}
    (taken : Session.step crypto.hashToken sh.session op = some sess) :
    SharedSound crypto life { sh with session := sess } where
  consistent := Session.step_preserves_consistent (le_refl _) _ _ _ sound.consistent writable taken
  published := sound.published.step writable taken
  codes := fun hash e stored => (sound.codes hash e stored).step taken

variable {fs : Session.Faults}

theorem SharedSound.resolved (sound : SharedSound crypto life sh)
    (writable : fs.FeedWritable) (sec : Secret) (continues : Actor → Flow) :
    SharedSound crypto life (sh.resolved crypto fs sec continues).1 := by
  rw [resolved_session]
  exact @SharedSound.step _ _ _ _ _ _ sound (.resolve fs sec) writable _ rfl

theorem SharedSound.liveAt_resolve (sound : SharedSound crypto life sh) {sec : Secret}
    {a : Actor}
    (resolved : (sh.session.resolve crypto.hashToken fs sec).2 = .ok a) :
    LiveAt (sh.session.resolve crypto.hashToken fs sec).1 a.tenantID a.userID
      a.sessionID sh.session.now := by
  obtain ⟨row, mem, id, tid, uid, unrevoked⟩ :=
    sound.consistent.resolve_unrevoked resolved
  have pre : LiveAt sh.session a.tenantID a.userID a.sessionID sh.session.now := by
    refine ⟨le_refl _, row, mem, id, tid, uid, ?_⟩
    intro date revoked
    rw [unrevoked] at revoked
    cases revoked
  exact @LiveAt.step _ _ crypto.hashToken _ _ _ _ _ _ pre (.resolve fs sec) rfl

omit [DecidableEq H] in
theorem liveAt_byID {st : Session.State H} {tid : TenantID} {id : SessionID}
    {a : Actor} (found : st.byID fs tid id = .ok a) :
    LiveAt st a.tenantID a.userID a.sessionID st.now := by
  unfold Session.State.byID at found
  split_ifs at found
  split at found
  · cases found
  · rename_i row isRow
    split at found
    · cases found
    · rename_i v built
      split_ifs at found
      cases found
      obtain ⟨unrevoked, -, -, -, isID, isT, isUser, -⟩ := Session.viewOfRow_eq_ok built
      refine ⟨le_refl _, row, (getSession_eq_some isRow).1, isID.symm, isT.symm, isUser.symm, ?_⟩
      grind

theorem LiveAt.moves {sess next : Session.State H} (moves : SessionMoves crypto sess next)
    {tid : TenantID} {uid : UserID} {id : SessionID} {checkedAt : Int}
    (live : LiveAt sess tid uid id checkedAt) :
    LiveAt next tid uid id checkedAt := by
  grind [LiveAt.step, SessionMoves]

/-- One access of a call keeps the shared invariant, and what the call goes on with is live. -/
theorem act_sound (sound : SharedSound crypto life sh) {f : Flow}
    (live : FlowLive sh f) {choice : Choice} (writable : choice.faults.FeedWritable) :
    SharedSound crypto life (act crypto sh f choice).1
      ∧ ∀ next, (act crypto sh f choice).2 = some next →
        FlowLive (act crypto sh f choice).1 next := by
  cases f with
  | authorize sec req | exchange sec audience =>
    simp only [act]
    refine ⟨sound.resolved writable sec _, ?_⟩
    intro next goesOn
    obtain ⟨a, resolved, rfl⟩ := resolved_flow goesOn
    rw [resolved_session]
    exact sound.liveAt_resolve resolved
  | authorized a checkedAt req =>
    simp only [act]
    split
    · exact ⟨sound, fun _ impossible => (by cases impossible)⟩
    · rename_i client _
      split
      · exact ⟨sound, fun _ impossible => (by cases impossible)⟩
      · rename_i codes issued
        obtain ⟨pending, rfl, isT, isUser, isSession, isChecked⟩ := issueCode_eq_ok issued
        refine ⟨⟨sound.consistent, sound.published, ?_⟩, fun _ impossible => (by cases impossible)⟩
        intro hash e stored
        rcases ExpiringMap.set_apply_eq_some stored with ⟨-, rfl⟩ | ⟨-, kept⟩
        · dsimp only
          rw [isT, isUser, isSession, isChecked]
          exact live
        · exact sound.codes hash e kept
  | redeem req =>
    simp only [act]
    split
    · exact ⟨sound, fun _ impossible => (by cases impossible)⟩
    · rename_i pending cached
      refine ⟨sound, ?_⟩
      intro next goesOn
      cases goesOn
      obtain ⟨e, stored, -, rfl⟩ := (ExpiringMap.get_eq_some_iff _ _ _ _).mp cached
      exact sound.codes _ e stored
  | found req pending =>
    refine ⟨⟨sound.consistent, sound.published, ?_⟩, ?_⟩
    · intro hash e stored
      exact sound.codes hash e (ExpiringMap.del_apply_eq_some stored).2
    · intro next goesOn
      cases goesOn
      exact live
  | taken req pending =>
    simp only [act]
    grind [exchangeFor, FlowLive]
  | mintToken tid id audience =>
    simp only [act]
    grind [liveAt_byID, mintRequest, FlowLive]
  | mint req checkedAt =>
    simp only [act]
    split
    · exact ⟨sound, fun _ impossible => (by cases impossible)⟩
    · exact ⟨⟨sound.consistent, sound.published, sound.codes⟩,
        fun _ impossible => (by cases impossible)⟩

theorem obligations :
    (program crypto).Obligations (SharedSound crypto life) FlowLive PromptMoves where
  entry := by
    intro sh f _ allowed
    cases f with
    | authorize | redeem | exchange | mintToken => exact True.intro
    | authorized | found | taken | mint => cases allowed
  act := by
    intro pl slot f choice sh rest sound locals held permitted acted
    have isNext : act crypto pl.shared f choice = (sh, rest) := Option.some.inj acted
    obtain ⟨stillSound, goesOn⟩ := act_sound sound (locals slot f held) permitted.1
    grind [act_session, FlowLive.mono, LiveAt.moves, Pool.All]
  environment := by
    intro pl event sh sound locals permitted moved
    cases event with
    | session op =>
      obtain ⟨sess, taken, rfl⟩ := Option.map_eq_some_iff.mp moved
      grind [SharedSound.step, FlowLive.mono, LiveAt.step, Pool.All, PromptMoves]
    | client clientID client | rekey ks =>
      cases moved
      exact ⟨⟨sound.consistent, sound.published, sound.codes⟩,
        fun slot held isHeld => (locals slot held isHeld).mono fun _ _ _ _ live => live⟩

/-! ### Every run -/

theorem step_session {pl next : Pool (Shared H E) Flow}
    {move : Move Flow Choice (Event E)}
    (taken : (program crypto).step pl move = some next) :
    SessionMoves crypto pl.shared.session next.shared.session := by
  cases move with
  | spawn slot f =>
    grind [SessionMoves, Program.step]
  | act slot choice =>
    obtain ⟨f, sh, rest, -, acted, rfl⟩ := Program.step_act taken
    grind [act_session, program]
  | drop slot =>
    cases taken
    exact Or.inl rfl
  | environment event =>
    obtain ⟨sh, moved, rfl⟩ := Program.step_environment taken
    cases event with
    | session op =>
      obtain ⟨sess, operated, rfl⟩ := Option.map_eq_some_iff.mp moved
      exact Or.inr ⟨op, operated⟩
    | client clientID client | rekey ks =>
      cases moved
      exact Or.inl rfl

theorem run_keeps_session (property : Session.State H → Prop)
    (kept : ∀ sess op next, property sess →
      Session.step crypto.hashToken sess op = some next → property next)
    {pl fin : Pool (Shared H E) Flow} {moves : List (Move Flow Choice (Event E))}
    (holds : property pl.shared.session)
    (reaches : run (program crypto).step pl moves = some fin) :
    property fin.shared.session := by
  have stepKeeps : ∀ (first : Pool (Shared H E) Flow) move next,
      property first.shared.session → (program crypto).step first move = some next →
      property next.shared.session := by
    intro first move next held taken
    rcases step_session taken with same | ⟨op, operated⟩
    · rw [same]
      exact held
    · exact kept _ op _ held operated
  exact @run_preserves_always _ _ _ (fun pl => property pl.shared.session) stepKeeps _ _ _
    holds reaches

omit [DecidableEq H] in
theorem concerns_of_about {row : Store.Session H} {e : Revocation} {cl : Claims}
    (about : About row e) (id : row.id = cl.sessionID)
    (tid : row.tenantID = cl.tenantID) (uid : row.userID = cl.subject) :
    concerns cl e = true := by
  unfold About at about
  unfold concerns
  grind

omit [DecidableEq H] in
/-- A prompt minting for a session whose row is revoked: the feed has an entry about the token,
dated no earlier than its issue. -/
theorem SharedSound.entry_of_prompt (sound : SharedSound crypto life sh)
    {req : Token.Request} {checkedAt : Int} (live : FlowLive sh (.mint req checkedAt))
    (prompt : Prompt sh req checkedAt)
    (revoked : RowRevoked sh.session req.sessionID) :
    ∃ e ∈ sh.session.feed, concerns (Token.accessClaims sh.config sh.session.now req) e = true
        ∧ unix sh.session.now ≤ unix e.ts := by
  obtain ⟨-, row, mem, isID, isT, isUser, dated⟩ := live
  obtain ⟨other, otherMem, otherID, isRevoked⟩ := revoked
  have same : other = row :=
    eq_of_uniqueKey sound.consistent.ids otherMem mem (otherID.trans isID.symm)
  rw [same] at isRevoked
  obtain ⟨date, isDate⟩ := Option.isSome_iff_exists.mp isRevoked
  have checked := dated date isDate
  obtain ⟨past, expired | ⟨e, entryMem, about, isTs⟩⟩ :=
    sound.published row mem date isDate
  · have unexpired := prompt.2 row mem isID
    omega
  · have concerned : concerns (Token.accessClaims sh.config sh.session.now req) e
        = true := concerns_of_about about isID isT isUser
    exact ⟨e, entryMem, concerned, prompt.1 e entryMem concerned (by rw [isTs]; exact checked)⟩

/-- No call is in flight, no code is out and no token was minted. -/
def initial (now : Int) (tns : TenantID → Option Store.Tenant)
    (roles : TenantID → UserID → List Slug)
    (users : TenantID → UserID → Option Session.Profile)
    (clients : String → Option (ClientApplication E)) (cfg : Token.Config)
    (ks : Token.Keys) : Pool (Shared H E) Flow where
  shared :=
    { session := Session.initial now tns roles users, clients := clients, codes := .empty
      config := cfg, keys := ks, tokens := [] }
  flows _ := none

/-- Where no view outlives a mark, the feed takes every entry and mintings are prompt, tokens
minted after a revocation are refused. -/
theorem revoked_tokens_refused_of_prompt (crypto : Crypto H E) (now : Int)
    (tns : TenantID → Option Store.Tenant) (roles : TenantID → UserID → List Slug)
    (users : TenantID → UserID → Option Session.Profile)
    (clients : String → Option (ClientApplication E)) (cfg : Token.Config)
    (ks : Token.Keys)
    (accepted : ∀ tid tn, tns tid = some tn → tn.policy.validate = .ok ())
    (short : ∀ tid tn, tns tid = some tn → tn.policy.idleTimeout ≤ Session.revocationRetention) :
    RevokedTokensRefused crypto PromptMoves (initial now tns roles users clients cfg ks) := by
  intro pre between post revocation slot choice live revoked ready minted fin tok cl
    prompt begins revokes ends continues mints isMinted isAccess finishes vf holds ins
    identity
  have tenantsSound := Session.tenantsSound_of_short accepted short
  have startSound : SharedSound crypto _
      (initial now tns roles users clients cfg ks : Pool (Shared H E) Flow).shared :=
    ⟨Session.consistent_initial now roles users tenantsSound,
      fun _ mem => (nomatch mem), fun _ _ stored => (nomatch stored)⟩
  -- The run up to the minting.
  rw [← List.cons_append, ← List.append_assoc, everyStep_append] at prompt
  obtain ⟨promptBefore, promptAfter⟩ := prompt
  have reachesReady : run (program crypto).step (initial now tns roles users clients cfg ks)
      (pre ++ .environment (.session revocation) :: between) = some ready := by
    rw [run_append_eq_some]
    exact ⟨live, begins, run_cons_eq_some.mpr ⟨revoked, ends, continues⟩⟩
  obtain ⟨sound, flowsLive⟩ := Program.run_preserves obligations
    ⟨startSound, fun _ _ found => (nomatch found)⟩ promptBefore reachesReady
  have promptMint := (promptAfter ready reachesReady).1
  -- The token is the one of a minting call.
  obtain ⟨f, sh, rest, held, acted, rfl⟩ := Program.step_act mints
  have isNext : act crypto ready.shared f choice = (sh, rest) := Option.some.inj acted
  have added : (act crypto ready.shared f choice).1.tokens = ready.shared.tokens ++ [tok] := by
    rw [isNext]
    exact isMinted
  obtain ⟨req, checkedAt, rfl, issued⟩ := act_tokens added
  have isClaims : cl = Token.accessClaims ready.shared.config ready.shared.session.now
      req := by
    rw [Token.issue_eq_ok issued] at isAccess
    exact (Token.Body.access.inj isAccess).symm
  subst isClaims
  -- Its session's row is still revoked.
  have marked : RowRevoked ready.shared.session req.sessionID := by
    obtain ⟨marks, moved, rfl⟩ := Program.step_environment ends
    obtain ⟨sess, operated, rfl⟩ := Option.map_eq_some_iff.mp moved
    refine run_keeps_session (fun sess => RowRevoked sess req.sessionID) ?_
      (Session.rowRevoked_of_revokes revokes operated) continues
    intro first op next isRevoked taken
    exact isRevoked.persists (Session.step_writes taken).persists
  obtain ⟨e, mem, concerned, dated⟩ :=
    sound.entry_of_prompt (flowsLive slot _ held) (promptMint.2 req checkedAt held) marked
  -- The entry stays in the feed.
  have stays : ∀ e ∈ ready.shared.session.feed, e ∈ fin.shared.session.feed := by
    intro e mem
    have reachesFinal : run (program crypto).step ready (.act slot choice :: post) = some fin :=
      run_cons_eq_some.mpr ⟨_, mints, finishes⟩
    refine run_keeps_session (fun sess => e ∈ sess.feed) ?_ mem reachesFinal
    intro first op next inFeed taken
    exact Session.step_feed_grows taken e inFeed
  exact AuthClient.not_verify_of_mem (holds e (stays e mem)) concerned dated ins identity

namespace Sample

def primitives : Crypto Code Unit := ⟨fun code => code, fun verifier => verifier, fun _ _ => false⟩

def verifier : Text := List.replicate 43 'a'

/-- A public client of tenant 1. -/
def client : ClientApplication Unit := ⟨"app", 1, ["https://app/cb"], true, none⟩

def keys : Token.Keys := ⟨[], [⟨⟨1, 11, .active, 0, none, none⟩, true⟩]⟩

def config : Token.Config := Token.Config.normalize ⟨0, 0, 0, 0⟩

/-- Default policies, one client, one key. -/
def start : Pool (Shared Code Unit) Flow :=
  initial 0 (fun _ => some ⟨.customer, .active, Tenant.defaultPolicy⟩) (fun _ _ => [])
    (fun _ _ => none) (fun clientID => if clientID = "app" then some client else none) config keys

def quiet : Choice := ⟨Session.noFaults, [9]⟩

def signIn : Move Flow Choice (Event Unit) :=
  .environment (.session (.create Session.noFaults 1 7 [] [] 5 [1]))

def deactivation : Session.Operation :=
  .revokeUser Session.noFaults 1 7 .userDeactivated none

/-- An exchange whose session is revoked between its resolution and its minting, at one
instant. -/
def exchanged : List (Move Flow Choice (Event Unit)) :=
  [signIn, .spawn 0 (.exchange [1] none), .act 0 quiet, .environment (.session deactivation),
    .act 0 quiet]

/-- A code is issued. -/
def authorized : List (Move Flow Choice (Event Unit)) :=
  [signIn, .spawn 0 (.authorize [1] ⟨"app", "https://app/cb", verifier⟩), .act 0 quiet,
    .act 0 quiet]

/-- A second later it is redeemed. -/
def redeemed : List (Move Flow Choice (Event Unit)) :=
  [.environment (.session (.advance 1000000000)),
    .spawn 1 (.redeem ⟨"authorization_code", [9], "https://app/cb", "app", verifier, ""⟩),
    .act 1 quiet, .act 1 quiet, .act 1 quiet]

/-- The claims of the token of the redeemed code. -/
def claims : Claims := ⟨7, 1, 5, [], [], ["app"], 1, 901⟩

/-- A verifier that holds the feed. -/
def synced : Verifier :=
  { AuthClient.newVerifier ⟨none, none, 0, 0⟩ with
    entries := [⟨0, .user 7, 1, .userDeactivated⟩], syncedAt := some 1000000000 }

end Sample

theorem revoked_tokens_refused_under_default_policy :
    RevokedTokensRefused Sample.primitives PromptMoves Sample.start
      ∧ EveryStep (program Sample.primitives).step PromptMoves Sample.start Sample.exchanged
      ∧ ∃ fin, run (program Sample.primitives).step Sample.start Sample.exchanged = some fin
        ∧ fin.shared.tokens ≠ [] := by
  refine ⟨?_, ?_, _, rfl, List.cons_ne_nil _ _⟩
  · apply revoked_tokens_refused_of_prompt
    · intro _ tn found
      cases found
      rfl
    · intro _ tn found
      cases found
      decide
  · iterate 4
      refine ⟨?_, ?_⟩
      · first
        | exact fun _ => rfl
        | exact True.intro
        | exact ⟨fun _ => rfl, fun _ _ isMint => (nomatch isMint)⟩
      intro next taken
      cases taken
    refine ⟨⟨fun _ => rfl, ?_⟩, fun _ _ => True.intro⟩
    intro req checkedAt isMint
    cases isMint
    refine ⟨?_, ?_⟩
    · intro e mem _ _
      cases List.mem_singleton.mp mem
      decide
    · intro row mem _
      cases List.mem_singleton.mp mem
      decide

/-- The code outlives the revocation, and the token minted for it is dated after the feed's
entry. -/
theorem code_outlives_revocation :
    ¬ RevokedTokensRefused Sample.primitives (fun _ _ => True) Sample.start := by
  intro refused
  have everyStep : ∀ (moves : List (Move Flow Choice (Event Unit))) pl,
      EveryStep (program Sample.primitives).step (fun _ _ => True) pl moves :=
    fun moves pl => everyStep_of_forall_mem (fun _ _ => True.intro) pl
  refine refused Sample.authorized Sample.redeemed [] Sample.deactivation 1 Sample.quiet
    _ _ _ _ _ ⟨1, 11, .access Sample.claims⟩ Sample.claims (everyStep _ _) rfl
    ⟨⟨_, List.mem_singleton.mpr rfl, rfl, rfl, rfl⟩, by decide, rfl⟩ rfl rfl rfl rfl rfl rfl
    Sample.synced ?_ 1000000000 ⟨7, 1, 5, [], [], some "app", 1, 901⟩ rfl
  intro e mem
  exact mem

end TangraAuth.OAuth

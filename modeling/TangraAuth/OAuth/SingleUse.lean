import TangraAuth.Library.Redemptions
import TangraAuth.OAuth.Revocation

/-!
Contract: the single use of authorization codes.

Owns: the calls over a cache that may fail, the tokens each code has yielded, for which
interleavings of `Redeem` a code yields at most one, and two calls that share a code.

Does not own: what is in the tokens.
-/

namespace TangraAuth.OAuth

open Library Store

variable {H E : Type} [DecidableEq H]

/-! ### A cache that may fail -/

/-- `fails` says that the call of the cache made in this access fails. -/
structure Access where
  choice : Choice
  fails : Bool

/-- One access over a cache that may fail: a code that cannot be stored or read ends the call, a
failed deletion is ignored. -/
def cacheAct (crypto : Crypto H E) (sh : Shared H E) (f : Flow)
    (access : Access) : Shared H E × Option Flow :=
  match access.fails, f with
  | true, .authorized _ _ _ | true, .redeem _ => (sh, none)
  | true, .found req pending => (sh, some (.taken req pending))
  | _, _ => act crypto sh f access.choice

def cacheProgram (crypto : Crypto H E) : Program (Shared H E) Flow Access (Event E) where
  entry _ f := starts f
  act sh f access := some (cacheAct crypto sh f access)
  environment := environment crypto

/-! ### The tokens of a code -/

/-- The key of the code a call redeems. -/
def Flow.redeems (crypto : Crypto H E) : Flow → Option H
  | .redeem req | .found req _ | .taken req _ => some (crypto.hashToken req.code)
  | _ => none

/-- The code is out of the store and its token is not minted yet. -/
def Flow.holdsCode : Flow → Bool
  | .taken _ _ | .mint _ _ => true
  | _ => false

/-- The access mints a token. -/
def mints (sh : Shared H E) (f : Flow) (_ : Access) : Bool :=
  match f with
  | .mint req _ =>
    (Token.issue sh.config sh.keys sh.session.now req).toBool
  | _ => false

/-- Codes as tickets: stored until they are deleted, used by the minting of a token. -/
def codes (crypto : Crypto H E) : Redemption (Shared H E) Flow Access H where
  stored sh key := (sh.codes key).isSome = true
  names := Flow.redeems crypto
  holds := Flow.holdsCode
  uses := mints

/-- The calls, with a log of the key of its code for every token that `Redeem` returns. -/
def redemptions (crypto : Crypto H E) :
    Program (Recorded (Shared H E) H) (Tagged (Option H) Flow) Access (Event E) :=
  (codes crypto).logged (cacheProgram crypto)

/-- The deletion of a code succeeds and finds the code that the call has read; generated codes
are fresh. -/
def TakesStored (crypto : Crypto H E)
    (pl : Pool (Recorded (Shared H E) H) (Tagged (Option H) Flow)) :
    Move (Tagged (Option H) Flow) Access (Event E) → Prop
  | .act slot access =>
    match pl.flows slot with
    | some ⟨_, .found req _⟩ =>
      access.fails = false ∧ (pl.shared.state.codes (crypto.hashToken req.code)).isSome = true
    | some ⟨_, .authorized _ _ _⟩ =>
      Redemption.Fresh pl (crypto.hashToken access.choice.code)
    | _ => True
  | _ => True

/-! ### One access -/

variable {crypto : Crypto H E} {sh : Shared H E} {access : Access}

/-- A failed call of the cache ends the call, or leaves a code behind that the call goes on
with; otherwise the access is the usual one. -/
theorem cacheAct_cases (crypto : Crypto H E) (sh : Shared H E) (f : Flow) (access : Access) :
    cacheAct crypto sh f access = act crypto sh f access.choice
      ∨ cacheAct crypto sh f access = (sh, none)
      ∨ ∃ req pending, f = .found req pending ∧ access.fails = true
        ∧ cacheAct crypto sh f access = (sh, some (.taken req pending)) := by
  unfold cacheAct
  grind

theorem cacheAct_codes {f : Flow} (notIssue : ∀ a checkedAt req, f ≠ .authorized a checkedAt req)
    (notDeletion : ∀ req pending, f ≠ .found req pending) :
    (cacheAct crypto sh f access).1.codes = sh.codes := by
  rcases cacheAct_cases crypto sh f access with usual | ended | ⟨_, _, isFound, -⟩
  · rw [usual]
    cases f with
    | authorized a checkedAt req => exact absurd rfl (notIssue a checkedAt req)
    | found req pending => exact absurd rfl (notDeletion req pending)
    | authorize sec req | exchange sec audience =>
      simp only [act]
      rw [resolved_session]
    | redeem | taken | mintToken | mint =>
      simp only [act]
      repeat' split
      all_goals rfl
  · rw [ended]
  · exact absurd isFound (notDeletion _ _)

/-- An issued code is stored under its key; every other code is as it was. -/
theorem cacheAct_authorized_codes {a : Session.Actor} {checkedAt : Int}
    {req : AuthorizeRequest} {key : H}
    (other : key ≠ crypto.hashToken access.choice.code) :
    (cacheAct crypto sh (.authorized a checkedAt req) access).1.codes key = sh.codes key := by
  rcases cacheAct_cases crypto sh (.authorized a checkedAt req) access with
    usual | ended | ⟨_, _, isFound, -⟩
  · rw [usual]
    simp only [act]
    split
    · rfl
    · split
      · rfl
      · rename_i issued
        obtain ⟨pending, rfl, -⟩ := issueCode_eq_ok issued
        exact ExpiringMap.set_apply_of_ne _ _ other _ _
  · rw [ended]
  · cases isFound

/-- A call keeps its code until it mints, and comes to hold it by the deletion only. -/
structure Continues (crypto : Crypto H E) (f next : Flow) : Prop where
  keeps : next.holdsCode = false → f.holdsCode = false ∧ next.redeems crypto = f.redeems crypto
  takes : next.holdsCode = true → f.holdsCode = false → f.redeems crypto ≠ none →
    ∃ req pending, f = .found req pending

theorem act_continues {f next : Flow} {choice : Choice}
    (goesOn : (act crypto sh f choice).2 = some next) : Continues crypto f next := by
  cases f with
  | authorize sec req =>
    obtain ⟨a, -, rfl⟩ := resolved_flow goesOn
    exact ⟨fun _ => ⟨rfl, rfl⟩, fun holds => by cases holds⟩
  | exchange sec audience =>
    obtain ⟨a, -, rfl⟩ := resolved_flow goesOn
    exact ⟨fun free => (by cases free), fun _ _ named => absurd rfl named⟩
  | found req pending =>
    cases goesOn
    exact ⟨fun free => (by cases free), fun _ _ _ => ⟨req, pending, rfl⟩⟩
  | redeem req =>
    simp only [act] at goesOn
    split at goesOn
    · cases goesOn
    · cases goesOn
      exact ⟨fun _ => ⟨rfl, rfl⟩, fun holds => by cases holds⟩
  | taken req pending =>
    simp only [act] at goesOn
    split at goesOn
    · cases goesOn
    · cases goesOn
      exact ⟨fun free => (by cases free), fun _ free => by cases free⟩
  | mintToken tid id audience =>
    simp only [act] at goesOn
    split at goesOn
    · cases goesOn
    · cases goesOn
      exact ⟨fun free => (by cases free), fun _ _ named => absurd rfl named⟩
  | authorized | mint =>
    grind [act]

theorem cacheAct_continues {f next : Flow} (goesOn : (cacheAct crypto sh f access).2 = some next) :
    Continues crypto f next := by
  rcases cacheAct_cases crypto sh f access with
    usual | ended | ⟨req, pending, rfl, -, kept⟩
  · rw [usual] at goesOn
    exact act_continues goesOn
  · rw [ended] at goesOn
    cases goesOn
  · rw [kept] at goesOn
    cases goesOn
    exact ⟨fun free => (nomatch free), fun _ _ _ => ⟨req, pending, rfl⟩⟩

theorem cacheAct_mint (req : Token.Request) (checkedAt : Int) :
    (cacheAct crypto sh (.mint req checkedAt) access).2 = none := by
  rcases cacheAct_cases crypto sh (.mint req checkedAt) access with
    usual | ended | ⟨_, _, isFound, -⟩
  · rw [usual]
    simp only [act]
    split
    all_goals rfl
  · rw [ended]
  · cases isFound

theorem environment_codes {event : Event E} {next : Shared H E}
    (moved : environment crypto sh event = some next) : next.codes = sh.codes := by
  cases event with
  | session op =>
    obtain ⟨sess, -, rfl⟩ := Option.map_eq_some_iff.mp moved
    rfl
  | client | rekey =>
    cases moved
    rfl

/-! ### Runs -/

/-- A code that is stored after a permitted access was stored before, or it is a fresh one. -/
theorem stored_of_cacheAct
    {pl : Pool (Recorded (Shared H E) H) (Tagged (Option H) Flow)} {slot : Nat}
    {held : Tagged (Option H) Flow} (found : pl.flows slot = some held)
    (permitted : TakesStored crypto pl (.act slot access)) {key : H}
    (stored : ((cacheAct crypto pl.shared.state held.flow access).1.codes key).isSome = true) :
    (pl.shared.state.codes key).isSome = true ∨ Redemption.Fresh pl key := by
  obtain ⟨tag, f⟩ := held
  simp only [TakesStored, found] at permitted
  cases f with
  | authorized a checkedAt req =>
    by_cases issued : key = crypto.hashToken access.choice.code
    · rw [issued]
      exact Or.inr permitted
    grind [cacheAct_authorized_codes]
  | found req pending =>
    simp only [cacheAct, permitted.1, act] at stored
    obtain ⟨e, isEntry⟩ := Option.isSome_iff_exists.mp stored
    rw [(ExpiringMap.del_apply_eq_some isEntry).2]
    exact Or.inl rfl
  | authorize | redeem | taken | exchange | mintToken | mint =>
    rw [cacheAct_codes (fun _ _ _ => Flow.noConfusion) fun _ _ => Flow.noConfusion] at stored
    exact Or.inl stored

theorem obligations_of_takesStored (crypto : Crypto H E) :
    (codes crypto).Obligations (cacheProgram crypto) (TakesStored crypto) where
  entry st f begins := by
    cases f <;> first | rfl | cases begins
  stored pl slot held access st rest key found permitted acted stored := by
    grind [stored_of_cacheAct, codes, cacheProgram]
  keeps st f access post next acted free :=
    (cacheAct_continues (congrArg Prod.snd (Option.some.inj acted))).keeps free
  takes pl slot held access st next key found permitted acted holds free named := by
    have isNext : cacheAct crypto pl.shared.state held.flow access = (st, some next) :=
      Option.some.inj acted
    obtain ⟨req, pending, isFound⟩ := (cacheAct_continues (congrArg Prod.snd isNext)).takes
      holds free (by rw [show held.flow.redeems crypto = some key from named]; exact nofun)
    obtain ⟨tag, f⟩ := held
    subst isFound
    simp only [TakesStored, found] at permitted
    cases Option.some.inj named
    simp only [cacheAct, permitted.1, act] at isNext
    cases isNext
    exact ⟨permitted.2, by simp [codes]⟩
  uses st f access post rest uses acted := by
    have isNext : cacheAct crypto st f access = (post, rest) := Option.some.inj acted
    cases f with
    | mint req checkedAt =>
      refine ⟨rfl, ?_⟩
      grind [cacheAct_mint]
    | _ => cases uses
  environment st event post key moved stored := by
    show (st.codes key).isSome = true
    rw [← environment_codes moved]
    exact stored

/-- Where every deletion finds the code its call has read, a code yields at most one token. -/
theorem code_yields_one_token (crypto : Crypto H E) (sh : Shared H E)
    (moves : List (Move (Tagged (Option H) Flow) Access (Event E)))
    (fin : Pool (Recorded (Shared H E) H) (Tagged (Option H) Flow))
    (permitted : EveryStep (redemptions crypto).step (TakesStored crypto)
      (Redemption.idle sh) moves)
    (reaches : run (redemptions crypto).step (Redemption.idle sh) moves = some fin) :
    fin.shared.log.Nodup :=
  (obligations_of_takesStored crypto).nodup permitted reaches

namespace Sample

/-- A store with one code, issued to a signed-in user. -/
def issued : Shared Code Unit :=
  { start.shared with
    codes := (ExpiringMap.empty : ExpiringMap Code Pending).set 0 [9]
      ⟨"app", "https://app/cb", verifier, 1, 7, 5, [], [], 0⟩ codeTTL }

def redemption : Tagged (Option Code) Flow :=
  ⟨some [9], .redeem ⟨"authorization_code", [9], "https://app/cb", "app", verifier, ""⟩⟩

def served : Access := ⟨quiet, false⟩

/-- One call after the other. -/
def inTurn : List (Move (Tagged (Option Code) Flow) Access (Event Unit)) :=
  [.spawn 0 redemption, .act 0 served, .act 0 served, .act 0 served, .act 0 served,
    .spawn 1 redemption, .act 1 served]

/-- Both calls read the code before one of them deletes it. -/
def overlapping : List (Move (Tagged (Option Code) Flow) Access (Event Unit)) :=
  [.spawn 0 redemption, .spawn 1 redemption, .act 0 served, .act 1 served, .act 0 served,
    .act 0 served, .act 0 served, .act 1 served, .act 1 served, .act 1 served]

end Sample

theorem code_yields_one_token_in_turn :
    ∃ fin, run (redemptions Sample.primitives).step (Redemption.idle Sample.issued) Sample.inTurn
        = some fin ∧ fin.shared.log = [[9]] ∧ fin.shared.log.Nodup := by
  have permitted : EveryStep (redemptions Sample.primitives).step
      (TakesStored Sample.primitives) (Redemption.idle Sample.issued) Sample.inTurn := by
    refine ⟨True.intro, fun _ taken => ?_⟩
    cases taken
    refine ⟨True.intro, fun _ taken => ?_⟩
    cases taken
    refine ⟨⟨rfl, rfl⟩, fun _ taken => ?_⟩
    cases taken
    iterate 4
      refine ⟨True.intro, fun _ taken => ?_⟩
      cases taken
    exact True.intro
  obtain ⟨fin, ran, logged⟩ : ∃ fin,
      run (redemptions Sample.primitives).step (Redemption.idle Sample.issued) Sample.inTurn =
        some fin
        ∧ fin.shared.log = [[9]] := ⟨_, rfl, rfl⟩
  exact ⟨fin, ran, logged, code_yields_one_token _ _ _ _ permitted ran⟩

/-- Two calls that have both read a code mint a token each. -/
theorem overlapping_redemptions_share_code :
    ∃ fin, run (redemptions Sample.primitives).step (Redemption.idle Sample.issued)
      Sample.overlapping
        = some fin ∧ fin.shared.log = [[9], [9]] ∧ fin.shared.state.tokens.length = 2 :=
  ⟨_, rfl, rfl, rfl⟩

end TangraAuth.OAuth

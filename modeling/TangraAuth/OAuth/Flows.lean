import TangraAuth.Library.Threads
import TangraAuth.OAuth.Codes
import TangraAuth.Session.System

/-!
Contract: the calls that lead from a session to an access token, in flight.

Owns: `/authorize` with `IssueCode`, `Redeem`, `Exchange` and `MintToken` as sequences
of single accesses, and the program they make up beside the operations of the session
manager, changes of the clients and whatever the key ring does.

Does not own: what the interleavings guarantee. The key-value store does not fail;
one operation of the session manager is one step.
-/

namespace TangraAuth.OAuth

open Library Store
open TangraAuth.Session (Actor Secret)

variable {H E : Type}

structure Shared (H E : Type) where
  session : Session.State H
  clients : String → Option (ClientApplication E)
  codes : ExpiringMap H Pending
  config : Token.Config
  keys : Token.Keys
  tokens : List Token.SignedToken

/-- A call at the access it makes next. `checkedAt` is the instant its actor was resolved at. -/
inductive Flow where
  | authorize (sec : Secret) (req : AuthorizeRequest)
  | authorized (a : Actor) (checkedAt : Int) (req : AuthorizeRequest)
  | redeem (req : TokenRequest)
  | found (req : TokenRequest) (pending : Pending)
  | taken (req : TokenRequest) (pending : Pending)
  | exchange (sec : Secret) (audience : Option String)
  | mintToken (tid : TenantID) (id : SessionID) (audience : Option String)
  | mint (req : Token.Request) (checkedAt : Int)

/-- The store calls that fail in the access, and the code it generates. -/
structure Choice where
  faults : Session.Faults
  code : Code

/-- What happens beside the calls. -/
inductive Event (E : Type) where
  | session (op : Session.Operation)
  | client (clientID : String) (client : Option (ClientApplication E))
  | rekey (ks : Token.Keys)

/-- The token minted for a resolved actor. -/
def mintRequest (a : Actor) (audience : Option String) : Token.Request where
  userID := a.userID
  tenantID := a.tenantID
  sessionID := a.sessionID
  roles := a.roles
  amr := a.amr
  audience := audience
  lifetime := 0

def starts : Flow → Bool
  | .authorize _ _ | .exchange _ _ | .mintToken _ _ _ => true
  | .redeem req => req.complete
  | _ => false

variable [DecidableEq H]

/-- The call goes on with the actor of a successful resolution. -/
def Shared.resolved (crypto : Crypto H E) (sh : Shared H E)
    (fs : Session.Faults) (sec : Secret) (continues : Actor → Flow) :
    Shared H E × Option Flow :=
  match sh.session.resolve crypto.hashToken fs sec with
  | (sess, .ok a) => ({ sh with session := sess }, some (continues a))
  | (sess, .error _) => ({ sh with session := sess }, none)

/-- One access of a call. -/
def act (crypto : Crypto H E) (sh : Shared H E) (f : Flow)
    (choice : Choice) : Shared H E × Option Flow :=
  match f with
  | .authorize sec req =>
    sh.resolved crypto choice.faults sec fun a => .authorized a sh.session.now req
  | .authorized a checkedAt req =>
    match validateClient sh.clients req with
    | .error _ => (sh, none)
    | .ok client =>
      match issueCode crypto sh.codes sh.session.now a checkedAt client req
          choice.code with
      | .error _ => (sh, none)
      | .ok codes => ({ sh with codes := codes }, none)
  | .redeem req =>
    match sh.codes.get sh.session.now (crypto.hashToken req.code) with
    | none => (sh, none)
    | some pending => (sh, some (.found req pending))
  | .found req pending =>
    -- Single use, even when the exchange fails below.
    ({ sh with codes := sh.codes.del (crypto.hashToken req.code) }, some (.taken req pending))
  | .taken req pending =>
    match exchangeFor crypto sh.clients req pending with
    | .error _ => (sh, none)
    | .ok tok => (sh, some (.mint tok pending.checkedAt))
  | .exchange sec audience =>
    sh.resolved crypto choice.faults sec fun a => .mint (mintRequest a audience) sh.session.now
  | .mintToken tid id audience =>
    match sh.session.byID choice.faults tid id with
    | .error _ => (sh, none)
    | .ok a => (sh, some (.mint (mintRequest a audience) sh.session.now))
  | .mint req _ =>
    match Token.issue sh.config sh.keys sh.session.now req with
    | .error _ => (sh, none)
    | .ok tok => ({ sh with tokens := sh.tokens ++ [tok] }, none)

def environment (crypto : Crypto H E) (sh : Shared H E) : Event E → Option (Shared H E)
  | .session op =>
    (Session.step crypto.hashToken sh.session op).map fun sess =>
      { sh with session := sess }
  | .client clientID client =>
    some { sh with
      clients := fun other => if other = clientID then client else sh.clients other }
  | .rekey ks => some { sh with keys := ks }

def program (crypto : Crypto H E) : Program (Shared H E) Flow Choice (Event E) where
  entry _ f := starts f
  act sh f choice := some (act crypto sh f choice)
  environment := environment crypto

/-! ### What one step does -/

/-- The session manager takes a step, or nothing happens to it. -/
def SessionMoves (crypto : Crypto H E) (sess next : Session.State H) : Prop :=
  next = sess ∨ ∃ op, Session.step crypto.hashToken sess op = some next

theorem resolved_session (crypto : Crypto H E) (sh : Shared H E)
    (fs : Session.Faults) (sec : Secret) (continues : Actor → Flow) :
    (sh.resolved crypto fs sec continues).1
      = { sh with session := (sh.session.resolve crypto.hashToken fs sec).1 } := by
  grind [Shared.resolved]

/-- A call that goes on after a resolution holds its actor. -/
theorem resolved_flow {crypto : Crypto H E} {sh : Shared H E}
    {fs : Session.Faults} {sec : Secret} {continues : Actor → Flow} {next : Flow}
    (goesOn : (sh.resolved crypto fs sec continues).2 = some next) :
    ∃ a, (sh.session.resolve crypto.hashToken fs sec).2 = .ok a ∧ next = continues a := by
  grind [Shared.resolved]

theorem act_session (crypto : Crypto H E) (sh : Shared H E) (f : Flow) (choice : Choice) :
    SessionMoves crypto sh.session (act crypto sh f choice).1.session := by
  cases f with
  | authorize sec req | exchange sec audience =>
    right
    refine ⟨.resolve choice.faults sec, ?_⟩
    simp only [act]
    rw [resolved_session]
    rfl
  | authorized | redeem | found | taken | mintToken | mint =>
    left
    simp only [act]
    repeat' split
    all_goals rfl

theorem act_tokens {crypto : Crypto H E} {sh : Shared H E} {f : Flow}
    {choice : Choice} {tok : Token.SignedToken}
    (minted : (act crypto sh f choice).1.tokens = sh.tokens ++ [tok]) :
    ∃ req checkedAt, f = .mint req checkedAt
      ∧ Token.issue sh.config sh.keys sh.session.now req = .ok tok := by
  have unchanged : ∀ next : Shared H E, next.tokens = sh.tokens →
      next.tokens ≠ sh.tokens ++ [tok] := by
    intro next same added
    rw [same] at added
    have lengths := congrArg List.length added
    rw [List.length_append, List.length_singleton] at lengths
    omega
  cases f with
  | mint req checkedAt =>
    simp only [act] at minted
    split at minted
    · exact absurd minted (unchanged sh rfl)
    · rename_i issued out
      cases List.append_cancel_left minted
      exact ⟨req, checkedAt, rfl, out⟩
  | authorize sec req | exchange sec audience =>
    simp only [act] at minted
    rw [resolved_session] at minted
    exact absurd minted (unchanged sh rfl)
  | authorized | redeem | found | taken | mintToken =>
    exfalso
    refine unchanged _ ?_ minted
    simp only [act]
    repeat' split
    all_goals rfl

end TangraAuth.OAuth

import TangraAuth.Session.ResolveSteps

/-!
Contract: `Renew` and `Resolve` calls in flight.

Owns: `Renew` as a sequence of single accesses to the database, the key-value
store and the clock, the program it makes up with `Resolve`, what a renewal in
progress still has to write, and which schedules are free of races.

Does not own: sessions that begin or are revoked by others meanwhile, or what the
interleavings guarantee.
-/

namespace TangraAuth.Session.Renewals

open Library Store
open TangraAuth.Session.Concurrent

variable {H : Type}

/-! ### The calls -/

/-- `replacing` writes the views: the grace view under the hashes still to do, then the view of
the new secret. -/
inductive RenewPoint (H : Type) where
  | resolving (c : ResolveCall H)
  | get (a : Actor)
  | tenant (a : Actor) (row : Store.Session H)
  | clock (a : Actor) (row : Store.Session H) (tn : Store.Tenant)
      (pol : Tenant.Policy)
  | getView (a : Actor) (row : Store.Session H) (tn : Store.Tenant)
      (pol : Tenant.Policy) (now : Int)
  | version (row : Store.Session H) (pol : Tenant.Policy) (v : View) (now : Int)
  | rotate (row : Store.Session H) (pol : Tenant.Policy) (v : View) (now : Int)
  | replacing (grace fresh : View) (renewal : State.Renewal) (todo : List H)
  | returned (renewal : State.Renewal)
  | failed (failure : Failure)

structure RenewCall (H : Type) where
  secret : Secret
  next : Secret
  point : RenewPoint H

inductive Flow (H : Type) where
  | resolve (c : ResolveCall H)
  | renew (c : RenewCall H)

/-- `completedAt` is when the last `Renew` call returned. While a renewal has rotated the row and
not returned, `rotation` holds the hashes that it still owes a grace view. The code reads
neither. -/
structure Shared (H : Type) where
  session : State H
  completedAt : Int
  rotation : Option (List H)

inductive Event where
  | directory (status : TenantID → TenantStatus) (roles : TenantID → UserID → List Slug)
      (users : TenantID → UserID → Option Profile) (versions : TenantID → Int)
  | advance (elapsed : Nat)

/-! ### One access of each call -/

/-- What `Renew` does with the view under the policy's idle timeout. -/
def decideRenewal (row : Store.Session H) (pol : Tenant.Policy) (cached : View)
    (now : Int) : RenewPoint H :=
  let v := { cached with idle := pol.idleTimeout }
  if State.View.keepsSecret v now then
    .returned ⟨none, row.id, row.expiresAt, v.idle⟩
  else .rotate row pol v now

/-- The view of a replaced secret. -/
def graceView (v : View) (now exp : Int) : View :=
  { v with
    graceUntil := some (now + renewGrace), renewedAt := some now, expiresAt := exp }

/-- The view of the new secret. -/
def freshView (v : View) (now exp : Int) : View :=
  { v with
    graceUntil := none, lastSeen := now, expiresAt := exp, renewedAt := some now }

variable [DecidableEq H]

/-- The call of `Resolve` at the beginning of `Renew`, and what follows its return. -/
def resolvingAct (ht : Secret → H) (sess : State H) (failing : Bool)
    (inner : ResolveCall H) : Option (State H × RenewPoint H) :=
  match inner.point with
  | .answered v => some (sess, .get v.actor)
  | .refused failure => some (sess, .failed failure)
  | _ =>
    (resolveAct ht sess failing inner).map fun out =>
      (out.1, .resolving { inner with point := out.2 })

def renewAct (ht : Secret → H) (sess : State H) (failing : Bool)
    (c : RenewCall H) : Option (State H × RenewPoint H) :=
  match c.point with
  | .resolving inner => resolvingAct ht sess failing inner
  | .get a =>
    if failing then some (sess, .failed .noSession)
    else match getSession sess.sessions a.tenantID a.sessionID with
      | none => some (sess, .failed .noSession)
      | some row =>
        if row.revokedAt.isSome then some (sess, .failed .noSession)
        else some (sess, .tenant a row)
  | .tenant a row =>
    match sess.activePolicy (fun _ => failing) row.tenantID with
    | .error failure => some (sess, .failed failure)
    | .ok (tn, pol) => some (sess, .clock a row tn pol)
  | .clock a row tn pol =>
    some (sess, .getView a row tn pol sess.now)
  | .getView a row tn pol now =>
    match sess.getView (ht c.secret) with
    | some v => some (sess, decideRenewal row pol v now)
    | none => some (sess, .version row pol (sess.rebuiltView a row tn) now)
  | .version row pol v now =>
    some (sess, decideRenewal row pol
      { v with policyVersion := sess.versions row.tenantID } now)
  | .rotate row pol v now =>
    if sess.freshSecret ht c.next then
      if failing then some (sess, .failed .noSession)
      else
        let exp := now + pol.sessionLifetime
        match renewSession sess.sessions sess.now row.tenantID row.id
            (ht c.next) exp with
        | none => some (sess, .failed .noSession)
        | some sessions =>
          some ({ sess with
              sessions := sessions, issued := sess.issued ++ [(c.next, row.id)] },
            .replacing (graceView v now exp) (freshView v now exp)
              ⟨some c.next, row.id, exp, v.idle⟩
              [ht c.secret, row.secretHash])
    else none
  | .replacing grace fresh renewal (old :: rest) =>
    some (sess.putView old grace, .replacing grace fresh renewal rest)
  | .replacing _ fresh renewal [] =>
    some (sess.putView (ht c.next) fresh, .returned renewal)
  | .returned _ => none
  | .failed _ => none

def RenewPoint.isDone : RenewPoint H → Bool
  | .returned _ | .failed _ => true
  | _ => false

/-- The hashes under which a renewal that rotated the row has still to write the grace view. -/
def RenewPoint.todo : RenewPoint H → Option (List H)
  | .replacing _ _ _ todo => some todo
  | _ => none

/-- What an access of a renewal leaves, from one point to the other. -/
def Shared.renewed (sh : Shared H) (sess : State H) (point next : RenewPoint H) : Shared H where
  session := sess
  completedAt := if next.isDone then sh.session.now else sh.completedAt
  rotation := if point.todo.isSome || next.todo.isSome then next.todo else sh.rotation

/-- A call begins with the clock of its start. -/
def starts (sh : Shared H) : Flow H → Bool
  | .resolve ⟨_, now, _, .getView⟩ => now == sh.session.now
  | .renew ⟨sec, _, .resolving ⟨presented, now, _, .getView⟩⟩ =>
    presented == sec && now == sh.session.now
  | _ => false

def program (ht : Secret → H) : Program (Shared H) (Flow H) Bool Event where
  entry := starts
  act sh f failing :=
    match f with
    | .resolve c =>
      (resolveAct ht sh.session failing c).map fun out =>
        ({ sh with session := out.1 }, some (.resolve { c with point := out.2 }))
    | .renew c =>
      (renewAct ht sh.session failing c).map fun out =>
        (sh.renewed out.1 c.point out.2, some (.renew { c with point := out.2 }))
  environment sh event :=
    match event with
    | .directory status roles users versions =>
      some { sh with session := sh.session.withDirectory status roles users versions }
    | .advance elapsed =>
      some { sh with
        session := { sh.session with now := sh.session.now + elapsed } }

/-! ### Schedules without races -/

/-- The hashes owed a grace view; `none` unless the call has rotated the row. -/
def Flow.todo : Flow H → Option (List H)
  | .renew c => c.point.todo
  | .resolve _ => none

/-- The `Resolve` call, by itself or at the beginning of a renewal. -/
def Flow.resolving : Flow H → Option (ResolveCall H)
  | .resolve c => some c
  | .renew ⟨_, _, .resolving c⟩ => some c
  | _ => none

/-- A renewal rotates the row as it has read it and while no other renewal is between its rotation
and its return, and writes the grace views before they are past. -/
def Flow.InTurn (sh : Shared H) : Flow H → Prop
  | .renew ⟨_, _, .rotate row _ _ _⟩ => sh.rotation = none
      ∧ ∀ other ∈ sh.session.sessions, renewable row.tenantID row.id other = true →
        other.secretHash = row.secretHash
  | .renew ⟨_, _, .replacing grace _ _ (_ :: _)⟩ => 0 < State.viewTTL sh.session.now grace
  | _ => True

instance (sh : Shared H) : DecidablePred (Flow.InTurn sh)
  | .renew ⟨_, _, .rotate row _ _ _⟩ => inferInstanceAs (Decidable (sh.rotation = none
      ∧ ∀ other ∈ sh.session.sessions, renewable row.tenantID row.id other = true →
        other.secretHash = row.secretHash))
  | .renew ⟨_, _, .replacing grace _ _ (_ :: _)⟩ =>
    inferInstanceAs (Decidable (0 < State.viewTTL sh.session.now grace))
  | .renew ⟨_, _, .replacing _ _ _ []⟩ | .renew ⟨_, _, .resolving _⟩ | .renew ⟨_, _, .get _⟩
  | .renew ⟨_, _, .tenant _ _⟩ | .renew ⟨_, _, .clock _ _ _ _⟩
  | .renew ⟨_, _, .getView _ _ _ _ _⟩ | .renew ⟨_, _, .version _ _ _ _⟩
  | .renew ⟨_, _, .returned _⟩ | .renew ⟨_, _, .failed _⟩ | .resolve _ => .isTrue trivial

/-- The call does not come in the way of a renewal that writes the grace view of the first of
the hashes: it is no such renewal itself, and has nothing in hand that it could cache under the
hash afterwards. -/
def Flow.Spares (ht : Secret → H) (todo : List H) (f : Flow H) : Prop :=
  f.todo = none ∧ ∀ c, f.resolving = some c → c.point.inHand = true →
    todo.head? ≠ some (ht c.secret)

/-- Renewals do not overlap, and no `Resolve` call holds a row or view while it is replaced. -/
def Orderly (ht : Secret → H) (pl : Pool (Shared H) (Flow H)) : Move (Flow H) Bool Event → Prop
  | .act slot _ => ∀ f, pl.flows slot = some f → f.InTurn pl.shared ∧ ∀ todo, f.todo = some todo →
      ∀ other held, other ≠ slot → pl.flows other = some held → held.Spares ht todo
  | _ => True

end TangraAuth.Session.Renewals

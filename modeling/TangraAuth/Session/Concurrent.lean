import TangraAuth.Library.Threads
import TangraAuth.Session.Writes

/-!
Contract: `Create` and `Resolve` calls in flight, beside one `RevokeUser` call that keeps a
session.

Owns: the three calls as sequences of single accesses to the database, the
key-value store and the clock; the program they make up; and what one access of a
`Create` or `Resolve` call writes and takes along.

Does not own: what the interleavings guarantee.

An access may fail where the code goes on after the failure or returns an error.
A call that is dropped has returned an error, or its caller went away.
-/

namespace TangraAuth.Session.Concurrent

open Library Store

variable {H : Type}

/-! ### The calls -/

inductive CreatePoint where
  | insert
  | version
  | profile (v : View)
  | putView (v : View)

/-- A `Create` call; `now` is the instant it read when it began. -/
structure CreateCall where
  params : State.CreateParams
  id : SessionID
  secret : Secret
  now : Int
  point : CreatePoint

inductive ResolvePoint (H : Type) where
  | getView
  | getByHash
  | tenant (row : Store.Session H)
  | roles (row : Store.Session H) (tn : Store.Tenant) (pol : Tenant.Policy)
  | version (v : View)
  | profile (v : View)
  | stale (v : View)
  | staleRoles (v : View) (ver : Int)
  | sessionMark (v : View)
  | userMark (v : View)
  | tenantMark (v : View)
  | touch (v : View)
  | putView (v : View)
  | evict
  | expireEvict (v : View) (why : Reason)
  | expireDate (v : View) (why : Reason)
  | expireRevoke (v : View) (why : Reason) (date : Int)
  | expireInsert (v : View) (why : Reason) (date : Int)
  | expireMark (v : View) (date : Int)
  | answered (v : View)
  | refused (failure : Failure)

/-- A `Resolve` call. `late` says whether it began after the `RevokeUser` call had returned;
the code does not read it. -/
structure ResolveCall (H : Type) where
  secret : Secret
  now : Int
  late : Bool
  point : ResolvePoint H

/-- The `RevokeUser` call, with the ids of the rows its statement marked. -/
inductive Progress (H : Type) where
  | listing
  | marking (listedAt : Int) (listed : List (Store.Session H))
  | dating (listedAt : Int) (listed : List (Store.Session H)) (marked : List SessionID)
  | inserting (listedAt date : Int) (marked : List SessionID)
      (pending : List (Store.Session H))
  | setting (listedAt date : Int) (marked : List SessionID) (head : Store.Session H)
      (rest : List (Store.Session H))
  | evicting (listedAt date : Int) (marked : List SessionID) (head : Store.Session H)
      (rest : List (Store.Session H))
  | returned (listedAt date returnedAt : Int) (marked : List SessionID)
  | failed

def Progress.isReturned : Progress H → Bool
  | .returned _ _ _ _ => true
  | _ => false

structure Target where
  tenantID : TenantID
  userID : UserID
  reason : Reason
  keepID : SessionID

structure Shared (H : Type) where
  session : State H
  target : Target
  progress : Progress H

inductive Flow (H : Type) where
  | create (c : CreateCall)
  | resolve (c : ResolveCall H)

/-- What happens around the calls: the next access of the `RevokeUser` call, changes of the
directory, and time. -/
inductive Event where
  | revoker (failing : Bool)
  | directory (status : TenantID → TenantStatus) (roles : TenantID → UserID → List Slug)
      (users : TenantID → UserID → Option Profile) (versions : TenantID → Int)
  | advance (elapsed : Nat)

/-! ### One access of each call -/

/-- Whether the row is one the call is about. -/
def Target.owns (target : Target) (row : Store.Session H) : Bool :=
  row.tenantID == target.tenantID && row.userID == target.userID

/-- The rows the call's statement marks. -/
def Target.selects (target : Target) (row : Store.Session H) : Bool :=
  target.owns row && decide (some row.id ≠ some target.keepID)

variable [DecidableEq H]

def revokerAct (failing : Bool) (sh : Shared H) : Option (Shared H) :=
  let sess := sh.session
  let target := sh.target
  match sh.progress with
  | .listing =>
    if failing then some { sh with progress := .failed }
    else
      some { sh with
        progress := .marking sess.now
          (listUserSessions sess.sessions sess.now target.tenantID target.userID) }
  | .marking listedAt listed =>
    if failing then some { sh with progress := .failed }
    else
      some { sh with
        session :=
          { sess with
            sessions := revokeUserSessions sess.sessions sess.now target.tenantID
              target.userID target.reason (some target.keepID) }
        progress := .dating listedAt listed
          ((sess.sessions.filter fun row =>
            target.selects row && row.revokedAt.isNone).map Store.Session.id) }
  | .dating listedAt listed marked =>
    some { sh with progress := .inserting listedAt sess.now marked listed }
  | .inserting listedAt date marked [] =>
    some { sh with progress := .returned listedAt date sess.now marked }
  | .inserting listedAt date marked (head :: rest) =>
    if head.id = target.keepID then
      some { sh with progress := .inserting listedAt date marked rest }
    else if failing then some { sh with progress := .failed }
    else
      some { sh with
        session :=
          { sess with
            feed := sess.feed ++ [⟨date, .session head.id, target.tenantID, target.reason⟩] }
        progress := .setting listedAt date marked head rest }
  | .setting listedAt date marked head rest =>
    some { sh with
      session := sess.setMark (.session head.id) date
      progress := .evicting listedAt date marked head rest }
  | .evicting listedAt date marked head rest =>
    some { sh with
      session := sess.evictView head.secretHash
      progress := .inserting listedAt date marked rest }
  | .returned _ _ _ _ => none
  | .failed => none

/-- `none` next is the call's return. -/
def createAct (ht : Secret → H) (sess : State H) (failing : Bool)
    (c : CreateCall) : Option (State H × Option CreatePoint) :=
  match c.point with
  | .insert =>
    if sess.freshID c.id && sess.freshSecret ht c.secret then
      if failing then some (sess, none)
      else
        some (sess.inserted (State.newRow ht c.now c.params c.id c.secret) c.secret, some .version)
    else none
  | .version =>
    some (sess, some (.profile (State.newView c.now
      (sess.versions c.params.tenantID) c.params c.id)))
  | .profile v =>
    some (sess, some (.putView (sess.loadProfile (fun _ => failing) v)))
  | .putView v => some (sess.putView (ht c.secret) v, none)

/-- The checks without an access: absolute expiry and idle expiry. -/
def checkExpiry (now : Int) (v : View) : ResolvePoint H :=
  if v.expiresAt ≤ now then .expireEvict v .expired
  else if now - v.lastSeen > v.idle then .expireEvict v .idleTimeout
  else .sessionMark v

/-- Whether a mark on the user or the tenant covers a view. -/
def marksView (sess : State H) (key : Subject) (v : View) : Bool :=
  match sess.marks.get sess.now key with
  | none => false
  | some markedAt => decide (v.createdAt ≤ markedAt)

def resolveAct (ht : Secret → H) (sess : State H) (failing : Bool)
    (c : ResolveCall H) : Option (State H × ResolvePoint H) :=
  match c.point with
  | .getView =>
    if c.secret = [] then some (sess, .refused .noSession)
    else match sess.getView (ht c.secret) with
      | none => some (sess, .getByHash)
      | some v =>
        if v.graceUntil.any fun deadline => deadline ≤ c.now then
          some (sess, .evict)
        else some (sess, .stale v)
  | .getByHash =>
    if failing then some (sess, .refused .noSession)
    else match getSessionByHash sess.sessions (ht c.secret) with
      | none => some (sess, .refused .noSession)
      | some row =>
        if row.revokedAt.isSome then some (sess, .refused .noSession)
        else some (sess, .tenant row)
  | .tenant row =>
    match sess.activePolicy (fun _ => failing) row.tenantID with
    | .error failure => some (sess, .refused failure)
    | .ok (tn, pol) => some (sess, .roles row tn pol)
  | .roles row tn pol =>
    if failing then some (sess, .refused .store)
    else some (sess, .version (sess.rowView row tn pol))
  | .version v =>
    some (sess, .profile { v with policyVersion := sess.versions v.tenantID })
  | .profile v =>
    some (sess, checkExpiry c.now (sess.loadProfile (fun _ => failing) v))
  | .stale v =>
    if sess.versions v.tenantID = v.policyVersion then
      some (sess, checkExpiry c.now v)
    else some (sess, .staleRoles v (sess.versions v.tenantID))
  | .staleRoles v ver =>
    if failing then some (sess, checkExpiry c.now v)
    else
      some (sess, .profile
        { v with
          roles := sess.roles v.tenantID v.userID, policyVersion := ver })
  | .sessionMark v =>
    if (sess.marks.get sess.now (.session v.id)).isSome then some (sess, .evict)
    else some (sess, .userMark v)
  | .userMark v =>
    if marksView sess (.user v.userID) v then some (sess, .evict)
    else some (sess, .tenantMark v)
  | .tenantMark v =>
    if marksView sess (.tenant v.tenantID) v then some (sess, .evict)
    else if c.now - v.lastSeen ≥ minute then some (sess, .touch v)
    else some (sess, .putView v)
  | .touch v =>
    if failing then some (sess, .putView v)
    else
      some ({ sess with
          sessions := touchSession sess.sessions sess.now v.tenantID v.id },
        .putView { v with lastSeen := c.now })
  | .putView v => some (sess.putView (ht c.secret) v, .answered v)
  | .evict => some (sess.evictView (ht c.secret), .refused .noSession)
  | .expireEvict v why =>
    some (sess.evictView (ht c.secret), .expireDate v why)
  | .expireDate v why => some (sess, .expireRevoke v why sess.now)
  | .expireRevoke v why date =>
    if failing then some (sess, .refused .noSession)
    else
      some ({ sess with
          sessions := revokeSession sess.sessions sess.now v.tenantID v.id why },
        .expireInsert v why date)
  | .expireInsert v why date =>
    if failing then some (sess, .refused .noSession)
    else
      some ({ sess with
          feed := sess.feed ++ [⟨date, .session v.id, v.tenantID, why⟩] },
        .expireMark v date)
  | .expireMark v date =>
    some (sess.setMark (.session v.id) date, .refused .noSession)
  | .answered _ => none
  | .refused _ => none

/-- A call begins with the clock of its start. -/
def starts (sh : Shared H) : Flow H → Bool
  | .create ⟨_, _, _, now, .insert⟩ => now == sh.session.now
  | .resolve ⟨_, now, late, .getView⟩ =>
    now == sh.session.now && late == sh.progress.isReturned
  | _ => false

def program (ht : Secret → H) : Program (Shared H) (Flow H) Bool Event where
  entry := starts
  act sh f failing :=
    match f with
    | .create c =>
      (createAct ht sh.session failing c).map fun out =>
        ({ sh with session := out.1 }, out.2.map fun point => .create { c with point := point })
    | .resolve c =>
      (resolveAct ht sh.session failing c).map fun out =>
        ({ sh with session := out.1 }, some (.resolve { c with point := out.2 }))
  environment sh event :=
    match event with
    | .revoker failing => revokerAct failing sh
    | .directory status roles users versions =>
      some { sh with session := sh.session.withDirectory status roles users versions }
    | .advance elapsed =>
      some { sh with
        session := { sh.session with now := sh.session.now + elapsed } }

end TangraAuth.Session.Concurrent

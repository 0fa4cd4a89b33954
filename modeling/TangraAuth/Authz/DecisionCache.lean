import TangraAuth.Authz.Decide
import TangraAuth.Library.Expiring
import TangraAuth.Library.Threads
import TangraAuth.Library.Timeline

/-!
Contract: checks and writes of tuples in flight, over the decision cache they share.

Owns: `Allowed` of the client and of the decider, `BatchDecide` and the client's
`Write` as sequences of single accesses to the cache, the mirror and the backend,
and the program they make up.

Does not own: what the interleavings guarantee.

A lookup may find nothing and a value may not be stored, whatever the reason. A
call that is dropped has returned an error, or its caller went away. Beside each
cached value stands how many requests the backend had taken when it was computed;
the code does not read it.
-/

namespace TangraAuth.Authz

open Library Store Accounts

namespace DecisionCache

def decisionTTL : Int := 2 * second

/-- The key of a decision: user, permission object and tenant version. -/
abbrev Key := UserID × Permission × Nat

structure CachedValue where
  value : Stored
  seen : Nat
deriving DecidableEq, Repr

/-- One tenant. `returned` is how many requests the backend had taken when the last of the
returned writes made its last request. -/
structure State where
  tenant : TenantData
  entries : ExpiringMap Key CachedValue
  now : Int
  timeline : Timeline (Finset Tuple)
  returned : Nat

def State.initial (tn : TenantData) (now : Int) : State where
  tenant := tn
  entries := ExpiringMap.empty
  now := now
  timeline := Timeline.begin tn.tuples tn.version
  returned := 0

def State.lookup (st : State) (uid : UserID) (obj : Permission) (ver : Nat) : Option CachedValue :=
  st.entries.get st.now (uid, obj, ver)

def State.store (st : State) (uid : UserID) (obj : Permission) (ver : Nat)
    (cached : CachedValue) : State :=
  { st with
    entries := st.entries.set st.now (uid, obj, ver) cached decisionTTL }

/-! ### The calls -/

/-- `answered` says which object and value the answer rests on, if any. -/
inductive AllowedPoint where
  | catalogue
  | version (obj : Permission)
  | lookup (obj : Permission) (ver : Nat)
  | check (obj : Permission) (ver : Nat)
  | store (obj : Permission) (ver : Nat) (cached : CachedValue)
  | answered (verdict : Bool) (source : Option (Permission × CachedValue))
deriving DecidableEq, Repr

/-- `Allowed` of the client, or of the decider, which first resolves the permission. `since`
is the state's `returned` when the call began; the code does not read it. -/
structure AllowedCall where
  userID : UserID
  permission : Permission
  resolving : Bool
  since : Nat
  point : AllowedPoint
deriving DecidableEq, Repr

/-- One permission of a batch on its way to a decision. -/
inductive Item where
  | denied (why : DecisionReason)
  | ask (obj : Permission)
  | checked (obj : Permission) (verdict : Bool) (seen : Nat)
  | valued (obj : Permission) (cached : CachedValue)
deriving DecidableEq, Repr

inductive BatchPoint where
  | version
  | tenantStatus (ver : Nat)
  | userStatus (ver : Nat)
  | catalogue (ver : Nat)
  | lookups (ver : Nat) (known todo : List Permission) (done : List Item)
  | checks (ver : Nat) (todo done : List Item)
  | stores (ver : Nat) (todo done : List Item)
  | answered (ver : Nat) (items : List Item)
deriving DecidableEq, Repr

/-- `BatchDecide`; `Decide` is a batch of one. -/
structure BatchCall where
  userID : UserID
  permissions : List Permission
  since : Nat
  point : BatchPoint
deriving DecidableEq, Repr

/-- The client's `Write`: requests to the backend, then the new version. -/
inductive WritePoint where
  | requests (rest : List (List (Edit Tuple)))
  | bump (finished : Nat)

inductive Flow where
  | allowed (c : AllowedCall)
  | batch (c : BatchCall)
  | write (point : WritePoint)

/-- What happens around the calls: the rows of the tenant change, and time passes. -/
inductive Event where
  | directory (tn : TenantData)
  | advance (elapsed : Nat)

/-! ### One access of each call -/

/-- The texts `1` and `0`. -/
def boolStr (verdict : Bool) : Stored := if verdict then .one else .zero

/-- Whether the backend grants the object, with the requests it has taken. -/
def State.check (st : State) (uid : UserID) (obj : Permission) : Bool × Nat :=
  (decide (Granted st.tenant.tuples uid obj), st.timeline.writes)

def allowedAct (st : State) (missing : Bool) (c : AllowedCall) : Option (State × AllowedPoint) :=
  match c.point with
  | .catalogue =>
    match resolve st.tenant.mirror.catalogue c.permission with
    | none => some (st, .answered false none)
    | some obj => some (st, .version obj)
  | .version obj => some (st, .lookup obj st.tenant.version)
  | .lookup obj ver =>
    match if missing then none else st.lookup c.userID obj ver with
    -- the client's own text for allowed; every other text is a denial
    | some cached => some (st, .answered (cached.value == .one) (some (obj, cached)))
    | none => some (st, .check obj ver)
  | .check obj ver =>
    let (verdict, seen) := st.check c.userID obj
    some (st, .store obj ver ⟨boolStr verdict, seen⟩)
  | .store obj ver cached =>
    some (if missing then st else st.store c.userID obj ver cached,
      .answered (cached.value == .one) (some (obj, cached)))
  | .answered _ _ => none

/-- The value under which an answer of the backend is cached. -/
def State.batchValue (st : State) (uid : UserID) (obj : Permission) (verdict : Bool) :
    Stored :=
  if verdict then st.tenant.grantingRole uid obj else .zero

def lookupItem (st : State) (missing : Bool) (uid : UserID) (ver : Nat)
    (known : List Permission) (p : Permission) : Item :=
  match resolve known p with
  | none => .denied .unknownPermission
  | some obj =>
    match if missing then none else st.lookup uid obj ver with
    | some cached => .valued obj cached
    | none => .ask obj

def checkItem (st : State) (uid : UserID) : Item → Item
  | .ask obj =>
    let (verdict, seen) := st.check uid obj
    .checked obj verdict seen
  | item => item

def storeItem (st : State) (missing : Bool) (uid : UserID) (ver : Nat) : Item → State × Item
  | .checked obj verdict seen =>
    let cached : CachedValue := ⟨st.batchValue uid obj verdict, seen⟩
    (if missing then st else st.store uid obj ver cached, .valued obj cached)
  | item => (st, item)

def denyAll (perms : List Permission) (why : DecisionReason) : List Item :=
  perms.map fun _ => .denied why

def batchAct (st : State) (missing : Bool) (c : BatchCall) : Option (State × BatchPoint) :=
  match c.point with
  | .version => some (st, .tenantStatus st.tenant.version)
  | .tenantStatus ver =>
    if st.tenant.status = .active then some (st, .userStatus ver)
    else some (st, .answered ver (denyAll c.permissions .tenantSuspended))
  | .userStatus ver =>
    if st.tenant.userStatus c.userID = some .active then some (st, .catalogue ver)
    else some (st, .answered ver (denyAll c.permissions .userInactive))
  | .catalogue ver =>
    some (st, .lookups ver st.tenant.mirror.catalogue c.permissions [])
  | .lookups ver _ [] done => some (st, .checks ver done [])
  | .lookups ver known (p :: rest) done =>
    some (st, .lookups ver known rest (done ++ [lookupItem st missing c.userID ver known p]))
  | .checks ver [] done => some (st, .stores ver done [])
  | .checks ver (item :: rest) done =>
    some (st, .checks ver rest (done ++ [checkItem st c.userID item]))
  | .stores ver [] done => some (st, .answered ver done)
  | .stores ver (item :: rest) done =>
    let (next, stored) := storeItem st missing c.userID ver item
    some (next, .stores ver rest (done ++ [stored]))
  | .answered _ _ => none

def State.request (st : State) (changes : List (Edit Tuple)) : State :=
  { st with
    tenant := { st.tenant with tuples := applyEdits st.tenant.tuples changes }
    timeline := st.timeline.write (applyEdits st.tenant.tuples changes) }

def State.bump (st : State) (finished : Nat) : State :=
  { st with
    tenant := { st.tenant with version := st.tenant.version + 1 }
    timeline := st.timeline.bump
    returned := max st.returned finished }

/-- `none` next is the call's return. -/
def writeAct (st : State) : WritePoint → State × Option WritePoint
  | .requests [] => (st, some (.bump st.timeline.writes))
  | .requests [changes] =>
    (st.request changes, some (.bump (st.timeline.writes + 1)))
  | .requests (changes :: next :: rest) =>
    (st.request changes, some (.requests (next :: rest)))
  | .bump finished => (st.bump finished, none)

/-- A call begins with its first access. -/
def starts (st : State) : Flow → Bool
  | .allowed c =>
    c.since == st.returned && c.point == if c.resolving then .catalogue else .version c.permission
  | .batch c => c.since == st.returned && c.point == .version
  | .write (.requests _) => true
  | .write (.bump _) => false

def program : Program State Flow Bool Event where
  entry := starts
  act st f missing :=
    match f with
    | .allowed c =>
      (allowedAct st missing c).map fun out =>
        (out.1, some (.allowed { c with point := out.2 }))
    | .batch c =>
      (batchAct st missing c).map fun out =>
        (out.1, some (.batch { c with point := out.2 }))
    | .write point =>
      some ((writeAct st point).1, (writeAct st point).2.map Flow.write)
  environment st event :=
    match event with
    | .directory tn =>
      some { st with
        tenant := { tn with tuples := st.tenant.tuples, version := st.tenant.version } }
    | .advance elapsed => some { st with now := st.now + elapsed }

/-! ### Answers -/

/-- A verdict that a call returned, with the object and the value it was made from. -/
structure Answer where
  verdict : Bool
  object : Permission
  cached : CachedValue
deriving DecidableEq, Repr

/-- The decision on an item once the batch has returned. -/
def Item.decision (ver : Nat) : Item → Decision
  | .valued _ cached =>
    if cached.value = .zero then ⟨false, .noPermission, ver⟩
    else ⟨true, .stored cached.value, ver⟩
  | .denied why => ⟨false, why, ver⟩
  | _ => ⟨false, .noPermission, ver⟩

def Item.answer (ver : Nat) : Item → Option Answer
  | .valued obj cached =>
    some ⟨((Item.valued obj cached).decision ver).allowed, obj, cached⟩
  | _ => none

/-- The verdicts of a call that has returned. -/
def Flow.answers : Flow → List Answer
  | .allowed ⟨_, _, _, _, .answered verdict (some (obj, cached))⟩ => [⟨verdict, obj, cached⟩]
  | .batch ⟨_, _, _, .answered ver items⟩ => items.filterMap (Item.answer ver)
  | _ => []

def Flow.since : Flow → Nat
  | .allowed c => c.since
  | .batch c => c.since
  | .write _ => 0

def Flow.userID : Flow → UserID
  | .allowed c => c.userID
  | .batch c => c.userID
  | .write _ => 0

end DecisionCache

end TangraAuth.Authz

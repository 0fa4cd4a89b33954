import TangraAuth.Authz.Tenants

/-!
Contract: the decision service of one tenant, on a state that does not change
while it decides.

Owns: which permission object a check evaluates, the status checks, what a cached
value stands for, the reasons, and when a decision allows.

Does not own: the filling of the cache, and calls that overlap a change.
-/

namespace TangraAuth.Authz

open Store Accounts

/-- The values the decision cache holds: the texts `0`, `1` and `role:` with a slug. -/
inductive Stored where
  | zero
  | one
  | role (s : Slug)
deriving DecidableEq, Repr

/-- An allowed decision gives the cached text as its reason. -/
inductive DecisionReason where
  | noPermission
  | userInactive
  | tenantSuspended
  | unknownPermission
  | stored (val : Stored)
deriving DecidableEq, Repr

structure Decision where
  allowed : Bool
  reason : DecisionReason
  policyVersion : Nat
deriving DecidableEq, Repr

/-- The entries of the cache under the tenant's version. -/
abbrev Lookup := UserID → Permission → Option Stored

/-- The permission object a check evaluates: the permission itself once it is registered, the
legacy one before that. -/
def resolve (known : List Permission) (p : Permission) : Option Permission :=
  if p ∈ known then some p
  else if !p.isLegacy && decide (p.legacy ∈ known) then some p.legacy
  else none

namespace TenantData

def userStatus (d : TenantData) (uid : UserID) : Option UserStatus :=
  (d.mirror.users.find? fun u => u.id == uid).map Account.status

/-- `ORDER BY slug`. -/
def bySlug (left right : Role) : Prop := left.slug ≤ right.slug

instance : DecidableRel bySlug := fun left right => by
  unfold bySlug
  infer_instance

/-- Names the first of the user's roles that lists the permission in the mirror. -/
def grantingRole (d : TenantData) (uid : UserID) (p : Permission) : Stored :=
  let roles := (d.mirror.effectiveRoles uid).insertionSort bySlug
  match roles.find? fun r => p ∈ d.mirror.rolePermissions r.id with
  | some r => .role r.slug
  | none => .role "unknown"

/-- The decision a cached value stands for. -/
def cachedDecision (d : TenantData) (val : Stored) : Decision :=
  if val = .zero then ⟨false, .noPermission, d.version⟩
  else ⟨true, .stored val, d.version⟩

/-- The decision made by asking the backend. -/
def askedDecision (d : TenantData) (uid : UserID) (p : Permission) : Decision :=
  if Granted d.tuples uid p then
    ⟨true, .stored (d.grantingRole uid p), d.version⟩
  else ⟨false, .noPermission, d.version⟩

def decideKnown (d : TenantData) (lookup : Lookup) (uid : UserID) (p : Permission) : Decision :=
  match resolve d.mirror.catalogue p with
  | none => ⟨false, .unknownPermission, d.version⟩
  | some obj =>
    match lookup uid obj with
    | some val => d.cachedDecision val
    | none => d.askedDecision uid obj

def batchDecide (d : TenantData) (lookup : Lookup) (uid : UserID)
    (perms : List Permission) : List Decision :=
  if d.status ≠ .active then
    perms.map fun _ => ⟨false, .tenantSuspended, d.version⟩
  else if d.userStatus uid ≠ some .active then
    perms.map fun _ => ⟨false, .userInactive, d.version⟩
  else perms.map (d.decideKnown lookup uid)

/-- One permission of a batch. -/
def decides (d : TenantData) (lookup : Lookup) (uid : UserID) (p : Permission) :
    Bool :=
  (d.batchDecide lookup uid [p]).any Decision.allowed

end TenantData

/-! ### When a decision allows -/

/-- Every entry is what the backend answers. -/
def Lookup.Accurate (lookup : Lookup) (ts : Finset Tuple) : Prop :=
  ∀ uid p val, lookup uid p = some val → (val ≠ .zero ↔ Granted ts uid p)

/-- The tenant and the user are active. -/
def TenantData.Active (d : TenantData) (uid : UserID) : Prop :=
  d.status = .active ∧ d.userStatus uid = some .active

section Allows

variable {d : TenantData} {lookup : Lookup} {uid : UserID} {p : Permission}

theorem TenantData.decideKnown_allowed (accurate : lookup.Accurate d.tuples) :
    (d.decideKnown lookup uid p).allowed = true ↔
      ∃ obj, resolve d.mirror.catalogue p = some obj ∧ Granted d.tuples uid obj := by
  unfold TenantData.decideKnown
  split
  case h_1 unknown => simp [unknown]
  case h_2 obj resolved =>
    have isObject : (∃ other, resolve d.mirror.catalogue p = some other
        ∧ Granted d.tuples uid other) ↔ Granted d.tuples uid obj := by
      simp [resolved]
    grind [cachedDecision, askedDecision, Lookup.Accurate]

/-- With accurate entries a decision is the backend's answer for the resolved object. -/
theorem TenantData.decides_iff (accurate : lookup.Accurate d.tuples) :
    d.decides lookup uid p = true ↔ d.Active uid ∧ ∃ obj, resolve d.mirror.catalogue p = some obj
        ∧ Granted d.tuples uid obj := by
  unfold TenantData.decides TenantData.batchDecide TenantData.Active
  grind [decideKnown_allowed]

theorem resolve_eq_some {known : List Permission} {obj : Permission} :
    resolve known p = some obj ↔ (p ∈ known ∧ obj = p)
        ∨ (p ∉ known ∧ p.isLegacy = false ∧ p.legacy ∈ known ∧ obj = p.legacy) := by
  unfold resolve
  by_cases isKnown : p ∈ known
  · simp only [isKnown, ↓reduceIte, Option.some.injEq, true_and, not_true_eq_false, false_and,
      or_false]
    exact eq_comm
  · by_cases fallback : p.isLegacy = false ∧ p.legacy ∈ known
    · simp only [isKnown, fallback.1, fallback.2, ↓reduceIte, Bool.not_false, decide_true,
        Bool.and_self, Option.some.injEq, false_and, not_false_eq_true, true_and, false_or]
      exact eq_comm
    · have none : (!p.isLegacy && decide (p.legacy ∈ known)) = false := by
        simpa using fallback
      rw [if_neg isKnown, none]
      simp only [Bool.false_eq_true, ↓reduceIte, reduceCtorEq, isKnown, false_and, false_or,
        not_false_eq_true, true_and, false_iff]
      exact fun held => fallback ⟨held.1, held.2.1⟩

end Allows

end TangraAuth.Authz

import TangraAuth.Authz.PermRef

/-!
Contract: tuples as the text the backend stores, and the tenant a write is held to.

Owns: the texts of objects and usersets, the tenant an object carries, the
guard on the caller, and the write of the client with its refusals.

Does not own: what a stored tuple decides, and the limits the backend puts on a
request.
-/

namespace TangraAuth.Authz.Objects

open TangraAuth.Authz
open Store Accounts

/-! ### Tenant identifiers -/

def isHex (letter : Char) : Bool :=
  ('0' ≤ letter && letter ≤ '9') || ('a' ≤ letter && letter ≤ 'f')

/-- Groups of hexadecimal digits between dashes, of the lengths a UUID has. -/
def validTenantID (text : String) : Bool :=
  text.toList.all (fun letter => isHex letter || letter == '-')
    && (text.toList.splitOn '-').map List.length == [8, 4, 4, 4, 12]

/-! ### Texts of objects -/

def userObject (uid : String) : String := "user:" ++ uid

def tenantObject (tid : String) : String := "tenant:" ++ tid

def roleObject (tid s : String) : String := "role:" ++ tid ++ "/" ++ s

def roleAssignees (tid s : String) : String := roleObject tid s ++ "#assignee"

def groupObject (tid gid : String) : String := "group:" ++ tid ++ "/" ++ gid

def groupMembers (tid gid : String) : String := groupObject tid gid ++ "#member"

def permissionObject (tid : String) (p : Permission) : String :=
  if p.isLegacy then
    "permission:" ++ tid ++ "/" ++ (p.resource ++ "~" ++ p.action)
  else
    "permission:" ++ tid ++ "/" ++ (p.moduleName ++ "~" ++ p.resource ++ "~" ++ p.action)

/-- The text around the first separator; nothing when there is none. -/
def cut (sep : Char) (text : String) : Option (String × String) :=
  if sep ∈ text.toList then
    some (.ofList (text.toList.takeWhile (· != sep)),
      .ofList (text.toList.dropWhile (· != sep)).tail)
  else none

inductive ObjectError where
  | malformed
  | malformedType (kind : String)
deriving DecidableEq, Repr

def checkedTenant (tid : String) : Except ObjectError String :=
  if validTenantID tid then .ok tid else .error .malformed

/-- The kinds of objects whose text begins with their tenant. -/
def tenantedKinds : List String := ["role", "permission", "group"]

/-- The tenant an object carries. -/
def objectTenant (obj : String) : Except ObjectError String :=
  match cut ':' obj with
  | none => .error .malformed
  | some (kind, rest) =>
    if kind = "tenant" then checkedTenant rest
    else if kind ∈ tenantedKinds then
      match cut '/' rest with
      | none => .error .malformed
      | some (tid, _) => checkedTenant tid
    else .error (.malformedType kind)

/-! ### Tuples -/

structure Tuple where
  user : String
  relation : String
  object : String
deriving DecidableEq, Repr

def membershipTuple (tid uid rel : String) : Tuple :=
  ⟨userObject uid, rel, tenantObject tid⟩

def roleTenantTuple (tid s : String) : Tuple :=
  ⟨tenantObject tid, "tenant", roleObject tid s⟩

def roleAssignmentTuple (tid s uid : String) : Tuple :=
  ⟨userObject uid, "assignee", roleObject tid s⟩

def groupTenantTuple (tid gid : String) : Tuple :=
  ⟨tenantObject tid, "tenant", groupObject tid gid⟩

def groupMembershipTuple (tid gid uid : String) : Tuple :=
  ⟨userObject uid, "member", groupObject tid gid⟩

def groupRoleTuple (tid gid s : String) : Tuple :=
  ⟨groupMembers tid gid, "assignee", roleObject tid s⟩

def permissionTenantTuple (tid : String) (p : Permission) : Tuple :=
  ⟨tenantObject tid, "tenant", permissionObject tid p⟩

def grantTuple (tid s : String) (p : Permission) : Tuple :=
  ⟨roleAssignees tid s, "granted", permissionObject tid p⟩

/-! ### The caller -/

inductive ActorKind where
  | user
  | operator
  | service
  | system
deriving DecidableEq, Repr

structure Caller where
  kind : ActorKind
  tenantID : String

/-- The verified caller and the tenant of an attached operator grant. -/
structure Context where
  actor : Option Caller
  operatorGrant : Option String

inductive WriteError where
  | noActor
  | guardCrossTenant
  | noOperatorGrant
  | object (why : ObjectError)
  | crossTenant
  | backend
deriving DecidableEq, Repr

/-- `Guard.Require`. -/
def require (context : Context) (tid : String) : Except WriteError Unit :=
  match context.actor with
  | none => .error .noActor
  | some a =>
    if tid = "" then .error .guardCrossTenant
    else
      match a.kind with
      | .service | .system => .ok ()
      | .operator =>
        if a.tenantID = tid then .ok ()
        else if context.operatorGrant = some tid then .ok ()
        else .error .noOperatorGrant
      | .user => if a.tenantID = tid then .ok () else .error .guardCrossTenant

/-! ### The write -/

/-- The objects in order, up to the first that is not the tenant's. -/
def scopedObjects (tid : String) : List String → Except WriteError Unit
  | [] => .ok ()
  | obj :: rest =>
    match objectTenant obj with
    | .error why => .error (.object why)
    | .ok owner => if owner = tid then scopedObjects tid rest else .error .crossTenant

/-- `Client.scoped`. -/
def inScope (context : Context) (tid : String) (objects : List String) : Except WriteError Unit :=
  match require context tid with
  | .error why => .error why
  | .ok () => scopedObjects tid objects

/-- A tuple of the relation `tenant` names the tenant its object carries. -/
def Tuple.misplaced (t : Tuple) : Bool :=
  match objectTenant t.object with
  | .error _ => false
  | .ok owner => t.relation == "tenant" && t.user != tenantObject owner

/-- What the client writes to: the backend, and the versions decisions are cached under
when there is a cache. -/
structure Stored (σ : Type) where
  backend : σ
  versions : Option (String → Nat)

def Stored.bump {σ : Type} (stored : Stored σ) (tid : String) : Stored σ :=
  { stored with
    versions := stored.versions.map fun versions =>
      fun other => if other = tid then versions other + 1 else versions other }

variable {σ : Type}

/-- `backendWrite` is the backend's own write, which may refuse any request. -/
def write (backendWrite : σ → List Tuple → List Tuple → Option σ) (context : Context)
    (stored : Stored σ) (tid : String) (adds removes : List Tuple) :
    Except WriteError (Stored σ) :=
  if (adds ++ removes).any Tuple.misplaced then .error .crossTenant
  else
    match inScope context tid ((adds ++ removes).map Tuple.object) with
    | .error why => .error why
    | .ok () =>
      match backendWrite stored.backend adds removes with
      | none => .error .backend
      | some next => .ok ({ stored with backend := next }.bump tid)

/-! ### Texts and their tenant -/

variable {tid : String}

theorem not_mem_of_validTenantID {letter : Char} (outside : (isHex letter || letter == '-') = false)
    (valid : validTenantID tid = true) : letter ∉ tid.toList := by
  simp only [validTenantID, Bool.and_eq_true, List.all_eq_true] at valid
  grind

theorem cut_append {sep : Char} {pre post : String} (apart : sep ∉ pre.toList) :
    cut sep (pre ++ String.singleton sep ++ post) = some (pre, post) := by
  simp_all
  have differs : ∀ letter ∈ pre.toList, (letter != sep) = true := by
    intro letter member
    simpa using fun same : letter = sep => apart (same ▸ member)
  unfold cut
  simp_all

theorem cut_eq_none {sep : Char} {text : String} (apart : sep ∉ text.toList) :
    cut sep text = none := if_neg apart

theorem checkedTenant_eq_ok {text : String} (checked : checkedTenant text = .ok tid) :
    text = tid ∧ validTenantID tid = true := by
  grind [checkedTenant]

variable {obj : String}

theorem objectTenant_valid (owned : objectTenant obj = .ok tid) : validTenantID tid = true := by
  unfold objectTenant at owned
  split at owned
  case h_1 => cases owned
  case h_2 =>
    split at owned
    case isTrue => exact (checkedTenant_eq_ok owned).2
    case isFalse =>
      split at owned
      case isFalse => cases owned
      case isTrue =>
        split at owned
        case h_1 => cases owned
        case h_2 => exact (checkedTenant_eq_ok owned).2

theorem objectTenant_tenantObject (valid : validTenantID tid = true) :
    objectTenant (tenantObject tid) = .ok tid := by
  have cutKind : cut ':' (tenantObject tid) = some ("tenant", tid) :=
    @cut_append ':' "tenant" tid (by decide)
  simp [objectTenant, cutKind, checkedTenant, valid]

/-- An object of a tenant's kinds carries the tenant its text begins with. -/
theorem objectTenant_tenanted {kind rest : String} (tenanted : kind ∈ tenantedKinds)
    (valid : validTenantID tid = true) :
    objectTenant (kind ++ ":" ++ (tid ++ "/" ++ rest)) = .ok tid := by
  have notTenant : kind ≠ "tenant" := by
    revert kind
    decide
  have noColon : ':' ∉ kind.toList := by
    clear notTenant
    revert kind
    decide
  have cutKind : cut ':' (kind ++ ":" ++ (tid ++ "/" ++ rest)) = some (kind, tid ++ "/" ++ rest) :=
    @cut_append ':' kind _ noColon
  have cutTenant : cut '/' (tid ++ "/" ++ rest) = some (tid, rest) :=
    @cut_append '/' tid rest (not_mem_of_validTenantID (by decide) valid)
  simp only [objectTenant, cutKind, if_neg notTenant, if_pos tenanted, cutTenant, checkedTenant,
    if_pos valid]

/-! ### What a write may name -/

/-- The object a user side names: all of it, or what stands before the relation of a userset. -/
def namedObject (u : String) : String :=
  match cut '#' u with
  | none => u
  | some (obj, _) => obj

/-- A role, group, tenant or permission object, by its kind. -/
def hasTenant (obj : String) : Bool :=
  match cut ':' obj with
  | none => false
  | some (kind, _) => kind == "tenant" || tenantedKinds.contains kind

def Belongs (tid obj : String) : Prop := objectTenant obj = .ok tid

instance (tid obj : String) : Decidable (Belongs tid obj) :=
  inferInstanceAs (Decidable (objectTenant obj = .ok tid))

/-- Both sides of the tuple are the tenant's. -/
structure Within (tid : String) (t : Tuple) : Prop where
  object : Belongs tid t.object
  user : hasTenant (namedObject t.user) = true → Belongs tid (namedObject t.user)

/-- The user side names a role, group, tenant or permission that is not the tenant's. -/
def namesForeign (tid u : String) : Bool :=
  hasTenant (namedObject u) && !decide (Belongs tid (namedObject u))

theorem namedObject_tenantObject (valid : validTenantID tid = true) :
    namedObject (tenantObject tid) = tenantObject tid := by
  have noHash : '#' ∉ (tenantObject tid).toList := by
    have inTenant : '#' ∉ tid.toList := not_mem_of_validTenantID (by decide) valid
    simp [tenantObject, String.toList_append, inTenant]
  rw [namedObject, cut_eq_none noHash]

theorem scopedObjects_eq_ok {objects : List String}
    (accepted : scopedObjects tid objects = .ok ()) : ∀ obj ∈ objects, Belongs tid obj := by
  induction objects with
  | nil => simp
  | cons obj rest ih =>
    unfold scopedObjects at accepted
    split at accepted
    case h_1 => cases accepted
    case h_2 owner owned =>
      split at accepted
      case isFalse => cases accepted
      case isTrue isOwner =>
        intro other member
        rcases List.mem_cons.mp member with isHead | member
        · rw [isHead, Belongs, owned, isOwner]
        · exact ih accepted other member

theorem write_eq_ok {backendWrite : σ → List Tuple → List Tuple → Option σ} {context : Context}
    {stored res : Stored σ} {adds removes : List Tuple}
    (accepted : write backendWrite context stored tid adds removes = .ok res) :
    ∀ t ∈ adds ++ removes, Belongs tid t.object
      ∧ (t.relation = "tenant" → t.user = tenantObject tid) := by
  unfold write at accepted
  split at accepted
  case isTrue => cases accepted
  case isFalse placed =>
    split at accepted
    case h_1 => cases accepted
    case h_2 inScoped =>
      unfold inScope at inScoped
      split at inScoped
      case h_1 => cases inScoped
      case h_2 =>
        intro t member
        have owned := scopedObjects_eq_ok inScoped t.object (List.mem_map_of_mem member)
        refine ⟨owned, fun isT => ?_⟩
        have notMisplaced : t.misplaced = false := by
          simpa using fun misplaced =>
            placed (List.any_eq_true.mpr ⟨t, member, misplaced⟩)
        unfold Tuple.misplaced at notMisplaced
        rw [owned] at notMisplaced
        simpa [isT] using notMisplaced

/-- Every tuple of an accepted write stays in the tenant exactly when no tuple of another
relation than `tenant` names an object of a foreign tenant on its user side: the objects and the
user sides of `tenant` tuples are checked, the usersets of `assignee` and `granted` tuples
are not. -/
theorem accepted_write_within_iff
    {backendWrite : σ → List Tuple → List Tuple → Option σ} {context : Context}
    {stored res : Stored σ} {tid : String} {adds removes : List Tuple}
    (accepted : write backendWrite context stored tid adds removes = .ok res) :
    (∀ t ∈ adds ++ removes, Within tid t) ↔ ∀ t ∈ adds ++ removes,
        t.relation ≠ "tenant" → namesForeign tid t.user = false := by
  have checked := write_eq_ok accepted
  constructor
  · intro within t member _
    simpa [namesForeign] using (within t member).user
  · intro native t member
    obtain ⟨owned, ofTenant⟩ := checked t member
    refine ⟨owned, fun tenanted => ?_⟩
    by_cases isT : t.relation = "tenant"
    · have valid := objectTenant_valid owned
      rw [ofTenant isT, namedObject_tenantObject valid]
      exact objectTenant_tenantObject valid
    · have isNative := native t member isT
      simpa [namesForeign, tenanted] using isNative

/-! ### The tuples the service writes -/

theorem namedObject_append {first rest : String} (apart : '#' ∉ first.toList) :
    namedObject (first ++ rest) = first ++ namedObject rest := by
  have differs : ∀ letter ∈ first.toList, (letter != '#') = true := by
    intro letter member
    simpa using fun same : letter = '#' => apart (same ▸ member)
  unfold namedObject cut
  by_cases member : '#' ∈ rest.toList
  · simp_all
  simp_all

/-- A user belongs to no tenant, and the rest of such a tuple is its object. -/
theorem within_of_userObject {uid rel : String} (owned : Belongs tid obj) :
    Within tid ⟨userObject uid, rel, obj⟩ := by
  refine ⟨owned, fun tenanted => ?_⟩
  have named : namedObject (userObject uid) = "user" ++ ":" ++ namedObject uid :=
    namedObject_append (by decide)
  have cutKind : cut ':' ("user" ++ ":" ++ namedObject uid) = some ("user", namedObject uid) :=
    @cut_append ':' "user" _ (by decide)
  simp only [hasTenant, named, cutKind] at tenanted
  exact absurd tenanted (by decide)

theorem within_of_tenantObject {rel : String} (owned : Belongs tid obj) :
    Within tid ⟨tenantObject tid, rel, obj⟩ := by
  have valid := objectTenant_valid owned
  refine ⟨owned, fun _ => ?_⟩
  simp only [namedObject_tenantObject valid]
  exact objectTenant_tenantObject valid

/-- A userset of the tenant's own role or group. -/
theorem within_of_userset {tid kind name userset rel obj : String}
    (tenanted : kind ∈ tenantedKinds) (owned : Belongs tid obj) :
    Within tid ⟨kind ++ ":" ++ tid ++ "/" ++ name ++ userset, rel, obj⟩ := by
  have valid := objectTenant_valid owned
  have noHash : '#' ∉ (kind ++ ":" ++ tid ++ "/").toList := by
    have inTenant : '#' ∉ tid.toList := not_mem_of_validTenantID (by decide) valid
    have inKind : '#' ∉ kind.toList := by
      clear owned
      revert kind
      decide
    simp [String.toList_append, inTenant, inKind]
  have named : namedObject (kind ++ ":" ++ tid ++ "/" ++ name ++ userset)
      = kind ++ ":" ++ (tid ++ "/" ++ namedObject (name ++ userset)) := by
    have regrouped : kind ++ ":" ++ tid ++ "/" ++ name ++ userset
        = kind ++ ":" ++ tid ++ "/" ++ (name ++ userset) := String.append_assoc
    rw [regrouped, namedObject_append noHash]
    simp only [String.append_assoc]
  refine ⟨owned, fun _ => ?_⟩
  simp only [named]
  exact objectTenant_tenanted tenanted valid

theorem roleObject_belongs {s : String} (valid : validTenantID tid = true) :
    Belongs tid (roleObject tid s) := by
  have text : roleObject tid s = "role" ++ ":" ++ (tid ++ "/" ++ s) := by
    simp [roleObject, String.append_assoc]
  rw [text]
  exact objectTenant_tenanted (by decide) valid

theorem groupObject_belongs {gid : String} (valid : validTenantID tid = true) :
    Belongs tid (groupObject tid gid) := by
  have text : groupObject tid gid = "group" ++ ":" ++ (tid ++ "/" ++ gid) := by
    simp [groupObject, String.append_assoc]
  rw [text]
  exact objectTenant_tenanted (by decide) valid

theorem permissionObject_belongs {p : Permission} (valid : validTenantID tid = true) :
    Belongs tid (permissionObject tid p) := by
  have text : ∃ name, permissionObject tid p = "permission" ++ ":" ++ (tid ++ "/" ++ name) := by
    unfold permissionObject
    split
    · exact ⟨p.resource ++ "~" ++ p.action, by simp [String.append_assoc]⟩
    · exact ⟨p.moduleName ++ "~" ++ p.resource ++ "~" ++ p.action,
        by simp [String.append_assoc]⟩
  obtain ⟨name, isText⟩ := text
  rw [isText]
  exact objectTenant_tenanted (by decide) valid

def TenantRelation.text : TenantRelation → String
  | .owner => "owner"
  | .admin => "admin"
  | .member => "member"

/-- A tenant's tuple as the text the backend stores, under the texts of user and group ids. -/
def render (userText : UserID → String) (groupText : GroupID → String) (tid : String) :
    Authz.Tuple → Tuple
  | .membership rel userID =>
    membershipTuple tid (userText userID) (TenantRelation.text rel)
  | .roleTenant s => roleTenantTuple tid s
  | .roleAssignment s userID => roleAssignmentTuple tid s (userText userID)
  | .groupTenant groupID => groupTenantTuple tid (groupText groupID)
  | .groupMembership groupID userID =>
    groupMembershipTuple tid (groupText groupID) (userText userID)
  | .groupRole groupID s => groupRoleTuple tid (groupText groupID) s
  | .grant s p => grantTuple tid s p

/-- No tuple of these kinds leaves the tenant it is built for, nor does the one that places a
permission in the tenant. -/
theorem render_within {userText : UserID → String} {groupText : GroupID → String}
    (valid : validTenantID tid = true) (t : Authz.Tuple) :
    Within tid (render userText groupText tid t)
      ∧ ∀ p, Within tid (permissionTenantTuple tid p) := by
  refine ⟨?_, fun p => within_of_tenantObject (permissionObject_belongs valid)⟩
  cases t with
  | membership rel userID => exact within_of_userObject (objectTenant_tenantObject valid)
  | roleTenant s => exact within_of_tenantObject (roleObject_belongs valid)
  | roleAssignment s userID => exact within_of_userObject (roleObject_belongs valid)
  | groupTenant groupID => exact within_of_tenantObject (groupObject_belongs valid)
  | groupMembership groupID userID => exact within_of_userObject (groupObject_belongs valid)
  | groupRole groupID s =>
    exact @within_of_userset tid "group" _ "#member" _ _ (by decide) (roleObject_belongs valid)
  | grant s p =>
    exact @within_of_userset tid "role" s "#assignee" _ _ (by decide)
      (permissionObject_belongs valid)

/-! ### A write at fixed tenants -/

namespace Sample

def acme : String := "11111111-1111-4111-8111-111111111111"

def globex : String := "22222222-2222-4222-8222-222222222222"

def read : Permission := ⟨"docs", "page", "read"⟩

/-- The service writes a tenant's tuples as itself, to a backend that takes every request. -/
def asService : Context := ⟨some ⟨.service, ""⟩, none⟩

def writeAcme (adds : List Tuple) : Except WriteError (Stored (List Tuple)) :=
  write (fun stored adds _ => some (stored ++ adds)) asService ⟨[], none⟩ acme adds []

def ownGrant : Tuple := grantTuple acme "reader" read

/-- Every assignee of a role of the other tenant is granted the permission. -/
def foreignGrant : Tuple := ⟨roleAssignees globex "reader", "granted", permissionObject acme read⟩

end Sample

open Sample in
theorem acme_grant_within : hasTenant (namedObject ownGrant.user) = true
      ∧ Within acme (render toString toString acme (.grant "reader" read))
      ∧ ∀ p, Within acme (permissionTenantTuple acme p) :=
  ⟨by decide +kernel, render_within (by decide) _⟩

open Sample in
theorem own_grant_within : (∀ t ∈ [ownGrant] ++ [], Within acme t) ↔ ∀ t ∈ [ownGrant] ++ [],
        t.relation ≠ "tenant" → namesForeign acme t.user = false :=
  accepted_write_within_iff (rfl : writeAcme [ownGrant] = .ok ⟨[ownGrant], none⟩)

open Sample in
/-- The client accepts a grant of the tenant's permission to a role of another tenant. -/
theorem foreign_userset_accepted : writeAcme [foreignGrant] = .ok ⟨[foreignGrant], none⟩
      ∧ hasTenant (namedObject foreignGrant.user) = true
      ∧ Belongs globex (namedObject foreignGrant.user)
      ∧ ¬Within acme foreignGrant :=
  ⟨rfl, by decide +kernel, by decide +kernel,
    fun within => absurd (within.user (by decide +kernel)) (by decide +kernel)⟩

end TangraAuth.Authz.Objects

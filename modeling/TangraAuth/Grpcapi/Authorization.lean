import TangraAuth.Authz.Capture

/-!
Contract: the registration of permissions as services call it.

Owns: who may register what, the checks of a request, and the decisions on other
modules' permissions that a service's registration changes.

Does not own: how the caller's identity is verified, and the wiring of the server.
-/

namespace TangraAuth.Grpcapi

open Library Store Accounts
open TangraAuth.Authz

/-- The verified identity of the calling service; the module is empty for other identities. -/
structure Caller where
  id : String
  moduleName : String
  gateway : Bool
deriving DecidableEq, Repr

structure RegisterPermissionsRequest where
  moduleName : String
  displayName : String
  permissions : List PermissionDef
  roles : List ModuleRole
  declaresRoles : Bool
  grants : List BuiltinGrant
  declaresGrants : Bool
  tenantIDs : List TenantID

inductive RpcError where
  | unauthenticated
  | identityRequired
  | malformedModule
  | moduleMismatch
  | gatewayRoles
  | tooMany
  | unknownRole
  | unregisteredPermission
  | tenantsUnavailable
  | invalidArgument
  | unavailable
deriving DecidableEq, Repr

def decisionError : RegisterError → RpcError
  | .badPermission => .invalidArgument
  | .badRegistration => .invalidArgument
  | .malformed => .unavailable
  | .notFound => .unavailable
  | .unavailable => .unavailable

def authModule : String := "auth"

namespace RegisterPermissionsRequest

variable (req : RegisterPermissionsRequest)

def declares : Bool :=
  !req.roles.isEmpty || req.declaresRoles || !req.grants.isEmpty
    || req.declaresGrants

def own : List String :=
  req.permissions.map fun p => p.resource ++ ":" ++ p.action

def grantsProblem : Option RpcError :=
  req.grants.findSome? fun grant =>
    if !builtinRoleSlugs.contains grant.role then some .unknownRole
    else if grant.permissions.all req.own.contains then none
    else some .unregisteredPermission

/-- The checks before anything is registered. -/
def problem (caller : Caller) : Option RpcError :=
  if caller.id = "" then some .unauthenticated
  else if caller.moduleName = "" then some .identityRequired
  else if req.moduleName ≠ "" ∧ validModule req.moduleName = false then
    some .malformedModule
  else if req.moduleName ≠ "" ∧ req.moduleName ≠ caller.moduleName
      ∧ caller.gateway = false then some .moduleMismatch
  else if caller.gateway = true ∧ req.declares = true then some .gatewayRoles
  else if maxRegistrationPermissions < req.permissions.length
      ∨ maxModuleRoles < req.roles.length then some .tooMany
  else req.grantsProblem

/-- A service registers its own module; the gateway may name another one. -/
def registration (caller : Caller) (tns : List TenantID) : Registration where
  moduleName := if req.moduleName = "" then caller.moduleName else req.moduleName
  displayName := req.displayName
  registrant := caller.id
  delegate := if caller.gateway then "gateway" else ""
  permissions := req.permissions
  roles := req.roles
  declaresRoles := req.declaresRoles
  grants := req.grants
  declaresGrants := req.declaresGrants
  tenants := tns

/-- A request without tenants is about all of them. -/
def tenants (allTenants : Option (List TenantID)) : Option (List TenantID) :=
  if req.tenantIDs.isEmpty then allTenants else some req.tenantIDs

end RegisterPermissionsRequest

section Calls

variable (fs : CallFaults) (nid : Nat → RoleID)

/-- An old gateway names no module: legacy rows only. -/
def registerLegacy (caller : Caller) (req : RegisterPermissionsRequest)
    (tns : List TenantID) : Task World RegisterError RegisterResult := do
  let registered ← Task.each (fun tid => onTenant tid
      (Authz.registerPermissions fs "" caller.id req.permissions)) tns
  pure
    { registered := registered.sum
      skipped := []
      roleErrors := []
      rolesUpserted := 0
      rolesRetired := []
      grantsRevoked := 0 }

def nothingRegistered : RegisterResult where
  registered := 0
  skipped := []
  roleErrors := []
  rolesUpserted := 0
  rolesRetired := []
  grantsRevoked := 0

def registerPermissions (allTenants : Option (List TenantID)) (caller : Caller)
    (req : RegisterPermissionsRequest) : Task World RpcError RegisterResult :=
  match req.problem caller with
  | some error => Task.fail error
  | none =>
    -- the service's own permissions are registered in-process
    if caller.gateway = true ∧ req.moduleName = authModule then pure nothingRegistered
    else
      match req.tenants allTenants with
      | none => Task.fail .tenantsUnavailable
      | some tns =>
        if caller.gateway = true ∧ req.moduleName = "" then
          (registerLegacy fs caller req tns).mapError decisionError
        else
          (register fs nid (req.registration caller tns)).mapError decisionError

end Calls

/-! ### Other modules -/

section Isolation

variable {fs : CallFaults} {nid : Nat → RoleID} {allTenants : Option (List TenantID)}
  {caller : Caller} {req : RegisterPermissionsRequest} {tns : List TenantID}

theorem named_of_checked (checked : req.problem caller = none) : caller.moduleName ≠ "" := by
  intro unnamed
  unfold RegisterPermissionsRequest.problem at checked
  rw [if_pos unnamed] at checked
  split_ifs at checked

/-- Past the checks, a service registers its own module. -/
theorem registration_of_service (direct : caller.gateway = false)
    (checked : req.problem caller = none) :
    (req.registration caller tns).moduleName = caller.moduleName
      ∧ (req.registration caller tns).delegate = "" := by
  grind [RegisterPermissionsRequest.registration, RegisterPermissionsRequest.problem]

/-- The registration decides the permission in the tenant. -/
def Captured (allTenants : Option (List TenantID)) (caller : Caller)
    (req : RegisterPermissionsRequest) (w : World) (tid : TenantID) (uid : UserID)
    (p : Permission) : Prop :=
  ∃ tns, req.tenants allTenants = some tns ∧ tid ∈ tns
    ∧ Captures (req.registration caller tns) (w.tenants tid) uid p

/-- What a registration that names these tenants made of them, in full or in part. -/
structure Registered (caller : Caller) (req : RegisterPermissionsRequest) (w : World)
    (tns : List TenantID) (post : World) : Prop where
  named : caller.moduleName ≠ ""
  isModule : (req.registration caller tns).moduleName = caller.moduleName
  confined : Confined (req.registration caller tns) w post.tenants

theorem registerPermissions_spec {w : World} (direct : caller.gateway = false)
    (own : ∀ tid, OwnGrants caller.moduleName (w.tenants tid)) :
    Triple (· = w) (registerPermissions fs nid allTenants caller req)
      (fun _ post => ∃ tns, req.tenants allTenants = some tns ∧ Registered caller req w tns post
        ∧ AllDelivered (req.registration caller tns) w tns post.tenants)
      (fun post => post = w ∨ ∃ tns, req.tenants allTenants = some tns
        ∧ Registered caller req w tns post) := by
  unfold registerPermissions
  split
  case h_1 => exact Triple.fail fun _ same => Or.inl same
  case h_2 checked =>
    have named := named_of_checked checked
    refine Triple.ite (fun gateway => absurd gateway.1 (by simp [direct])) fun _ => ?_
    split
    case h_1 => exact Triple.fail fun _ same => Or.inl same
    case h_2 tns isTenants =>
      refine Triple.ite (fun gateway => absurd gateway.1 (by simp [direct])) fun _ => ?_
      obtain ⟨isModule, isDirect⟩ :=
        @registration_of_service caller req tns direct checked
      refine Triple.mapError ((register_spec isDirect (isModule ▸ own)).weaken
        (fun _ same => same) (fun _ post visited => ?_) fun post confined => ?_)
      · exact ⟨tns, isTenants, ⟨named, isModule, visited.confined fun _ mem => mem⟩,
          visited.delivered⟩
      · exact Or.inr ⟨tns, isTenants, named, isModule, confined⟩

/-- A refused registration does nothing; one that is made names the caller's module. -/
theorem registerPermissions_spares (direct : caller.gateway = false) :
    Within (SparesCatalogue caller.moduleName)
      (registerPermissions fs nid allTenants caller req) := by
  have fails : ∀ error, Within (SparesCatalogue caller.moduleName)
      (Task.fail error : Task World RpcError RegisterResult) := Within.fail SparesCatalogue.refl
  unfold registerPermissions
  split
  case h_1 => exact fails _
  case h_2 checked =>
    rw [if_neg (by simp [direct])]
    split
    case h_1 => exact fails _
    case h_2 tns _ =>
      rw [if_neg (by simp [direct])]
      have isModule := (@registration_of_service caller req tns direct checked).1
      exact isModule ▸ Within.mapError register_spares

variable {w post : World} {out : Except RpcError RegisterResult} {tid : TenantID}
  {uid : UserID} {p : Permission} {lookup afterLookup : Lookup}

theorem decides_of_same {pre d : TenantData} (same : d = pre)
    (accurate : lookup.Accurate pre.tuples) (afterAccurate : afterLookup.Accurate d.tuples) :
    d.decides afterLookup uid p = pre.decides lookup uid p := by
  rw [Bool.eq_iff_iff, TenantData.decides_iff afterAccurate, TenantData.decides_iff accurate, same]

theorem Registered.decides_eq (registered : Registered caller req w tns post)
    (ofModule : p.isLegacy = false) (other : p.moduleName ≠ caller.moduleName)
    (accurate : lookup.Accurate (w.tenants tid).tuples)
    (afterAccurate : afterLookup.Accurate (post.tenants tid).tuples)
    (free : ¬(tid ∈ tns ∧ Captures (req.registration caller tns) (w.tenants tid) uid p)) :
    (post.tenants tid).decides afterLookup uid p = (w.tenants tid).decides lookup uid p := by
  by_cases isNamed : tid ∈ tns
  · exact (registered.confined.isolated tid).decides_eq (registered.isModule ▸ registered.named)
      (registered.isModule ▸ other) ofModule accurate afterAccurate
      fun captures => free ⟨isNamed, captures⟩
  · exact decides_of_same (registered.confined.unnamed tid isNamed) accurate afterAccurate

/-- A service's registration leaves the rows, roles and grants of other modules alone, in the
catalogue and in every tenant, however far it gets. It leaves a decision on another module's
permission alone unless it captures it, and a registration that ends changes each decision it
captures. -/
theorem service_registration_spares_other_modules (direct : caller.gateway = false)
    (own : ∀ tid, OwnGrants caller.moduleName (w.tenants tid))
    (ran : registerPermissions fs nid allTenants caller req w = (out, post))
    (ofModule : p.isLegacy = false) (other : p.moduleName ≠ caller.moduleName)
    (accurate : lookup.Accurate (w.tenants tid).tuples)
    (afterAccurate : afterLookup.Accurate (post.tenants tid).tuples) :
    Catalogue.SparesOthers caller.moduleName w.catalogue post.catalogue
      ∧ ForeignUnchanged caller.moduleName (w.tenants tid) (post.tenants tid)
      ∧ (¬Captured allTenants caller req w tid uid p →
        (post.tenants tid).decides afterLookup uid p = (w.tenants tid).decides lookup uid p)
      ∧ ((∃ res, out = .ok res) → (post.tenants tid).decides afterLookup uid p
          = (w.tenants tid).decides lookup uid p →
        ¬Captured allTenants caller req w tid uid p) := by
  have spares := @registerPermissions_spares fs nid allTenants caller req direct w
  have spec := @registerPermissions_spec fs nid allTenants caller req w direct own w rfl
  rw [ran] at spares spec
  refine ⟨spares, ?_⟩
  rcases out with error | res
  · rcases spec with rfl | ⟨tns, isTenants, registered⟩
    · refine ⟨ForeignUnchanged.refl _ _, fun _ => decides_of_same rfl accurate afterAccurate, ?_⟩
      rintro ⟨res, impossible⟩
      cases impossible
    · refine ⟨registered.isModule ▸ (registered.confined.isolated tid).foreignUnchanged,
        fun free => registered.decides_eq ofModule other accurate afterAccurate fun captured =>
          free ⟨tns, isTenants, captured⟩, ?_⟩
      rintro ⟨res, impossible⟩
      cases impossible
  · obtain ⟨tns, isTenants, registered, delivered⟩ := spec
    refine ⟨registered.isModule ▸ (registered.confined.isolated tid).foreignUnchanged,
      fun free => registered.decides_eq ofModule other accurate afterAccurate fun captured =>
        free ⟨tns, isTenants, captured⟩, ?_⟩
    rintro - same ⟨_, alsoTenants, isNamed, captures⟩
    rw [isTenants, Option.some.injEq] at alsoTenants
    subst alsoTenants
    have chg := captures.decides (registered.confined.isolated tid)
      (delivered tid isNamed) (registered.isModule ▸ registered.named)
      (registered.isModule ▸ other) ofModule accurate afterAccurate
    rw [chg.1, chg.2] at same
    cases same

/-! A module that registers `docs:read` and grants it to the members of a tenant which still
has the legacy permission. -/

def docsTenant : TenantData := TenantData.withMember 7 [⟨"", "docs", "read"⟩] [] []

def docsWorld : World where
  catalogue := ⟨[⟨"mail", "Mail", false⟩], [⟨⟨"mail", "mail", "send"⟩, "Send mail", false⟩], [],
    Catalogue.defined_nil⟩
  tenants := fun _ => docsTenant
  calls := 0

def docsRequest : RegisterPermissionsRequest where
  moduleName := ""
  displayName := "Files"
  permissions := [⟨"docs", "read", "Read documents"⟩]
  roles := []
  declaresRoles := false
  grants := [⟨"member", ["docs:read"]⟩]
  declaresGrants := true
  tenantIDs := [1]

def filesCaller : Caller := ⟨"files", "files", false⟩

def docsRun : Except RpcError RegisterResult × World :=
  registerPermissions (fun _ => none) id (some [1]) filesCaller docsRequest docsWorld

/-- Members may read another module's documents, which has not registered the permission. -/
theorem registration_captures_unregistered_permission : docsRun.1.isOk = true
      ∧ (docsWorld.tenants 1).decides (fun _ _ => none) 7 ⟨"mail", "docs", "read"⟩ = false
      ∧ (docsRun.2.tenants 1).decides (fun _ _ => none) 7 ⟨"mail", "docs", "read"⟩ = true := by
  refine ⟨?_, ?_, ?_⟩ <;> decide +kernel

theorem docsTenant_own : OwnGrants "files" docsTenant := by
  intro r mem copy
  simp only [docsTenant, TenantData.withMember, List.mem_singleton] at mem
  subst mem
  cases copy.1

theorem service_registration_spares_mail_send :
    Catalogue.SparesOthers "files" docsWorld.catalogue docsRun.2.catalogue
      ∧ ForeignUnchanged "files" docsTenant (docsRun.2.tenants 1)
      ∧ (docsRun.2.tenants 1).decides (fun _ _ => none) 7 ⟨"mail", "mail", "send"⟩
        = docsTenant.decides (fun _ _ => none) 7 ⟨"mail", "mail", "send"⟩ := by
  have spared := @service_registration_spares_other_modules (fun _ => none) id (some [1])
    filesCaller docsRequest docsWorld docsRun.2 docsRun.1 1 7 ⟨"mail", "mail", "send"⟩
    (fun _ _ => none) (fun _ _ => none) rfl (fun _ => docsTenant_own) Prod.mk.eta.symm rfl
    (by decide) (fun _ _ _ impossible => by cases impossible)
    (fun _ _ _ impossible => by cases impossible)
  refine ⟨spared.1, spared.2.1, spared.2.2.1 ?_⟩
  rintro ⟨tns, -, -, -, -, -, s, -, grant, -, -, gives⟩
  exact absurd gives.1 (by decide)

end Isolation

end TangraAuth.Grpcapi

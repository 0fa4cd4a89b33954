import TangraAuth.Authz.Objects
import TangraAuth.Grpcapi.Authorization

/-!
Contract: a module's registration as its client library checks and sends it, against
the checks of the service that receives it.

Owns: the library's registration with its validation and its request, the order of
the service's checks on a request, and the registrations on which both agree.

Does not own: sending the request, and what an accepted registration changes.
-/

namespace TangraAuth.AuthClient

open Library Store
open TangraAuth.Authz
open TangraAuth.Authz.Objects (isHex validTenantID)
open TangraAuth.Grpcapi

/-! ### The library's registration -/

def maxPermissions : Nat := 200
def maxRoles : Nat := 20
def maxRolePermissions : Nat := 200

/-- The grants are a map: one list of references for each role. -/
structure Registration where
  moduleName : String
  displayName : String
  permissions : List PermissionDef
  roles : List ModuleRole
  builtinGrants : List BuiltinGrant
  granted : UniqueKey BuiltinGrant.role builtinGrants
  declaresGrants : Bool
  tenantIDs : List String

/-- What is wrong with a registration, with what the message names. -/
inductive Invalid where
  | moduleName (name : String)
  | displayName
  | tooManyPermissions (count : Nat)
  | permission (ref : String)
  | duplicatePermission (ref : String)
  | tooManyRoles (count : Nat)
  | roleSlug (s : String)
  | duplicateRole (s : String)
  | roleText (s : String)
  | rolePermissions (s : String) (count : Nat)
  | foreignPermission (s ref : String)
  | grantRole (r : Slug)
  | foreignGrant (r : Slug) (ref : String)
  | tenantID (text : String)
deriving DecidableEq, Repr

def shortRef (p : PermissionDef) : String :=
  p.resource ++ ":" ++ p.action

/-- The references of the permissions, after those in `own`. -/
def checkPermissions : List String → List PermissionDef → Except Invalid (List String)
  | own, [] => .ok own
  | own, p :: rest =>
    if !validResource p.resource || !validAction p.action
        || !printable p.description 256 then .error (.permission (shortRef p))
    else if own.contains (shortRef p) then
      .error (.duplicatePermission (shortRef p))
    else checkPermissions (shortRef p :: own) rest

namespace Registration

variable (reg : Registration)

/-- The short form of a reference that is short or names the module. -/
def short (ref : String) : String :=
  match fields ':' ref with
  | [mod, resource, action] =>
    if mod = reg.moduleName then resource ++ ":" ++ action else ref
  | _ => ref

/-- What is wrong with a role; `slugs` are those before it. -/
def roleInvalid (own slugs : List String) (r : ModuleRole) : Option Invalid :=
  let name := trimSpace r.displayName
  if !validRoleDefSlug r.slug then some (.roleSlug r.slug)
  else if slugs.contains r.slug then some (.duplicateRole r.slug)
  else if name == "" || !printable name 120 || !printable r.description 256 then
    some (.roleText r.slug)
  else if r.permissions.isEmpty || decide (maxRolePermissions < r.permissions.length) then
    some (.rolePermissions r.slug r.permissions.length)
  else
    r.permissions.findSome? fun ref =>
      if own.contains (reg.short ref) then none
      else some (.foreignPermission r.slug ref)

def checkRoles (own : List String) : List String → List ModuleRole → Option Invalid
  | _, [] => none
  | slugs, r :: rest =>
    match reg.roleInvalid own slugs r with
    | some problem => some problem
    | none => checkRoles own (r.slug :: slugs) rest

def grantInvalid (own : List String) (grant : BuiltinGrant) : Option Invalid :=
  if !builtinRoleSlugs.contains grant.role then some (.grantRole grant.role)
  else
    grant.permissions.findSome? fun ref =>
      if own.contains ref then none else some (.foreignGrant grant.role ref)

def tenantInvalid (text : String) : Option Invalid :=
  if validTenantID text then none else some (.tenantID text)

/-- The grammars and limits are the service's. -/
def validate : Option Invalid :=
  if !validModule reg.moduleName then some (.moduleName reg.moduleName)
  else if !printable reg.displayName 120 then some .displayName
  else if maxPermissions < reg.permissions.length then
    some (.tooManyPermissions reg.permissions.length)
  else
    match checkPermissions [] reg.permissions with
    | .error problem => some problem
    | .ok own =>
      if maxRoles < reg.roles.length then
        some (.tooManyRoles reg.roles.length)
      else
        (reg.checkRoles own [] reg.roles).or ((reg.builtinGrants.findSome? (grantInvalid own)).or
            (reg.tenantIDs.findSome? tenantInvalid))

def sentRole (r : ModuleRole) : ModuleRole :=
  { slug := r.slug
    displayName := trimSpace r.displayName
    description := r.description
    permissions := r.permissions.map reg.short }

end Registration

/-- The number a tenant's text writes in hexadecimal digits. -/
def tenantNumber (text : String) : TenantID :=
  (text.toList.filter isHex).foldl
    (fun number letter =>
      16 * number + if letter ≤ '9' then letter.toNat - '0'.toNat
        else letter.toNat - 'a'.toNat + 10)
    0

/-- The grants are sent in the order of their roles. -/
def Registration.request (reg : Registration) : RegisterPermissionsRequest where
  moduleName := reg.moduleName
  displayName := reg.displayName
  permissions := reg.permissions
  roles := reg.roles.map reg.sentRole
  declaresRoles := true
  grants := reg.builtinGrants.insertionSort fun first second => first.role ≤ second.role
  declaresGrants := reg.declaresGrants
  tenantIDs := reg.tenantIDs.map tenantNumber

/-! ### The service's checks -/

/-- The service whose registrations are on behalf of other modules. -/
def gatewayService (configured : String) : String :=
  if configured = "" then "gateway" else configured

/-- The caller that the verified identity of a module's service stands for. -/
def serviceCaller (configured id mod : String) : Caller :=
  ⟨id, mod, mod == gatewayService configured⟩

/-- The refused roles of a request, or why nothing of it is registered; `texts` are the
tenants as the request writes them. -/
def checkRequest (caller : Caller) (texts : List String) (req : RegisterPermissionsRequest) :
    Except RpcError (List RoleError) :=
  match req.problem caller with
  | some error => .error error
  | none =>
    if caller.gateway = true ∧ req.moduleName = authModule then .ok []
    else if !texts.all validTenantID then .error .invalidArgument
    else if caller.gateway = true ∧ req.moduleName = "" then .ok []
    else
      let registered := req.registration caller req.tenantIDs
      match registered.validate with
      | .error error => .error (decisionError error)
      | .ok (_, refused) =>
        if registered.delegateAllowed then .ok refused else .error .invalidArgument

/-! ### What the library's checks say -/

theorem checkPermissions_ok {perms : List PermissionDef} :
    ∀ {own res : List String}, checkPermissions own perms = .ok res →
      (∀ p ∈ perms, validResource p.resource = true
        ∧ validAction p.action = true ∧ printable p.description 256 = true)
      ∧ ∀ ref, ref ∈ res ↔ ref ∈ own ∨ ref ∈ perms.map shortRef := by
  induction perms with
  | nil =>
    intro own res checked
    cases checked
    simp
  | cons p rest ih =>
    intro own res checked
    unfold checkPermissions at checked
    grind

namespace Registration

variable {reg : Registration}

/-- What the library promises of a registration it sends. -/
structure Valid (reg : Registration) : Prop where
  moduleName : validModule reg.moduleName = true
  displayName : printable reg.displayName 120 = true
  permissionCount : reg.permissions.length ≤ maxPermissions
  permissions : ∀ p ∈ reg.permissions, validResource p.resource = true ∧ validAction p.action = true
      ∧ printable p.description 256 = true
  roleCount : reg.roles.length ≤ maxRoles
  roles : ∃ own, (∀ ref, ref ∈ own ↔ ref ∈ reg.permissions.map shortRef)
    ∧ reg.checkRoles own [] reg.roles = none
  grants : ∀ grant ∈ reg.builtinGrants, builtinRoleSlugs.contains grant.role = true
    ∧ ∀ ref ∈ grant.permissions, ref ∈ reg.permissions.map shortRef
  tenants : ∀ text ∈ reg.tenantIDs, validTenantID text = true

theorem grantInvalid_eq_none {own : List String} {grant : BuiltinGrant} :
    grantInvalid own grant = none ↔ builtinRoleSlugs.contains grant.role = true
      ∧ ∀ ref ∈ grant.permissions, ref ∈ own := by
  unfold grantInvalid
  grind

theorem validate_eq_none (checked : reg.validate = none) : Valid reg := by
  unfold validate at checked
  cases collected : checkPermissions [] reg.permissions with
  | error problem =>
    rw [collected] at checked
    split_ifs at checked
  | ok own =>
    obtain ⟨perms, members⟩ := checkPermissions_ok collected
    have isOwn : ∀ ref, ref ∈ own ↔ ref ∈ reg.permissions.map shortRef := by
      simpa using members
    rw [collected] at checked
    split_ifs at checked with badModule badName tooMany manyRoles
    rw [Bool.not_eq_true', Bool.not_eq_false] at badModule badName
    simp only [Option.or_eq_none_iff, List.findSome?_eq_none_iff] at checked
    obtain ⟨roles, grants, tns⟩ := checked
    exact
      { moduleName := badModule
        displayName := badName
        permissionCount := Nat.le_of_not_lt tooMany
        permissions := perms
        roleCount := Nat.le_of_not_lt manyRoles
        roles := ⟨own, isOwn, roles⟩
        grants := by
          intro grant mem
          obtain ⟨builtin, refs⟩ := grantInvalid_eq_none.mp (grants grant mem)
          grind
        tenants := by
          intro text mem
          have accepted := tns text mem
          unfold tenantInvalid at accepted
          split_ifs at accepted with valid
          exact valid }

end Registration

/-! ### The same registration at the service -/

/-- A short reference inside the grammar is not read as a full one. -/
theorem parse_shortRef {p : PermissionDef} (resource : validResource p.resource = true)
    (action : validAction p.action = true) : parse (shortRef p) = none := by
  have wellFormed : (p.ref "").wellFormed = true := by
    simp only [Permission.wellFormed, PermissionDef.ref, Permission.isLegacy, resource, action,
      beq_self_eq_true, Bool.true_or, Bool.and_self]
  have twoParts : [p.resource, p.action] = fields ':' (shortRef p) :=
    (joined_eq_iff (by decide) (by decide) wellFormed).mp rfl
  unfold parse
  rw [← twoParts]

/-- The registration that the service reads from the request. -/
def Registration.received (reg : Registration) (caller : Caller)
    (tns : List TenantID) : Authz.Registration :=
  reg.request.registration caller tns

section Sent

variable {reg : Registration} {caller : Caller} {tns : List TenantID}
  {own : List String}

theorem shortOf_own (valid : reg.Valid) {ref : String}
    (isOwn : ref ∈ reg.permissions.map shortRef) :
    (reg.received caller tns).shortOf ref = ref := by
  obtain ⟨p, mem, rfl⟩ := List.mem_map.mp isOwn
  grind [Registration.Valid.permissions, parse_shortRef, Registration.shortOf]

theorem roleProblem_sentRole (valid : reg.Valid)
    (members : ∀ ref, ref ∈ own ↔ ref ∈ reg.permissions.map shortRef)
    {slugs : List String} {r : ModuleRole}
    (checked : reg.roleInvalid own slugs r = none) :
    (reg.received caller tns).roleProblem slugs (reg.sentRole r) = none := by
  unfold Registration.roleInvalid at checked
  dsimp only at checked
  split_ifs at checked with badSlug duplicate badText badCount
  simp only [List.findSome?_eq_none_iff, ite_eq_left_iff, reduceCtorEq, imp_false,
    not_not] at checked
  simp only [Bool.or_eq_true, not_or, Bool.not_eq_true', Bool.not_eq_false,
    decide_eq_true_eq, Bool.not_eq_true] at badSlug duplicate badText badCount
  obtain ⟨⟨named, name⟩, desc⟩ := badText
  obtain ⟨nonempty, count⟩ := badCount
  have refs : (r.permissions.map reg.short).all (fun text =>
      (reg.received caller tns).own.contains ((reg.received caller tns).shortOf text)) = true := by
    rw [List.all_map, List.all_eq_true]
    intro ref mem
    have isOwn := (members _).mp (List.contains_iff_mem.mp (checked ref mem))
    rw [Function.comp_apply, shortOf_own valid isOwn, List.contains_iff_mem]
    exact isOwn
  unfold Authz.Registration.roleProblem Registration.sentRole
  dsimp only
  rw [trimSpace_trimSpace, refs]
  have countKept : ¬ Authz.maxRolePermissions < r.permissions.length := count
  have fresh : r.slug ∉ slugs := by simpa using duplicate
  simp [badSlug, fresh, named, name, desc, nonempty, countKept]

/-- The service refuses no role that the library checked. -/
theorem checkRoles_sent (valid : reg.Valid)
    (members : ∀ ref, ref ∈ own ↔ ref ∈ reg.permissions.map shortRef)
    {roles : List ModuleRole} : ∀ {slugs : List String},
    reg.checkRoles own slugs roles = none → ((reg.received caller tns).checkRoles slugs
        (roles.map reg.sentRole)).2 = [] := by
  induction roles with
  | nil => exact fun _ => rfl
  | cons r rest ih =>
    intro slugs checked
    unfold Registration.checkRoles at checked
    split at checked
    case h_1 => cases checked
    case h_2 accepted =>
      rw [List.map_cons, Authz.Registration.checkRoles]
      rw [roleProblem_sentRole valid members accepted]
      exact ih checked

theorem grants_sent (valid : reg.Valid) :
    ∀ grant ∈ reg.request.grants, builtinRoleSlugs.contains grant.role = true
      ∧ ∀ ref ∈ grant.permissions, ref ∈ reg.permissions.map shortRef := by
  intro grant mem
  exact valid.grants grant ((List.perm_insertionSort _ _).mem_iff.mp mem)

theorem grantsProblem_sent (valid : reg.Valid) : reg.request.grantsProblem = none := by
  unfold RegisterPermissionsRequest.grantsProblem
  rw [List.findSome?_eq_none_iff]
  intro grant mem
  obtain ⟨builtin, refs⟩ := grants_sent valid grant mem
  have registered : grant.permissions.all reg.request.own.contains = true := by
    rw [List.all_eq_true]
    exact fun ref listed => List.contains_iff_mem.mpr (refs ref listed)
  rw [builtin, registered]
  rfl

/-- Of the rules on a whole registration, the library leaves out one. -/
theorem wellFormed_sent (valid : reg.Valid) : (reg.received caller tns).wellFormed
      = (trimSpace reg.displayName == reg.displayName) := by
  have mod : validModule (reg.received caller tns).moduleName = true := by
    have named : reg.moduleName ≠ "" := validModule_ne_empty valid.moduleName
    have same : (reg.received caller tns).moduleName = reg.moduleName :=
      if_neg named
    rw [same]
    exact valid.moduleName
  have dn : printable (reg.received caller tns).displayName 120 = true :=
    valid.displayName
  have perms : (reg.received caller tns).permissions.all (fun p =>
      validResource p.resource && validAction p.action && printable p.description 256) = true := by
    rw [List.all_eq_true]
    intro p mem
    obtain ⟨resource, action, desc⟩ := valid.permissions p mem
    rw [resource, action, desc]
    rfl
  have grants : (reg.received caller tns).grants.all (fun grant =>
      builtinRoleSlugs.contains grant.role && grant.permissions.all
        (reg.received caller tns).own.contains) = true := by
    rw [List.all_eq_true]
    intro grant mem
    obtain ⟨builtin, refs⟩ := grants_sent valid grant mem
    rw [builtin, Bool.true_and, List.all_eq_true]
    exact fun ref listed => List.contains_iff_mem.mpr (refs ref listed)
  have permissionCount :
      (reg.received caller tns).permissions.length ≤ maxRegistrationPermissions :=
    valid.permissionCount
  have roleCount : (reg.received caller tns).roles.length ≤ maxModuleRoles := by
    have kept : (reg.received caller tns).roles.length = reg.roles.length :=
      List.length_map ..
    rw [kept]
    exact valid.roleCount
  unfold Authz.Registration.wellFormed
  rw [grants, perms, mod, dn, decide_eq_true permissionCount, decide_eq_true roleCount]
  simp only [Bool.true_and, Bool.and_true]
  rfl

/-- The roles of a request are always declared, so the gateway may not send it. -/
theorem problem_sent (valid : reg.Valid) {configured id : String} (isVerified : id ≠ "") :
    reg.request.problem (serviceCaller configured id reg.moduleName)
      = if reg.moduleName = gatewayService configured then some .gatewayRoles else none := by
  have named : reg.moduleName ≠ "" := validModule_ne_empty valid.moduleName
  have declares : reg.request.declares = true := by
    simp [RegisterPermissionsRequest.declares, Registration.request]
  have permissionCount : ¬ maxRegistrationPermissions < reg.permissions.length :=
    Nat.not_lt.mpr valid.permissionCount
  have roleCount : ¬ maxModuleRoles < reg.request.roles.length := by
    have kept : reg.request.roles.length = reg.roles.length := List.length_map ..
    rw [kept]
    exact Nat.not_lt.mpr valid.roleCount
  have sameModule : reg.request.moduleName = reg.moduleName := rfl
  have samePermissions : reg.request.permissions = reg.permissions := rfl
  unfold RegisterPermissionsRequest.problem serviceCaller
  simp only [isVerified, named, sameModule, samePermissions, valid.moduleName, declares,
    permissionCount, roleCount, grantsProblem_sent valid, beq_iff_eq, ↓reduceIte, ne_eq,
    not_true_eq_false, not_false_eq_true, and_true, false_and, and_false, or_self,
      Bool.true_eq_false]

variable (caller tns) in
theorem validate_sent (valid : reg.Valid) : (trimSpace reg.displayName = reg.displayName →
      ∃ defs, (reg.received caller tns).validate = .ok (defs, []))
    ∧ (trimSpace reg.displayName ≠ reg.displayName →
      (reg.received caller tns).validate = .error .badRegistration) := by
  unfold Authz.Registration.validate
  rw [wellFormed_sent valid]
  constructor
  · intro trimmed
    obtain ⟨own, members, checked⟩ := valid.roles
    have refused : ((reg.received caller tns).checkRoles []
        (reg.received caller tns).roles).2 = [] :=
      checkRoles_sent valid members checked
    grind
  grind

/-- What the service makes of a checked registration that the module's own service sends. -/
theorem checkRequest_sent (valid : reg.Valid) {configured id : String}
    (isVerified : id ≠ "") (isModule : reg.moduleName ≠ gatewayService configured) :
    checkRequest (serviceCaller configured id reg.moduleName) reg.tenantIDs reg.request
      = if trimSpace reg.displayName = reg.displayName then .ok []
        else .error .invalidArgument := by
  have direct : (serviceCaller configured id reg.moduleName).gateway = false :=
    beq_eq_false_iff_ne.mpr isModule
  have tenantsValid : reg.tenantIDs.all validTenantID = true :=
    List.all_eq_true.mpr valid.tenants
  obtain ⟨accepts, refuses⟩ := validate_sent
    (serviceCaller configured id reg.moduleName) reg.request.tenantIDs valid
  unfold checkRequest
  rw [problem_sent valid isVerified, if_neg isModule]
  simp only [direct, tenantsValid, Bool.false_eq_true, false_and, ↓reduceIte, Bool.not_true]
  unfold Registration.received at accepts refuses
  by_cases trimmed : trimSpace reg.displayName = reg.displayName
  · obtain ⟨defs, accepted⟩ := accepts trimmed
    have delegated : (reg.request.registration (serviceCaller configured id reg.moduleName)
        reg.request.tenantIDs).delegateAllowed = true := by
      simp [Authz.Registration.delegateAllowed, RegisterPermissionsRequest.registration, direct]
    rw [accepted, if_pos trimmed]
    exact if_pos delegated
  · rw [refuses trimmed, if_neg trimmed]
    rfl

end Sent

section Agreement

variable {reg : Registration}

/-- A checked registration is accepted, with no role refused, exactly if its display name
stands without surrounding white space and its module is not the gateway. -/
theorem checked_accepted_iff (checked : reg.validate = none) (configured id : String)
    (isVerified : id ≠ "") :
    checkRequest (serviceCaller configured id reg.moduleName) reg.tenantIDs reg.request = .ok []
      ↔ trimSpace reg.displayName = reg.displayName
        ∧ reg.moduleName ≠ gatewayService configured := by
  have valid := reg.validate_eq_none checked
  by_cases isGateway : reg.moduleName = gatewayService configured
  · have refused : checkRequest (serviceCaller configured id reg.moduleName)
        reg.tenantIDs reg.request = .error .gatewayRoles := by
      unfold checkRequest
      rw [problem_sent valid isVerified, if_pos isGateway]
    rw [refused]
    simp [isGateway]
  · rw [checkRequest_sent valid isVerified isGateway]
    split_ifs with trimmed
    · simp [trimmed, isGateway]
    · simp [trimmed]

end Agreement

namespace Sample

/-- A registration with a role, a full reference in it, and a grant. -/
def registration (dn : String) : Registration where
  moduleName := "warden"
  displayName := dn
  permissions := [⟨"doors", "open", "Open doors"⟩, ⟨"doors", "list", ""⟩]
  roles := [⟨"porter", " Porter ", "", ["doors:list", "warden:doors:open"]⟩]
  builtinGrants := [⟨"owner", ["doors:open"]⟩]
  granted := by simp [UniqueKey]
  declaresGrants := true
  tenantIDs := ["00000000-0000-4000-8000-0000000000aa"]

def identity : String := "spiffe://tangra/svc/warden"

end Sample

theorem trimmed_registration_accepted : checkRequest (serviceCaller "" Sample.identity "warden")
      ["00000000-0000-4000-8000-0000000000aa"] (Sample.registration "Warden").request
      = .ok [] :=
  (@checked_accepted_iff (Sample.registration "Warden") (by decide +kernel) ""
    Sample.identity (by decide)).mpr ⟨by decide +kernel, by decide +kernel⟩

/-- The library accepts a display name with a leading blank, the service does not. -/
theorem padded_registration_refused : (Sample.registration " Warden").validate = none
      ∧ checkRequest (serviceCaller "" Sample.identity "warden")
        (Sample.registration " Warden").tenantIDs (Sample.registration " Warden").request
        = .error .invalidArgument := by
  constructor <;> decide +kernel

end TangraAuth.AuthClient

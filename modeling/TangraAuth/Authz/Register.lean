import Mathlib.Algebra.GroupWithZero.Nat
import TangraAuth.Authz.Registration

/-!
Contract: the registration of a module, call by call.

Owns: the permissions, the migration of legacy grants, the role copies and the
built-in grants of one tenant, the loop over the tenants, and calls that fail at
any point, a write of tuples after any of its requests.

Does not own: audit events, the tenant guard, and the tuples that tie a
permission to its tenant.
-/

namespace TangraAuth.Authz

open Library Store Accounts

/-! ### Calls to the store and to the backend -/

/-- One tenant while calls are made; `calls` counts them. -/
structure Site where
  data : TenantData
  calls : Nat

abbrev Work := Task Site RegisterError

/-- What goes wrong: the number of the call, and how much of it took effect. A statement was
refused and had no effect, or it was made and its answer was lost; a write of tuples may stop
after any of its requests. -/
abbrev CallFaults := Nat → Option Nat

section Calls

variable (fs : CallFaults)

/-- A statement of the store, with `some 0` for a refusal and more for a lost answer. -/
def call {α : Type} (stmt : TenantData → Except RegisterError (α × TenantData)) : Work α :=
  fun site =>
    match stmt site.data, fs site.calls with
    | .ok (val, next), none => (.ok val, ⟨next, site.calls + 1⟩)
    | .ok (_, next), some (_ + 1) => (.error .unavailable, ⟨next, site.calls + 1⟩)
    | .error error, none => (.error error, ⟨site.data, site.calls + 1⟩)
    | _, some _ => (.error .unavailable, ⟨site.data, site.calls + 1⟩)

def query {α : Type} (v : TenantData → α) : Work α :=
  call fs fun d => .ok (v d, d)

def perform (stmt : TenantData → TenantData) : Work Unit :=
  call fs fun d => .ok ((), stmt d)

/-- A statement that finds no row or that a constraint refuses. -/
def executeChecked (stmt : TenantData → Option TenantData) : Work Unit :=
  call fs fun d =>
    match stmt d with
    | some next => .ok ((), next)
    | none => .error .notFound

/-- Cached decisions become void only when the whole write was made. -/
def writeTuples (adds removes : List Tuple) : Work Unit := fun site =>
  match writeWith maxTuplesPerWrite (fs site.calls) site.data.tuples adds removes with
  | (true, ts) => (.ok (), ⟨site.data.withTuples ts, site.calls + 1⟩)
  | (false, ts) =>
    (.error .unavailable, ⟨{ site.data with tuples := ts }, site.calls + 1⟩)

/-- The write of tuples that no check reads. -/
def writeUnread : Work Unit := fun site =>
  match fs site.calls with
  | none => (.ok (), ⟨site.data.withTuples site.data.tuples, site.calls + 1⟩)
  | some _ => (.error .unavailable, ⟨site.data, site.calls + 1⟩)

/-! ### Grants -/

/-- The tuples of the grants that `present` lacks. -/
def newGrants (s : Slug) (present wanted : List Permission) : List Tuple :=
  (missing (·) present wanted).flatMap (grantTuples s)

/-- How many grants were added and removed. -/
def setGrants (r : Role) (want : List Permission) : Work (Nat × Nat) := do
  let current ← query fs fun d => d.mirror.rolePermissions r.id
  let wanted := dedupe [] want
  let adds := newGrants r.slug current wanted
  let removes := newGrants r.slug wanted current
  if adds.isEmpty && removes.isEmpty then pure (0, 0)
  else
    writeTuples fs adds removes
    executeChecked fs fun d => d.replaceRolePermissions r.id wanted
    pure (adds.length, removes.length)

def addGrants (r : Role) (perms : List Permission) : Work Nat := do
  let current ← query fs fun d => d.mirror.rolePermissions r.id
  let chg ← setGrants fs r (current ++ perms)
  pure chg.1

/-! ### Permissions -/

/-- A row whose description is known is not written again. -/
def upsertPermissions (mod registrant : String) :
    (Permission → Option String) → List PermissionDef → Work Unit
  | _, [] => pure ()
  | known, p :: rest =>
    if known (p.ref mod) = some p.description then
      upsertPermissions mod registrant known rest
    else do
      perform fs fun d =>
        d.upsertPermission (p.ref mod) ⟨p.description, registrant⟩
      upsertPermissions mod registrant (Function.update known (p.ref mod) (some p.description)) rest

def knownDescriptions (d : TenantData) (p : Permission) : Option String :=
  if p ∈ d.mirror.catalogue then some (d.permissionInfo p).description
  else none

def validDefs (mod : String) (perms : List PermissionDef) : Bool :=
  (mod == "" || validModule mod)
    && perms.all fun p =>
      validResource p.resource && validAction p.action && decide (p.description.utf8ByteSize ≤ 256)

/-- New permissions get the tuple of their tenant. -/
def writeNew (mod : String) (known : Permission → Option String)
    (perms : List PermissionDef) : Work Unit :=
  if perms.any fun p => (known (p.ref mod)).isNone then
    writeUnread fs
  else pure ()

/-- Registers permissions in the tenant, under no module for an old gateway. -/
def registerPermissions (mod registrant : String) (perms : List PermissionDef) : Work Nat :=
  if validDefs mod perms then do
    let known ← query fs knownDescriptions
    writeNew fs mod known perms
    upsertPermissions fs mod registrant known perms
    pure perms.length
  else Task.fail .badPermission

/-! ### Migration of legacy grants -/

/-- What a role gets for the legacy grants the module has registered. -/
def migrated (mod : String) (known grants : List Permission) : List Permission :=
  (grants.filter fun grant => grant.isLegacy && known.contains (grant.withModule mod)).map
    fun grant => grant.withModule mod

def migrateRole (mod : String) (known : List Permission) (r : Role) : Work Unit := do
  let grants ← query fs fun d => d.mirror.rolePermissions r.id
  if (migrated mod known grants).isEmpty then pure ()
  else
    let _ ← addGrants fs r (migrated mod known grants)
    pure ()

/-- Once for a module in a tenant. -/
def migrate (mod : String) : Work Unit := do
  perform fs fun d => d.ensureTenantModule mod
  let row ← query fs fun d => d.tenantModule mod
  match row with
  | none => Task.fail .notFound
  | some row =>
    if row.migrated then pure ()
    else
      let known ← query fs fun d => d.mirror.catalogue
      let roles ← query fs fun d => d.mirror.roles
      let _ ← Task.each (migrateRole fs mod known) roles
      executeChecked fs fun d => d.markLegacyMigrated mod

/-! ### Role copies -/

/-- The definition's permissions that the tenant knows. -/
def wantedGrants (mod : String) (known : List Permission) (df : ModuleRoleDef) : List Permission :=
  (df.permissions.filterMap (qualify mod)).filter known.contains

variable (nid : Nat → RoleID)

/-- The tenant gets its copy. A copy made meanwhile is used instead. -/
def createCopy (mod : String) (df : ModuleRoleDef) : Work Role :=
  if validModule mod && validRoleDefSlug df.slug then do
    let id ← Task.read fun site => nid site.calls
    let r : Role := ⟨id, moduleRoleSlug mod df.slug, .ofModule, false⟩
    writeTuples fs [.roleTenant r.slug] []
    let inserted ← call fs fun d =>
      match d.insertRole r
          ⟨df.displayName, df.description, mod, df.slug⟩ with
      | some next => .ok (true, next)
      | none => .ok (false, d)
    if inserted then pure r
    else
      let found ← query fs fun d => d.moduleRole mod df.slug
      match found with
      | some other => pure other
      | none => Task.fail .notFound
  else Task.fail .malformed

/-- `listed` is the tenant as the roles were listed. -/
def updateCopy (listed : TenantData) (df : ModuleRoleDef) (r : Role) : Work Unit :=
  if (listed.roleInfo r.id).displayName ≠ df.displayName
      ∨ (listed.roleInfo r.id).description ≠ df.description
      ∨ r.retired ≠ df.retired then
    executeChecked fs fun d =>
      d.updateModuleRole r.id df.displayName df.description df.retired
  else pure ()

def syncRole (mod : String) (listed : TenantData) (known : List Permission)
    (df : ModuleRoleDef) : Work Unit :=
  match listed.moduleRole mod df.slug with
  | some r => do
      updateCopy fs listed df r
      let _ ← setGrants fs r (wantedGrants mod known df)
      pure ()
  | none =>
    if df.retired then pure ()
    else do
      let r ← createCopy fs nid mod df
      let _ ← setGrants fs r (wantedGrants mod known df)
      pure ()

def syncRoles (mod : String) (defs : List ModuleRoleDef) : Work Unit := do
  let listed ← query fs fun d => d
  let known ← query fs fun d => d.mirror.catalogue
  let _ ← Task.each (syncRole fs nid mod listed known) defs
  pure ()

/-! ### Built-in grants -/

def builtinRole (d : TenantData) (s : Slug) : Option Role :=
  d.mirror.roles.find? fun r => r.slug == s && r.origin == .builtin

/-- References under the module, each followed by the legacy one that the tenant still has. -/
def grantedRefs (mod : String) (known : List Permission) : List String → Option (List Permission)
  | [] => some []
  | text :: rest =>
    match qualify mod text, grantedRefs mod known rest with
    | some p, some others =>
      some (p :: if known.contains p.legacy then p.legacy :: others else others)
    | _, _ => none

/-- Whether the tenant has the role. -/
def grantBuiltin (mod : String) (grant : BuiltinGrant) : Work Bool := do
  let known ← query fs fun d => d.mirror.catalogue
  match grantedRefs mod known grant.permissions with
  | none => Task.fail .badRegistration
  | some refs =>
    let r ← query fs fun d => builtinRole d grant.role
    match r with
    | none => pure false
    | some r =>
      let _ ← addGrants fs r refs
      pure true

/-- The role keeps a permission of the module that its grants still list. -/
def keeps (mod : String) (grants : List BuiltinGrant) (s : Slug) (p : Permission) : Bool :=
  p.moduleName != mod
    || grants.any fun grant => grant.role == s
      && grant.permissions.any fun text => qualify mod text == some p

def revokeRole (mod : String) (grants : List BuiltinGrant) (r : Role) : Work Nat := do
  let current ← query fs fun d => d.mirror.rolePermissions r.id
  if current.all (keeps mod grants r.slug) then pure 0
  else
    let chg ← setGrants fs r (current.filter (keeps mod grants r.slug))
    pure chg.2

def revokeBuiltin (mod : String) (grants : List BuiltinGrant) : Work Nat :=
  if grants.all fun grant => grant.permissions.all fun text => (qualify mod text).isSome
  then do
    let roles ← query fs fun d =>
      d.mirror.roles.filter fun r => r.origin == .builtin
    let revoked ← Task.each (revokeRole fs mod grants) roles
    pure revoked.sum
  else Task.fail .badRegistration

/-! ### One tenant, then every tenant -/

/-- What a registration did in one tenant; `missing` are the built-in roles it lacks. -/
structure Visit where
  registered : Nat
  revoked : Nat
  missing : List Slug
deriving DecidableEq, Repr

def missingRoles (reg : Registration) (found : List Bool) : List Slug :=
  ((reg.grants.zip found).filter fun pair => !pair.2).map fun pair => pair.1.role

def revokeDeclared (reg : Registration) : Work Nat :=
  if reg.declaresGrants then
    revokeBuiltin fs reg.moduleName reg.grants
  else pure 0

def visitRoles (reg : Registration) (defs : List ModuleRoleDef)
    (registered : Nat) : Work Visit := do
  syncRoles fs nid reg.moduleName defs
  let revoked ← revokeDeclared fs reg
  let found ← Task.each (grantBuiltin fs reg.moduleName) reg.grants
  pure ⟨registered, revoked, missingRoles reg found⟩

def visit (reg : Registration) (defs : List ModuleRoleDef) : Work Visit := do
  let registered ← registerPermissions fs reg.moduleName reg.registrant reg.permissions
  migrate fs reg.moduleName
  if reg.delegate ≠ "" then pure ⟨registered, 0, []⟩
  else visitRoles fs nid reg defs registered

end Calls

structure World where
  catalogue : Catalogue
  tenants : TenantID → TenantData
  calls : Nat

section World

variable (fs : CallFaults)

def catalogueCall {α : Type} (stmt : Catalogue → α × Catalogue) : Task World RegisterError α :=
  fun w =>
    match fs w.calls with
    | none => (.ok (stmt w.catalogue).1,
        { w with catalogue := (stmt w.catalogue).2, calls := w.calls + 1 })
    | some (_ + 1) => (.error .unavailable,
        { w with catalogue := (stmt w.catalogue).2, calls := w.calls + 1 })
    | some 0 => (.error .unavailable, { w with calls := w.calls + 1 })

def onTenant {α : Type} (tid : TenantID) (work : Work α) : Task World RegisterError α :=
  fun w =>
    let (out, site) := work ⟨w.tenants tid, w.calls⟩
    (out, { w with
      tenants := Function.update w.tenants tid site.data
      calls := site.calls })

/-- The definitions the registration no longer declares; a refused role keeps its own. -/
def undeclared (reg : Registration) (current : List ModuleRoleDef) : List String :=
  (current.filter fun df =>
    !(reg.roles.map ModuleRole.slug).contains df.slug && !df.retired).map ModuleRoleDef.slug

def retireUndeclared (reg : Registration) : Task World RegisterError (List String) :=
  if reg.declaresRoles then do
    let current ← catalogueCall fs fun cat =>
      (cat.roleDefsOf reg.moduleName, cat)
    let _ ← Task.each
      (fun s => catalogueCall fs fun cat =>
        ((), cat.retireModuleRoleDef reg.moduleName s))
      (undeclared reg current)
    pure (undeclared reg current)
  else pure []

/-- How many definitions changed, and the slugs of those that were retired. -/
def registerRoleDefs (reg : Registration) (defs : List ModuleRoleDef) :
    Task World RegisterError (Nat × List String) :=
  if reg.delegate = "" then do
    let chg ← Task.each
      (fun df =>
        catalogueCall fs fun cat => cat.upsertModuleRoleDef df)
      defs
    let retired ← retireUndeclared fs reg
    pure (chg.count true, retired)
  else pure (0, [])

structure SkippedGrant where
  role : Slug
  tenants : Nat
  sample : List TenantID
deriving DecidableEq, Repr

structure RegisterResult where
  registered : Nat
  skipped : List SkippedGrant
  roleErrors : List RoleError
  rolesUpserted : Nat
  rolesRetired : List String
  grantsRevoked : Nat
deriving DecidableEq, Repr

/-- One report for each built-in role that some tenant lacks. -/
def skippedGrants (reg : Registration) (visits : List Visit) : List SkippedGrant :=
  (dedupe [] (reg.grants.map BuiltinGrant.role)).filterMap fun s =>
    let lacking := (reg.tenants.zip visits).flatMap fun pair =>
      (pair.2.missing.filter fun other => other == s).map fun _ => pair.1
    if lacking.isEmpty then none
    else some ⟨s, lacking.length, lacking.take maxSkippedSamples⟩

variable (nid : Nat → RoleID)

def registerModule (reg : Registration) (defs : List ModuleRoleDef)
    (roleErrors : List RoleError) : Task World RegisterError RegisterResult := do
  catalogueCall fs fun cat =>
    ((), cat.upsertModule reg.moduleName reg.displayName)
  let _ ← Task.each
    (fun p : PermissionDef => catalogueCall fs fun cat =>
      ((), cat.upsertModulePermission (p.ref reg.moduleName) p.description)) reg.permissions
  let chg ← registerRoleDefs fs reg defs
  let current ← catalogueCall fs fun cat =>
    (cat.roleDefsOf reg.moduleName, cat)
  let visits ← Task.each (fun tid => onTenant tid (visit fs nid reg current)) reg.tenants
  pure
    { registered := (visits.map Visit.registered).sum
      skipped := skippedGrants reg visits
      roleErrors := roleErrors
      rolesUpserted := chg.1
      rolesRetired := chg.2
      grantsRevoked := (visits.map Visit.revoked).sum }

def register (reg : Registration) : Task World RegisterError RegisterResult :=
  match reg.validate with
  | .error error => Task.fail error
  | .ok (defs, roleErrors) =>
    if reg.delegateAllowed then
      registerModule fs nid reg defs roleErrors
    else Task.fail .badRegistration

end World

end TangraAuth.Authz

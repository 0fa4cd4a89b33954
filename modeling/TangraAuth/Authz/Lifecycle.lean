import TangraAuth.Authz.Register

/-!
Contract: the life of modules and tenants on the platform, operation by operation.

Owns: the retirement of a module, the creation of a tenant with its built-in
roles, the module catalogue a new tenant gets, suspension and reactivation, and
the platform these operations act on, calls that fail included.

Does not own: registration itself, sessions, invitations and audit events; the
platform's own tenant, which is never suspended, is a tenant like the others.
-/

namespace TangraAuth.Authz

open Library Store Accounts

/-! ### The retirement of a module -/

namespace Catalogue

variable (cat : Catalogue)

/-- One transaction: the module, its permissions and its role definitions. No row when the
catalogue does not know the module. -/
def retireModule (name : String) : Bool × Catalogue :=
  if cat.modules.any fun row => row.name == name then
    (true,
      { modules := updateWhere (fun row => row.name == name)
          (fun row => { row with retired := true }) cat.modules
        permissions := updateWhere (fun row => row.permission.moduleName == name)
          (fun row => { row with retired := true }) cat.permissions
        roleDefs := updateWhere (fun row => row.moduleName == name)
          (fun row => { row with retired := true }) cat.roleDefs
        defined := uniqueKey_updateWhere (by exact fun _ => rfl) cat.defined })
  else (false, cat)

/-- What a module registers in a new tenant. -/
def currentPermissions (name : String) : List PermissionDef :=
  (cat.permissions.filter fun row => row.permission.moduleName == name && !row.retired).map
    fun row => ⟨row.permission.resource, row.permission.action, row.description⟩

end Catalogue

inductive RetireError where
  | unknownModule
  | failed (error : RegisterError)
deriving DecidableEq, Repr

section Work

variable (fs : CallFaults) (nid : Nat → RoleID)

/-- The tenants that are active when they are listed. -/
def activeTenantIDs (existing : List TenantID) : Task World RegisterError (List TenantID) :=
  fun w =>
    match fs w.calls with
    | none =>
      (.ok (existing.filter fun tid => (w.tenants tid).status == .active),
        { w with calls := w.calls + 1 })
    | some _ => (.error .unavailable, { w with calls := w.calls + 1 })

/-- The copies of the module's roles follow their definitions in every active tenant. -/
def retireCopies (existing : List TenantID) (name : String) : Task World RegisterError Unit := do
  let defs ← catalogueCall fs fun cat => (cat.roleDefsOf name, cat)
  let tns ← activeTenantIDs fs existing
  let _ ← Task.each (fun tid => onTenant tid (syncRoles fs nid name defs)) tns
  pure ()

/-- Returns the slugs of the definitions that were not retired before. -/
def retireModule (existing : List TenantID) (name : String) :
    Task World RetireError (List String) := do
  let pre ← (catalogueCall fs fun cat =>
    (cat.roleDefsOf name, cat)).mapError .failed
  let known ← (catalogueCall fs fun cat => cat.retireModule name).mapError .failed
  if known then
    (retireCopies fs nid existing name).mapError .failed
    pure ((pre.filter fun df => !df.retired).map ModuleRoleDef.slug)
  else Task.fail .unknownModule

/-! ### A new tenant -/

def tenantBuiltinRoles : List Slug := ["owner", "admin", "member", "auditor"]

/-- The tenant's row, before its roles. -/
def TenantData.created : TenantData where
  status := .active
  mirror :=
    { users := [], roles := [], bindings := [], permissions := [], groups := [], members := [],
      groupRoles := [], catalogue := []
      integrity := by constructor <;> simp [UniqueKey] }
  roleInfo := fun _ => ⟨"", "", "", ""⟩
  permissionInfo := fun _ => ⟨"", ""⟩
  modules := []
  tuples := ∅
  version := 0
  copies := by simp

def insertBuiltin (s : Slug) : Work Unit := do
  let id ← Task.read fun site => nid site.calls
  executeChecked fs fun d =>
    d.insertRole ⟨id, s, .builtin, false⟩ ⟨s.capitalize, "", "", ""⟩

def createRoles : Work Unit := do
  let _ ← Task.each (insertBuiltin fs nid) tenantBuiltinRoles
  writeTuples fs (tenantBuiltinRoles.map Tuple.roleTenant) []

/-- Every module that is not retired: its permissions, the migration and its roles. -/
def instantiateModule (tid : TenantID) (row : Module) : Task World RegisterError Unit :=
  if row.retired then pure ()
  else do
    let perms ← catalogueCall fs fun cat =>
      (cat.currentPermissions row.name, cat)
    let _ ← onTenant tid (registerPermissions fs row.name "auth" perms)
    onTenant tid (migrate fs row.name)
    let defs ← catalogueCall fs fun cat =>
      (cat.roleDefsOf row.name, cat)
    onTenant tid (syncRoles fs nid row.name defs)

def instantiateTenant (tid : TenantID) : Task World RegisterError Unit := do
  let modules ← catalogueCall fs fun cat => (cat.modules, cat)
  let _ ← Task.each (instantiateModule fs nid tid) modules
  pure ()

end Work

/-! ### The platform -/

/-- `existing` are the tenants that have a row. -/
structure Platform where
  world : World
  existing : List TenantID

/-- The creation of a tenant is its rows, the registration of the console's permissions and
its module catalogue, one operation each: it may stop after any of them. -/
inductive Operation where
  | register (fs : CallFaults) (nid : Nat → RoleID) (reg : Registration)
  | retireModule (fs : CallFaults) (nid : Nat → RoleID) (name : String)
  | createTenant (fs : CallFaults) (nid : Nat → RoleID) (tid : TenantID)
  | instantiateTenant (fs : CallFaults) (nid : Nat → RoleID) (tid : TenantID)
  | suspend (tid : TenantID)
  | reactivate (tid : TenantID)

namespace Platform

variable (plat : Platform)

def setStatus (tid : TenantID) (status : TenantStatus) : Platform :=
  { plat with
    world :=
      { plat.world with
        tenants := Function.update plat.world.tenants tid
          { plat.world.tenants tid with status := status } } }

def createTenant (fs : CallFaults) (nid : Nat → RoleID) (tid : TenantID) : Platform :=
  let w := { plat.world with
    tenants := Function.update plat.world.tenants tid TenantData.created }
  { world := (onTenant tid (createRoles fs nid) w).2
    existing := tid :: plat.existing }

/-- What an operation leaves, whether it returns an error or not. -/
def after : Operation → Platform
  | .register fs nid reg =>
    { plat with world := (Authz.register fs nid reg plat.world).2 }
  | .retireModule fs nid name =>
    { plat with
      world := (Authz.retireModule fs nid plat.existing name plat.world).2 }
  | .createTenant fs nid tid =>
    if tid ∈ plat.existing then plat
    else plat.createTenant fs nid tid
  | .instantiateTenant fs nid tid =>
    if tid ∈ plat.existing then
      { plat with world := (Authz.instantiateTenant fs nid tid plat.world).2 }
    else plat
  | .suspend tid =>
    if tid ∈ plat.existing then plat.setStatus tid .suspended else plat
  | .reactivate tid =>
    if tid ∈ plat.existing then plat.setStatus tid .active else plat

/-- Every operation is possible at any time. -/
def step (op : Operation) : Option Platform := some (plat.after op)

end Platform

end TangraAuth.Authz

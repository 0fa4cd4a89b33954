import TangraAuth.Authz.PermRef

/-!
Contract: what one tenant holds for authorization, the rows with the columns that
module registration reads and the tuples.

Owns: the state of a tenant with the constraints of the schema as fields, and the
statements of module registration and of the removal of legacy permissions.

Does not own: the calls that run the statements, and the platform's catalogue.
-/

namespace TangraAuth.Authz

open Library Store Accounts

/-! ### Statements on the mirror -/

section Mirror

variable (tb : Tables)

def Tables.upsertPermission (p : Permission) : Tables :=
  { tb with
    catalogue :=
      if p ∈ tb.catalogue then tb.catalogue
      else tb.catalogue ++ [p] }

/-- Only a module's role is retired or brought back. -/
def Tables.retireModuleRole (id : RoleID) (retired : Bool) : Tables :=
  { tb with
    roles := updateWhere (fun r => r.id == id && r.origin == .ofModule)
      (fun r => { r with retired := retired }) tb.roles }

def Tables.deleteLegacyPermissions : Tables :=
  { tb with
    permissions := tb.permissions.filter fun pair => !pair.2.isLegacy
    catalogue := tb.catalogue.filter fun p => !p.isLegacy }

variable {tb}

theorem Integrity.upsertPermission (sound : Integrity tb) (p : Permission) :
    Integrity (tb.upsertPermission p) := { sound with }

theorem Integrity.deleteLegacyPermissions (sound : Integrity tb) :
    Integrity tb.deleteLegacyPermissions :=
  { sound with
    permissions := fun pair stored => sound.permissions pair (List.mem_of_mem_filter stored) }

theorem Tables.retireModuleRole_ids (id : RoleID) (retired : Bool) :
    (tb.retireModuleRole id retired).roles.map Role.id = tb.roles.map Role.id := by
  apply map_updateWhere_of_preserved
  exact fun _ => rfl

theorem Integrity.retireModuleRole (sound : Integrity tb) (id : RoleID) (retired : Bool) :
    Integrity (tb.retireModuleRole id retired) := by
  have ids := tb.retireModuleRole_ids id retired
  have sameID : ∀ r : Role, Role.id { r with retired := retired } = r.id := fun _ => rfl
  have sameSlug : ∀ r : Role, Role.slug { r with retired := retired } = r.slug :=
    fun _ => rfl
  exact
    { sound with
      roles := uniqueKey_updateWhere sameID sound.roles
      slugs := uniqueKey_updateWhere sameSlug sound.slugs
      bindings := fun pair stored => ids ▸ sound.bindings pair stored
      permissions := fun pair stored => ids ▸ sound.permissions pair stored
      groupRoles := fun pair stored => ids ▸ sound.groupRoles pair stored }

theorem Tables.mem_upsertPermission {p other : Permission} :
    other ∈ (tb.upsertPermission p).catalogue ↔ other = p ∨ other ∈ tb.catalogue := by
  unfold Tables.upsertPermission
  grind

theorem Tables.of_mem_retireModuleRole {id : RoleID} {retired : Bool} {r : Role}
    (mem : r ∈ (tb.retireModuleRole id retired).roles) :
    ∃ old ∈ tb.roles, r.id = old.id ∧ r.slug = old.slug ∧ r.origin = old.origin
      ∧ (r = old ∨ (old.id = id ∧ old.origin = .ofModule)) := by
  grind [retireModuleRole]

end Mirror

/-! ### The state of a tenant -/

/-- The columns of `roles` that only registration reads. -/
structure RoleInfo where
  displayName : String
  description : String
  moduleName : String
  moduleSlug : String
deriving DecidableEq, Repr

/-- The columns of `permissions` beside the reference. -/
structure PermissionInfo where
  description : String
  registeredBy : String
deriving DecidableEq, Repr

/-- A row of `tenant_modules`; `migrated` says that the marker is set. -/
structure TenantModule where
  name : String
  migrated : Bool
deriving DecidableEq, Repr

/-- A module's role has the slug of the module and of its definition. -/
def CopySlug (r : Role) (info : RoleInfo) : Prop :=
  r.origin = .ofModule → r.slug = moduleRoleSlug info.moduleName info.moduleSlug

instance (r : Role) (info : RoleInfo) : Decidable (CopySlug r info) :=
  inferInstanceAs (Decidable (_ → _))

/-- `roleInfo` and `permissionInfo` are the further columns of a row by its key; `version`
counts the writes of tuples. -/
structure TenantData where
  status : TenantStatus
  mirror : Mirror
  roleInfo : RoleID → RoleInfo
  permissionInfo : Permission → PermissionInfo
  modules : List TenantModule
  tuples : Finset Tuple
  version : Nat
  copies : ∀ r ∈ mirror.roles, CopySlug r (roleInfo r.id)

namespace TenantData

/-! ### Queries -/

/-- The tenant's copy of a module's role. -/
def isCopy (d : TenantData) (mod s : String) (r : Role) : Bool :=
  r.origin == .ofModule && (d.roleInfo r.id).moduleName == mod && (d.roleInfo r.id).moduleSlug == s

def moduleRole (d : TenantData) (mod s : String) : Option Role :=
  d.mirror.roles.find? (d.isCopy mod s)

def tenantModule (d : TenantData) (mod : String) : Option TenantModule :=
  d.modules.find? fun row => row.name == mod

/-! ### Statements -/

def upsertPermission (d : TenantData) (p : Permission) (info : PermissionInfo) :
    TenantData :=
  { d with
    mirror := ⟨d.mirror.toTables.upsertPermission p, d.mirror.integrity.upsertPermission p⟩
    permissionInfo := Function.update d.permissionInfo p info }

variable (d : TenantData) (id other : RoleID) (dn desc : String)

theorem copies_insert {r : Role} {info : RoleInfo}
    (fresh : r.id ∉ d.mirror.roles.map Role.id) (named : CopySlug r info) :
    ∀ other ∈ (d.mirror.toTables.insertRole r).roles,
      CopySlug other (Function.update d.roleInfo r.id info other.id) := by
  intro other mem
  rcases List.mem_append.mp mem with stored | isNew
  · grind [copies]
  grind

/-- A taken id or slug is a conflict. -/
def insertRole (d : TenantData) (r : Role) (info : RoleInfo) : Option TenantData :=
  if met : (r.id ∉ d.mirror.roles.map Role.id ∧ r.slug ∉ d.mirror.roles.map Role.slug)
      ∧ CopySlug r info then
    some
      { d with
        mirror := ⟨d.mirror.toTables.insertRole r, d.mirror.integrity.insertRole met.1⟩
        roleInfo := Function.update d.roleInfo r.id info
        copies := d.copies_insert met.1.1 met.2 }
  else none

theorem insertRole_eq_some {d post : TenantData} {r : Role} {info : RoleInfo}
    (inserted : d.insertRole r info = some post) :
    ∃ (fresh : r.id ∉ d.mirror.roles.map Role.id ∧ r.slug ∉ d.mirror.roles.map Role.slug)
      (named : CopySlug r info), post =
      { d with
        mirror := ⟨d.mirror.toTables.insertRole r, d.mirror.integrity.insertRole fresh⟩
        roleInfo := Function.update d.roleInfo r.id info
        copies := d.copies_insert fresh.1 named } := by
  unfold insertRole at inserted
  split at inserted
  case isFalse => cases inserted
  case isTrue met =>
    cases inserted
    exact ⟨met.1, met.2, rfl⟩

theorem roleInfo_insert {d : TenantData} {r row : Role} {info : RoleInfo}
    (fresh : r.id ∉ d.mirror.roles.map Role.id) (mem : row ∈ d.mirror.roles) :
    Function.update d.roleInfo r.id info row.id = d.roleInfo row.id := by
  have differs : row.id ≠ r.id := fun same => fresh (same ▸ List.mem_map_of_mem mem)
  exact Function.update_of_ne differs _ _

/-- The row keeps its module and slug. -/
def renamed (info : RoleInfo) (dn desc : String) : RoleInfo :=
  { info with displayName := dn, description := desc }

theorem copies_update (retired : Bool) :
    ∀ r ∈ (d.mirror.toTables.retireModuleRole id retired).roles,
      CopySlug r (Function.update d.roleInfo id (renamed (d.roleInfo id) dn desc) r.id) := by
  grind [copies, Tables.retireModuleRole, CopySlug, renamed]

/-- No row when the role is not a module's. -/
def updateModuleRole (d : TenantData) (id : RoleID) (dn desc : String)
    (retired : Bool) : Option TenantData :=
  if d.mirror.roles.any fun r => r.id == id && r.origin == .ofModule then
    some
      { d with
        mirror := ⟨d.mirror.toTables.retireModuleRole id retired,
          d.mirror.integrity.retireModuleRole id retired⟩
        roleInfo := Function.update d.roleInfo id (renamed (d.roleInfo id) dn desc)
        copies := d.copies_update id dn desc retired }
  else none

theorem updateModuleRole_eq_some {d post : TenantData} {id : RoleID}
    {dn desc : String} {retired : Bool}
    (updated : d.updateModuleRole id dn desc retired = some post) :
    post =
      { d with
        mirror := ⟨d.mirror.toTables.retireModuleRole id retired,
          d.mirror.integrity.retireModuleRole id retired⟩
        roleInfo := Function.update d.roleInfo id (renamed (d.roleInfo id) dn desc)
        copies := d.copies_update id dn desc retired } := by
  unfold updateModuleRole at updated
  split at updated
  case isFalse => cases updated
  case isTrue =>
    cases updated
    rfl

theorem roleInfo_renamed : (Function.update d.roleInfo id (renamed (d.roleInfo id) dn desc)
        other).moduleName = (d.roleInfo other).moduleName
      ∧ (Function.update d.roleInfo id (renamed (d.roleInfo id) dn desc)
        other).moduleSlug = (d.roleInfo other).moduleSlug := by
  by_cases isRow : other = id
  · rw [isRow, Function.update_self]
    exact ⟨rfl, rfl⟩
  · rw [Function.update_of_ne isRow]
    exact ⟨rfl, rfl⟩

def replaceRolePermissions (d : TenantData) (id : RoleID) (perms : List Permission) :
    Option TenantData :=
  if met : perms ≠ [] → id ∈ d.mirror.roles.map Role.id then
    some
      { d with
        mirror := ⟨d.mirror.toTables.replaceRolePermissions id perms,
          d.mirror.integrity.replaceRolePermissions met⟩ }
  else none

def ensureTenantModule (d : TenantData) (mod : String) : TenantData :=
  { d with
    modules :=
      if d.modules.any fun row => row.name == mod then d.modules
      else d.modules ++ [⟨mod, false⟩] }

/-- The marker is set once and never taken back. -/
def markLegacyMigrated (d : TenantData) (mod : String) : Option TenantData :=
  if d.modules.any fun row => row.name == mod then
    some
      { d with
        modules := updateWhere (fun row => row.name == mod)
          (fun row => { row with migrated := true }) d.modules }
  else none

def deleteLegacyPermissions (d : TenantData) : TenantData :=
  { d with
    mirror := ⟨d.mirror.toTables.deleteLegacyPermissions,
      d.mirror.integrity.deleteLegacyPermissions⟩ }

/-- The client's write: the tuples change and cached decisions become void. -/
def withTuples (d : TenantData) (ts : Finset Tuple) : TenantData :=
  { d with tuples := ts, version := d.version + 1 }

/-- A tenant with one active user, who holds the built-in role `member`. -/
def withMember (uid : UserID) (cat grants : List Permission)
    (modules : List TenantModule) : TenantData where
  status := .active
  mirror :=
    { users := [⟨uid, 0, .active⟩]
      roles := [⟨1, "member", .builtin, false⟩]
      bindings := [(uid, 1)]
      permissions := grants.map fun p => (1, p)
      groups := []
      members := []
      groupRoles := []
      catalogue := cat
      integrity :=
        { users := List.nodup_singleton _
          roles := List.nodup_singleton _
          slugs := List.nodup_singleton _
          bindings := by simp
          permissions := by simp
          members := by simp
          groupRoles := by simp } }
  roleInfo := fun _ => ⟨"", "", "", ""⟩
  permissionInfo := fun _ => ⟨"", ""⟩
  modules := modules
  tuples := insert (.roleAssignment "member" uid)
    (grants.map fun p => Tuple.grant "member" p).toFinset
  version := 0
  copies := by simp [CopySlug]

end TenantData

end TangraAuth.Authz

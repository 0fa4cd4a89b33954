import TangraAuth.Authz.Decide
import TangraAuth.Library.Tasks
import TangraAuth.Library.Texts

/-!
Contract: what a module sends when it registers, its validation, and the platform's
catalogue.

Owns: the registration with its limits and grammar, the refusal of single roles,
and the statements on the catalogue of modules.

Does not own: what a registration changes in the tenants.
-/

namespace TangraAuth.Authz

open Library Store

/-! ### Registrations -/

/-- A permission a module registers; the module comes from the registration. -/
structure PermissionDef where
  resource : String
  action : String
  description : String
deriving DecidableEq, Repr

def PermissionDef.ref (perm : PermissionDef) (mod : String) : Permission :=
  ⟨mod, perm.resource, perm.action⟩

structure ModuleRole where
  slug : String
  displayName : String
  description : String
  permissions : List String
deriving DecidableEq, Repr

/-- Short references for a built-in role. -/
structure BuiltinGrant where
  role : Slug
  permissions : List String
deriving DecidableEq, Repr

/-- `declaresGrants` says that `grants` is the module's complete set. -/
structure Registration where
  moduleName : String
  displayName : String
  registrant : String
  delegate : String
  permissions : List PermissionDef
  roles : List ModuleRole
  declaresRoles : Bool
  grants : List BuiltinGrant
  declaresGrants : Bool
  tenants : List TenantID

inductive RegisterError where
  | badRegistration
  | badPermission
  | malformed
  | notFound
  | unavailable
deriving DecidableEq, Repr

inductive RoleProblem where
  | invalidSlug
  | duplicate
  | invalidName
  | noPermissions
  | tooManyPermissions
  | foreignPermission
deriving DecidableEq, Repr

structure RoleError where
  slug : String
  reason : RoleProblem
deriving DecidableEq, Repr

/-- A role definition of the catalogue, its permissions short and sorted. -/
structure ModuleRoleDef where
  moduleName : String
  slug : String
  displayName : String
  description : String
  permissions : List String
  retired : Bool
deriving DecidableEq, Repr

/-! ### Validation -/

def maxRegistrationPermissions : Nat := 200
def maxModuleRoles : Nat := 20
def maxRolePermissions : Nat := 200
def maxSkippedSamples : Nat := 5

def builtinRoleSlugs : List Slug := ["owner", "admin", "member", "auditor", "operator"]

/-- The control characters of Unicode. -/
def isControl (letter : Char) : Bool :=
  letter.val ≤ 0x1f || (0x7f ≤ letter.val && letter.val ≤ 0x9f)

/-- At most `limit` bytes and no control character. -/
def printable (text : String) (limit : Nat) : Bool :=
  decide (text.utf8ByteSize ≤ limit) && text.toList.all fun letter => !isControl letter

namespace Registration

variable (reg : Registration)

/-- The short references of the registration's permissions. -/
def own : List String :=
  reg.permissions.map fun perm => perm.resource ++ ":" ++ perm.action

/-- A role may also name a permission of its module in full. -/
def shortOf (text : String) : String :=
  match parse text with
  | some perm =>
    if perm.moduleName = reg.moduleName then perm.short else text
  | none => text

def wellFormed : Bool :=
  validModule reg.moduleName && printable reg.displayName 120
    && trimSpace reg.displayName == reg.displayName
    && decide (reg.permissions.length ≤ maxRegistrationPermissions)
    && decide (reg.roles.length ≤ maxModuleRoles)
    && reg.permissions.all (fun perm =>
      validResource perm.resource && validAction perm.action && printable perm.description 256)
    && reg.grants.all fun grant =>
      builtinRoleSlugs.contains grant.role && grant.permissions.all reg.own.contains

/-- Why a role is refused; `seen` are the slugs before it. -/
def roleProblem (seen : List String) (r : ModuleRole) : Option RoleProblem :=
  if !validRoleDefSlug r.slug then some .invalidSlug
  else if seen.contains r.slug then some .duplicate
  else if trimSpace r.displayName == "" || !printable (trimSpace r.displayName) 120
      || !printable r.description 256 then some .invalidName
  else if r.permissions.isEmpty then some .noPermissions
  else if decide (maxRolePermissions < r.permissions.length) then some .tooManyPermissions
  else if r.permissions.all fun text => reg.own.contains (reg.shortOf text)
  then none
  else some .foreignPermission

def roleDef (r : ModuleRole) : ModuleRoleDef :=
  { moduleName := reg.moduleName
    slug := r.slug
    displayName := trimSpace r.displayName
    description := r.description
    permissions := (dedupe [] (r.permissions.map reg.shortOf)).insertionSort (· ≤ ·)
    retired := false }

/-- The accepted definitions and the refused roles; `seen` are the slugs before them. -/
def checkRoles : List String → List ModuleRole → List ModuleRoleDef × List RoleError
  | _, [] => ([], [])
  | seen, r :: rest =>
    let (defs, errors) := checkRoles (r.slug :: seen) rest
    match reg.roleProblem seen r with
    | some why => (defs, ⟨r.slug, why⟩ :: errors)
    | none => (reg.roleDef r :: defs, errors)

def validate : Except RegisterError (List ModuleRoleDef × List RoleError) :=
  if reg.wellFormed then .ok (reg.checkRoles [] reg.roles)
  else .error .badRegistration

theorem mem_checkRoles {reg : Registration} {df : ModuleRoleDef} {seen : List String}
    {roles : List ModuleRole} (mem : df ∈ (reg.checkRoles seen roles).1) :
    ∃ r ∈ roles, df = reg.roleDef r ∧ r.slug ∉ seen ∧ validRoleDefSlug r.slug = true := by
  induction roles generalizing seen with
  | nil => cases mem
  | cons r rest ih =>
    have later : df ∈ (reg.checkRoles (r.slug :: seen) rest).1 →
        ∃ other ∈ r :: rest, df = reg.roleDef other ∧ other.slug ∉ seen
          ∧ validRoleDefSlug other.slug = true := by
      intro inRest
      obtain ⟨other, otherMem, isDef, unseen, valid⟩ := ih inRest
      exact ⟨other, List.mem_cons_of_mem _ otherMem, isDef, fun old =>
        unseen (List.mem_cons_of_mem _ old), valid⟩
    unfold checkRoles at mem
    cases problem : reg.roleProblem seen r with
    | some why =>
      rw [problem] at mem
      exact later mem
    | none =>
      rw [problem] at mem
      rcases List.mem_cons.mp mem with isDef | inRest
      · unfold roleProblem at problem
        grind
      · exact later inRest

/-- A delegated registration may not carry roles or grants. -/
def delegateAllowed : Bool :=
  reg.delegate == ""
    || (reg.roles.isEmpty && !reg.declaresRoles && reg.grants.isEmpty)

end Registration

/-! ### The catalogue -/

structure Module where
  name : String
  displayName : String
  retired : Bool
deriving DecidableEq, Repr

structure ModulePermission where
  permission : Permission
  description : String
  retired : Bool
deriving DecidableEq, Repr

def ModuleRoleDef.key (df : ModuleRoleDef) : String × String :=
  (df.moduleName, df.slug)

/-- The row that holds a declared definition. -/
def ModuleRoleDef.declared (df : ModuleRoleDef) : ModuleRoleDef :=
  { df with retired := false }

/-- The platform's tables of modules; a definition is found by its module and slug. -/
structure Catalogue where
  modules : List Module
  permissions : List ModulePermission
  roleDefs : List ModuleRoleDef
  defined : UniqueKey ModuleRoleDef.key roleDefs

namespace Catalogue

theorem defined_nil : UniqueKey ModuleRoleDef.key [] := List.nodup_nil

variable (cat : Catalogue)

/-- An empty display name keeps the stored one; registering again brings a module back. -/
def upsertModule (name dn : String) : Catalogue :=
  { cat with
    modules :=
      if cat.modules.any fun row => row.name == name then
        updateWhere (fun row => row.name == name)
          (fun row => ⟨row.name, if dn = "" then row.displayName else dn, false⟩)
          cat.modules
      else cat.modules ++ [⟨name, if dn = "" then name else dn, false⟩] }

def upsertModulePermission (perm : Permission) (desc : String) : Catalogue :=
  { cat with
    permissions :=
      if cat.permissions.any fun row => row.permission == perm then
        updateWhere (fun row => row.permission == perm)
          (fun row => ⟨row.permission, desc, false⟩) cat.permissions
      else cat.permissions ++ [⟨perm, desc, false⟩] }

def roleDefsOf (mod : String) : List ModuleRoleDef :=
  cat.roleDefs.filter fun df => df.moduleName == mod

/-- A definition that is new, differs or was retired is a change. -/
def upsertModuleRoleDef (df : ModuleRoleDef) : Bool × Catalogue :=
  if known : df.key ∈ cat.roleDefs.map ModuleRoleDef.key then
    if cat.roleDefs.contains df.declared then (false, cat)
    else
      (true, { cat with
        roleDefs := updateWhere (fun row => row.key == df.key)
          (fun row => { df.declared with moduleName := row.moduleName, slug := row.slug })
          cat.roleDefs
        defined := uniqueKey_updateWhere (by exact fun _ => rfl) cat.defined })
  else
    (true, { cat with
      roleDefs := cat.roleDefs ++ [df.declared]
      defined := uniqueKey_append_singleton cat.defined fun _ stored same =>
        known (same ▸ List.mem_map_of_mem stored) })

def retireModuleRoleDef (mod s : String) : Catalogue :=
  { cat with
    roleDefs := updateWhere (fun row => row.key == (mod, s))
      (fun row => { row with retired := true }) cat.roleDefs
    defined := uniqueKey_updateWhere (by exact fun _ => rfl) cat.defined }

/-- The rows and definitions of other modules are as they were. -/
structure SparesOthers (mod : String) (pre post : Catalogue) : Prop where
  modules : post.modules.filter (fun row => row.name != mod)
    = pre.modules.filter fun row => row.name != mod
  permissions : post.permissions.filter (fun row => row.permission.moduleName != mod)
    = pre.permissions.filter fun row => row.permission.moduleName != mod
  roleDefs : post.roleDefs.filter (fun df => df.moduleName != mod)
    = pre.roleDefs.filter fun df => df.moduleName != mod

variable {mod : String}

theorem SparesOthers.refl : SparesOthers mod cat cat := ⟨rfl, rfl, rfl⟩

theorem SparesOthers.trans {first second third : Catalogue} (one : SparesOthers mod first second)
    (two : SparesOthers mod second third) : SparesOthers mod first third :=
  ⟨two.modules.trans one.modules, two.permissions.trans one.permissions,
    two.roleDefs.trans one.roleDefs⟩

theorem upsertModule_sparesOthers (dn : String) :
    SparesOthers mod cat (cat.upsertModule mod dn) := by
  refine ⟨?_, rfl, rfl⟩
  unfold upsertModule
  dsimp only
  split_ifs
  all_goals first
    | exact filter_updateWhere (by simp) _
    | simp [List.filter_append]

theorem upsertModulePermission_sparesOthers {perm : Permission} (own : perm.moduleName = mod)
    (desc : String) : SparesOthers mod cat (cat.upsertModulePermission perm desc) := by
  refine ⟨rfl, ?_, rfl⟩
  unfold upsertModulePermission
  dsimp only
  split_ifs
  · exact filter_updateWhere (by simp_all) _
  · simp [List.filter_append, own]

theorem upsertModuleRoleDef_sparesOthers {df : ModuleRoleDef} (own : df.moduleName = mod) :
    SparesOthers mod cat (cat.upsertModuleRoleDef df).2 := by
  unfold upsertModuleRoleDef
  split_ifs
  · exact SparesOthers.refl cat
  · exact ⟨rfl, rfl, filter_updateWhere (by simp_all [ModuleRoleDef.key]) _⟩
  · refine ⟨rfl, rfl, ?_⟩
    simp [List.filter_append, ModuleRoleDef.declared, own]

theorem retireModuleRoleDef_sparesOthers (s : String) :
    SparesOthers mod cat (cat.retireModuleRoleDef mod s) :=
  ⟨rfl, rfl, filter_updateWhere (by simp_all [ModuleRoleDef.key]) _⟩

end Catalogue

end TangraAuth.Authz

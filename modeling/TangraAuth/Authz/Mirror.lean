import Mathlib.Data.List.Sort
import TangraAuth.Accounts.Store

/-!
Contract: the tables of one tenant that mirror its authorization tuples.

Owns: the rows, the constraints of the schema as a field of the mirror, the
queries, and each statement as a function that fails where the database
refuses it.

Does not own: the tuples, and the calls that keep the two in step.
-/

namespace TangraAuth.Authz

open Library Store Accounts

/-- A permission reference; an empty module is a permission made before modules. -/
structure Permission where
  moduleName : String
  resource : String
  action : String
deriving DecidableEq, Repr

def Permission.isLegacy (p : Permission) : Bool := p.moduleName == ""

inductive Origin where
  | builtin
  | ofModule
  | custom
deriving DecidableEq, Repr

structure Role where
  id : RoleID
  slug : Slug
  origin : Origin
  retired : Bool
deriving DecidableEq, Repr

/-- The columns of `users` that authorization reads. -/
structure Account where
  id : UserID
  email : Email
  status : UserStatus
deriving DecidableEq, Repr

/-- A group; the name is kept as the unique index compares it. -/
structure Group where
  id : GroupID
  name : String
deriving DecidableEq, Repr

structure Member where
  groupID : GroupID
  userID : UserID
  addedAt : Int
deriving DecidableEq, Repr

structure Tables where
  users : List Account
  roles : List Role
  bindings : List (UserID × RoleID)
  permissions : List (RoleID × Permission)
  groups : List Group
  members : List Member
  groupRoles : List (GroupID × RoleID)
  catalogue : List Permission

/-- Primary keys, the unique slug and the foreign keys. -/
structure Integrity (tb : Tables) : Prop where
  users : UniqueKey Account.id tb.users
  roles : UniqueKey Role.id tb.roles
  slugs : UniqueKey Role.slug tb.roles
  bindings : ∀ pair ∈ tb.bindings, pair.1 ∈ tb.users.map Account.id ∧ pair.2 ∈ tb.roles.map Role.id
  permissions : ∀ pair ∈ tb.permissions, pair.1 ∈ tb.roles.map Role.id
  members : ∀ mem ∈ tb.members,
    mem.groupID ∈ tb.groups.map Group.id ∧ mem.userID ∈ tb.users.map Account.id
  groupRoles : ∀ pair ∈ tb.groupRoles,
    pair.1 ∈ tb.groups.map Group.id ∧ pair.2 ∈ tb.roles.map Role.id

/-- The tables with their constraints: tables that break one cannot be built. -/
structure Mirror extends Tables where
  integrity : Integrity toTables

/-! ### Queries -/

def Tables.role (tb : Tables) (id : RoleID) : Option Role :=
  tb.roles.find? fun r => r.id == id

/-- In the order of the ids; one unknown id fails the query. -/
def Tables.rolesByID (tb : Tables) : List RoleID → Option (List Role)
  | [] => some []
  | id :: rest =>
    match tb.role id, tb.rolesByID rest with
    | some r, some roles => some (r :: roles)
    | _, _ => none

/-- The slugs of the roles bound to the user. -/
def Tables.userRoleSlugs (tb : Tables) (uid : UserID) : List Slug :=
  (tb.roles.filter fun r => (uid, r.id) ∈ tb.bindings).map Role.slug

def Tables.userRoles (tb : Tables) (uid : UserID) : List Role :=
  tb.roles.filter fun r => r.slug ∈ tb.userRoleSlugs uid

def Tables.rolePermissions (tb : Tables) (id : RoleID) : List Permission :=
  (tb.permissions.filter fun pair => pair.1 == id).map Prod.snd

def Tables.roleAssignees (tb : Tables) (id : RoleID) : List UserID :=
  (tb.bindings.filter fun pair => pair.2 == id).map Prod.fst

def Tables.userByEmail (tb : Tables) (email : Email) : Option Account :=
  tb.users.find? fun u => u.email == email

/-- The active holders of a slug. -/
def Tables.countWithRole (tb : Tables) (s : Slug) : Nat :=
  (tb.bindings.filter fun pair =>
    (tb.roles.any fun r => r.id == pair.2 && r.slug == s)
      && tb.users.any fun u => u.id == pair.1 && u.status == .active).length

def Tables.group (tb : Tables) (id : GroupID) : Option Group :=
  tb.groups.find? fun group => group.id == id

def Tables.rolesOfGroup (tb : Tables) (gid : GroupID) : List Role :=
  tb.roles.filter fun r => (gid, r.id) ∈ tb.groupRoles

def Tables.isGroupMember (tb : Tables) (gid : GroupID) (uid : UserID) : Bool :=
  tb.members.any fun mem => mem.groupID == gid && mem.userID == uid

def Tables.countGroupMembers (tb : Tables) (gid : GroupID) : Nat :=
  (tb.members.filter fun mem => mem.groupID == gid).length

/-- Members of the group added after the cursor; the zero time is before every row. -/
def Tables.membersAfter (tb : Tables) (gid : GroupID) (post : Option Int) : List Member :=
  tb.members.filter fun mem => mem.groupID == gid
    && post.all fun cursor => decide (cursor < mem.addedAt)

/-- `ORDER BY added_at, user_id`. -/
def Member.before (left right : Member) : Prop :=
  left.addedAt < right.addedAt ∨ (left.addedAt = right.addedAt ∧ left.userID ≤ right.userID)

instance : DecidableRel Member.before := fun left right => by
  unfold Member.before
  infer_instance

def Tables.listGroupMembers (tb : Tables) (gid : GroupID) (post : Option Int)
    (limit : Nat) : List Member :=
  ((tb.membersAfter gid post).insertionSort Member.before).take limit

/-- Direct roles and the roles of the user's groups. -/
def Tables.effectiveRoles (tb : Tables) (uid : UserID) : List Role :=
  (tb.roles.filter fun r => (uid, r.id) ∈ tb.bindings)
    ++ (tb.members.filter fun mem => mem.userID == uid).flatMap fun mem =>
        tb.rolesOfGroup mem.groupID

/-! ### Statements -/

def Tables.insertRole (tb : Tables) (r : Role) : Tables :=
  { tb with roles := tb.roles ++ [r] }

/-- The delete cascades to bindings, permissions and the roles of groups. -/
def Tables.removeRole (tb : Tables) (id : RoleID) : Tables :=
  { tb with
    roles := tb.roles.filter fun r => r.id ≠ id
    bindings := tb.bindings.filter fun pair => pair.2 ≠ id
    permissions := tb.permissions.filter fun pair => pair.1 ≠ id
    groupRoles := tb.groupRoles.filter fun pair => pair.2 ≠ id }

def Tables.replaceRolePermissions (tb : Tables) (id : RoleID) (perms : List Permission) : Tables :=
  { tb with permissions := replaceAt id perms tb.permissions }

def Tables.replaceBindings (tb : Tables) (uid : UserID) (rids : List RoleID) :
    Tables :=
  { tb with bindings := replaceAt uid rids tb.bindings }

def Tables.insertGroup (tb : Tables) (group : Group) : Tables :=
  { tb with groups := tb.groups ++ [group] }

/-- The delete cascades to the members and the roles of the group. -/
def Tables.deleteGroup (tb : Tables) (id : GroupID) : Tables :=
  { tb with
    groups := tb.groups.filter fun group => group.id ≠ id
    members := tb.members.filter fun mem => mem.groupID ≠ id
    groupRoles := tb.groupRoles.filter fun pair => pair.1 ≠ id }

def Tables.insertMember (tb : Tables) (mem : Member) : Tables :=
  { tb with members := tb.members ++ [mem] }

def Tables.removeGroupMember (tb : Tables) (gid : GroupID) (uid : UserID) : Tables :=
  { tb with
    members := tb.members.filter fun mem =>
      !(mem.groupID == gid && mem.userID == uid) }

def Tables.replaceGroupRoles (tb : Tables) (gid : GroupID) (rids : List RoleID) :
    Tables :=
  { tb with groupRoles := replaceAt gid rids tb.groupRoles }

def Tables.insertUser (tb : Tables) (u : Account) : Tables :=
  { tb with users := tb.users ++ [u] }

def Tables.updateUserStatus (tb : Tables) (uid : UserID) (status : UserStatus) : Tables :=
  { tb with
    users := updateWhere (fun u => u.id == uid) (fun u => { u with status := status }) tb.users }

/-! ### Every statement keeps the constraints -/

variable {r : Role} {uid : UserID} {gid : GroupID}

section Constraints

variable {tb : Tables}

section

variable (sound : Integrity tb)

include sound

theorem Integrity.insertRole
    (fresh : r.id ∉ tb.roles.map Role.id ∧ r.slug ∉ tb.roles.map Role.slug) :
    Integrity (tb.insertRole r) :=
  { sound with
    roles := uniqueKey_append_singleton sound.roles fun _ mem same =>
      fresh.1 (same ▸ List.mem_map_of_mem mem)
    slugs := uniqueKey_append_singleton sound.slugs fun _ mem same =>
      fresh.2 (same ▸ List.mem_map_of_mem mem)
    bindings := fun pair mem =>
      ⟨(sound.bindings pair mem).1, mem_keys_append (sound.bindings pair mem).2 r⟩
    permissions := fun pair mem => mem_keys_append (sound.permissions pair mem) r
    groupRoles := fun pair mem =>
      ⟨(sound.groupRoles pair mem).1, mem_keys_append (sound.groupRoles pair mem).2 r⟩ }

theorem Integrity.removeRole (id : RoleID) : Integrity (tb.removeRole id) := by
  refine
    { sound with
      roles := uniqueKey_filter sound.roles _
      slugs := uniqueKey_filter sound.slugs _
      bindings := ?_
      permissions := ?_
      groupRoles := ?_ }
  · intro pair mem
    obtain ⟨stored, differs⟩ := List.mem_filter.mp mem
    have refers := sound.bindings pair stored
    exact ⟨refers.1, mem_keys_delete refers.2 (by simpa using differs)⟩
  · intro pair mem
    obtain ⟨stored, differs⟩ := List.mem_filter.mp mem
    exact mem_keys_delete (sound.permissions pair stored) (by simpa using differs)
  · intro pair mem
    obtain ⟨stored, differs⟩ := List.mem_filter.mp mem
    have refers := sound.groupRoles pair stored
    exact ⟨refers.1, mem_keys_delete refers.2 (by simpa using differs)⟩

theorem Integrity.replaceRolePermissions {id : RoleID} {perms : List Permission}
    (refers : perms ≠ [] → id ∈ tb.roles.map Role.id) :
    Integrity (tb.replaceRolePermissions id perms) := by
  refine { sound with permissions := ?_ }
  intro pair mem
  rcases mem_replaceAt.mp mem with ⟨stored, -⟩ | ⟨isKey, isNew⟩
  · exact sound.permissions pair stored
  · exact isKey ▸ refers (List.ne_nil_of_mem isNew)

theorem Integrity.replaceBindings {rids : List RoleID}
    (refers : (rids ≠ [] → uid ∈ tb.users.map Account.id)
      ∧ ∀ id ∈ rids, id ∈ tb.roles.map Role.id) :
    Integrity (tb.replaceBindings uid rids) := by
  refine { sound with bindings := ?_ }
  intro pair mem
  rcases mem_replaceAt.mp mem with ⟨stored, -⟩ | ⟨isKey, isNew⟩
  · exact sound.bindings pair stored
  · exact ⟨isKey ▸ refers.1 (List.ne_nil_of_mem isNew), refers.2 _ isNew⟩

theorem Integrity.replaceGroupRoles {rids : List RoleID}
    (refers : (rids ≠ [] → gid ∈ tb.groups.map Group.id) ∧ ∀ id ∈ rids, id ∈ tb.roles.map Role.id) :
    Integrity (tb.replaceGroupRoles gid rids) := by
  refine { sound with groupRoles := ?_ }
  intro pair mem
  rcases mem_replaceAt.mp mem with ⟨stored, -⟩ | ⟨isKey, isNew⟩
  · exact sound.groupRoles pair stored
  · exact ⟨isKey ▸ refers.1 (List.ne_nil_of_mem isNew), refers.2 _ isNew⟩

theorem Integrity.insertGroup (group : Group) : Integrity (tb.insertGroup group) :=
  { sound with
    members := fun mem stored =>
      ⟨mem_keys_append (sound.members mem stored).1 group, (sound.members mem stored).2⟩
    groupRoles := fun pair stored =>
      ⟨mem_keys_append (sound.groupRoles pair stored).1 group, (sound.groupRoles pair stored).2⟩ }

theorem Integrity.deleteGroup (id : GroupID) : Integrity (tb.deleteGroup id) := by
  refine { sound with members := ?_, groupRoles := ?_ }
  · intro mem stored
    obtain ⟨stored, differs⟩ := List.mem_filter.mp stored
    have refers := sound.members mem stored
    exact ⟨mem_keys_delete refers.1 (by simpa using differs), refers.2⟩
  · intro pair stored
    obtain ⟨stored, differs⟩ := List.mem_filter.mp stored
    have refers := sound.groupRoles pair stored
    exact ⟨mem_keys_delete refers.1 (by simpa using differs), refers.2⟩

theorem Integrity.insertMember {mem : Member} (refers : mem.groupID ∈ tb.groups.map Group.id
      ∧ mem.userID ∈ tb.users.map Account.id) : Integrity (tb.insertMember mem) := by
  refine { sound with members := ?_ }
  intro other stored
  rcases List.mem_append.mp stored with stored | isNew
  · exact sound.members other stored
  · rw [List.mem_singleton.mp isNew]
    exact refers

theorem Integrity.removeGroupMember (gid : GroupID) (uid : UserID) :
    Integrity (tb.removeGroupMember gid uid) :=
  { sound with
    members := fun mem stored => sound.members mem (List.mem_of_mem_filter stored) }

theorem Integrity.insertUser {u : Account} (fresh : u.id ∉ tb.users.map Account.id) :
    Integrity (tb.insertUser u) :=
  { sound with
    users := uniqueKey_append_singleton sound.users fun _ mem same =>
      fresh (same ▸ List.mem_map_of_mem mem)
    bindings := fun pair stored =>
      ⟨mem_keys_append (sound.bindings pair stored).1 u, (sound.bindings pair stored).2⟩
    members := fun mem stored =>
      ⟨(sound.members mem stored).1, mem_keys_append (sound.members mem stored).2 u⟩ }

end

theorem Tables.updateUserStatus_ids (tb : Tables) (uid : UserID) (status : UserStatus) :
    (tb.updateUserStatus uid status).users.map Account.id = tb.users.map Account.id :=
  map_updateWhere_of_preserved (by simp) tb.users

theorem Integrity.updateUserStatus (sound : Integrity tb) (uid : UserID)
    (status : UserStatus) : Integrity (tb.updateUserStatus uid status) :=
  { sound with
    users := uniqueKey_updateWhere (by simp) sound.users
    bindings := fun pair stored => by
      rw [Tables.updateUserStatus_ids]
      exact sound.bindings pair stored
    members := fun mem stored => by
      rw [Tables.updateUserStatus_ids]
      exact sound.members mem stored }

end Constraints

/-! ### Statements as the database runs them -/

/-- A statement that the constraints refuse has no result. -/
def checked (guard : Prop) [Decidable guard] (tb : Tables)
    (keeps : guard → Integrity tb) : Option Mirror :=
  if met : guard then some ⟨tb, keeps met⟩ else none

variable {m : Mirror}

theorem checked_eq_some {guard : Prop} [Decidable guard] {tb : Tables}
    {keeps : guard → Integrity tb} (done : checked guard tb keeps = some m) :
    guard ∧ m.toTables = tb := by
  grind [checked]

/-- Taken ids and slugs are a conflict. -/
def Mirror.insertRole (m : Mirror) (r : Role) : Option Mirror :=
  checked (r.id ∉ m.roles.map Role.id ∧ r.slug ∉ m.roles.map Role.slug)
    (m.toTables.insertRole r) m.integrity.insertRole

/-- Only a custom role is deleted. -/
def Mirror.removeRole (m : Mirror) (id : RoleID) : Option Mirror :=
  checked ((m.roles.any fun r => r.id == id && r.origin == .custom) = true)
    (m.toTables.removeRole id) fun _ => m.integrity.removeRole id

def Mirror.replaceRolePermissions (m : Mirror) (id : RoleID)
    (perms : List Permission) : Option Mirror :=
  checked (perms ≠ [] → id ∈ m.roles.map Role.id) (m.toTables.replaceRolePermissions id perms)
    m.integrity.replaceRolePermissions

/-- A repeated id breaks the primary key of the bindings. -/
def Mirror.replaceBindings (m : Mirror) (uid : UserID) (rids : List RoleID) : Option Mirror :=
  checked (rids.Nodup ∧ (rids ≠ [] → uid ∈ m.users.map Account.id)
      ∧ ∀ id ∈ rids, id ∈ m.roles.map Role.id)
    (m.toTables.replaceBindings uid rids)
    fun met => m.integrity.replaceBindings met.2

def Mirror.replaceGroupRoles (m : Mirror) (gid : GroupID) (rids : List RoleID) : Option Mirror :=
  checked (rids.Nodup ∧ (rids ≠ [] → gid ∈ m.groups.map Group.id)
      ∧ ∀ id ∈ rids, id ∈ m.roles.map Role.id)
    (m.toTables.replaceGroupRoles gid rids)
    fun met => m.integrity.replaceGroupRoles met.2

/-- A taken id or name is a conflict. -/
def Mirror.insertGroup (m : Mirror) (group : Group) : Option Mirror :=
  checked (group.id ∉ m.groups.map Group.id ∧ group.name ∉ m.groups.map Group.name)
    (m.toTables.insertGroup group) fun _ => m.integrity.insertGroup group

def Mirror.deleteGroup (m : Mirror) (id : GroupID) : Option Mirror :=
  checked (id ∈ m.groups.map Group.id) (m.toTables.deleteGroup id)
    fun _ => m.integrity.deleteGroup id

/-- One user added to a group: how many rows were inserted. An existing member is no row, a
user the tenant does not have is an error. -/
def Mirror.addGroupMember (m : Mirror) (gid : GroupID) (uid : UserID)
    (addedAt : Int) : Option (Nat × Mirror) :=
  if m.isGroupMember gid uid then some (0, m)
  else
    (checked (gid ∈ m.groups.map Group.id ∧ uid ∈ m.users.map Account.id)
      (m.toTables.insertMember ⟨gid, uid, addedAt⟩)
      fun met => m.integrity.insertMember met).map fun next => (1, next)

def Mirror.removeGroupMember (m : Mirror) (gid : GroupID) (uid : UserID) : Mirror :=
  ⟨m.toTables.removeGroupMember gid uid, m.integrity.removeGroupMember gid uid⟩

def Mirror.insertUser (m : Mirror) (u : Account) : Option Mirror :=
  checked (u.id ∉ m.users.map Account.id) (m.toTables.insertUser u) m.integrity.insertUser

def Mirror.updateUserStatus (m : Mirror) (uid : UserID) (status : UserStatus) : Mirror :=
  ⟨m.toTables.updateUserStatus uid status, m.integrity.updateUserStatus uid status⟩

/-! ### What the queries return -/

variable {id : RoleID}

theorem Tables.role_eq_some {tb : Tables} (found : tb.role id = some r) :
    r ∈ tb.roles ∧ r.id = id := by
  grind [role]

theorem Tables.rolesByID_eq_some {tb : Tables} {ids : List RoleID} {roles : List Role}
    (found : tb.rolesByID ids = some roles) :
    roles.map Role.id = ids ∧ ∀ r ∈ roles, r ∈ tb.roles := by
  induction ids generalizing roles with
  | nil =>
    cases found
    exact ⟨rfl, by simp⟩
  | cons id rest ih =>
    rw [Tables.rolesByID] at found
    grind [role]

theorem Tables.mem_userRoleSlugs {tb : Tables} {s : Slug} : s ∈ tb.userRoleSlugs uid ↔
      ∃ r ∈ tb.roles, (uid, r.id) ∈ tb.bindings ∧ r.slug = s := by
  simp [Tables.userRoleSlugs, and_assoc]

/-- Slugs are unique, so looking roles up by the slugs of the bound roles finds the bound
roles. -/
theorem Mirror.mem_userRoles : r ∈ m.userRoles uid ↔ r ∈ m.roles ∧ (uid, r.id) ∈ m.bindings := by
  simp only [Tables.userRoles, List.mem_filter, decide_eq_true_eq, Tables.mem_userRoleSlugs]
  grind [eq_of_uniqueKey, integrity, Integrity.slugs]

theorem Tables.mem_rolePermissions {tb : Tables} {p : Permission} :
    p ∈ tb.rolePermissions id ↔ (id, p) ∈ tb.permissions := by
  simp [Tables.rolePermissions]

theorem Tables.mem_roleAssignees {tb : Tables} :
    uid ∈ tb.roleAssignees id ↔ (uid, id) ∈ tb.bindings := by
  simp [Tables.roleAssignees]

theorem Tables.mem_rolesOfGroup {tb : Tables} : r ∈ tb.rolesOfGroup gid ↔
      r ∈ tb.roles ∧ (gid, r.id) ∈ tb.groupRoles := by
  simp [Tables.rolesOfGroup]

theorem mem_userRoles_ids : id ∈ (m.userRoles uid).map Role.id ↔ (uid, id) ∈ m.bindings := by
  constructor
  · intro known
    obtain ⟨r, held, rfl⟩ := List.mem_map.mp known
    exact (Mirror.mem_userRoles.mp held).2
  · intro bound
    obtain ⟨r, mem, rfl⟩ := List.mem_map.mp (m.integrity.bindings _ bound).2
    exact List.mem_map_of_mem (Mirror.mem_userRoles.mpr ⟨mem, bound⟩)

theorem mem_rolesOfGroup_ids :
    id ∈ (m.rolesOfGroup gid).map Role.id ↔ (gid, id) ∈ m.groupRoles := by
  constructor
  · intro known
    obtain ⟨r, carried, rfl⟩ := List.mem_map.mp known
    exact (Tables.mem_rolesOfGroup.mp carried).2
  · intro linked
    obtain ⟨r, mem, rfl⟩ := List.mem_map.mp (m.integrity.groupRoles _ linked).2
    exact List.mem_map_of_mem (Tables.mem_rolesOfGroup.mpr ⟨mem, linked⟩)

theorem Tables.isGroupMember_iff {tb : Tables} : tb.isGroupMember gid uid = true ↔
      ∃ mem ∈ tb.members, mem.groupID = gid ∧ mem.userID = uid := by
  simp [Tables.isGroupMember]

theorem Tables.mem_effectiveRoles {tb : Tables} : r ∈ tb.effectiveRoles uid ↔
      r ∈ tb.roles ∧ ((uid, r.id) ∈ tb.bindings ∨ ∃ mem ∈ tb.members, mem.userID = uid
              ∧ (mem.groupID, r.id) ∈ tb.groupRoles) := by
  simp only [Tables.effectiveRoles, List.mem_append, List.mem_filter, List.mem_flatMap,
    Tables.mem_rolesOfGroup, decide_eq_true_eq, beq_iff_eq]
  constructor
  · grind
  grind

end TangraAuth.Authz

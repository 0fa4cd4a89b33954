import TangraAuth.Authz.Changes

/-!
Contract: mirror and tuples say the same about who holds which permission.

Owns: the tuples that the rows of the mirror call for, the tuples that may be
left over without granting anything, the agreement of the two, and what each
statement with its write does to it.

Does not own: the calls, and writes that fail.
-/

namespace TangraAuth.Authz

open Library Store Accounts

/-! ### Rows that name a role, read through the role's slug -/

/-- A role of this slug has what is asked of its id. -/
def Named (roles : List Role) (has : RoleID → Prop) (s : Slug) : Prop :=
  ∃ r ∈ roles, r.slug = s ∧ has r.id

section Named

variable {roles : List Role} {has also : RoleID → Prop} {s : Slug}

theorem named_congr (same : ∀ id, has id ↔ also id) : Named roles has s ↔ Named roles also s := by
  simp only [Named, same]

theorem named_or :
    Named roles (fun id => has id ∨ also id) s ↔ Named roles has s ∨ Named roles also s := by
  simp only [Named, and_or_left, exists_or]

theorem named_and {cond : Prop} :
    Named roles (fun id => has id ∧ cond) s ↔ Named roles has s ∧ cond := by
  grind [Named]

theorem named_filter {id : RoleID} : Named (roles.filter fun r => r.id ≠ id) has s ↔
      Named roles (fun other => has other ∧ other ≠ id) s := by
  unfold Named
  constructor
  · grind
  grind

theorem named_append {r : Role} (lacks : ¬has r.id) :
    Named (roles ++ [r]) has s ↔ Named roles has s := by
  unfold Named
  constructor
  · grind
  grind

end Named

variable {want : List Role}

section Unique

variable {m : Mirror} {has : RoleID → Prop} {s : Slug} {r : Role}

theorem Mirror.id_eq_iff_slug_eq {other : Role} (mem : r ∈ m.roles)
    (otherMem : other ∈ m.roles) : other.id = r.id ↔ other.slug = r.slug := by
  grind [eq_of_uniqueKey, integrity, Integrity.roles, Integrity.slugs]

theorem named_iff (mem : r ∈ m.roles) : Named m.roles has r.slug ↔ has r.id := by
  constructor
  · rintro ⟨found, foundMem, sameSlug, holds⟩
    exact (Mirror.id_eq_iff_slug_eq mem foundMem).mpr sameSlug ▸ holds
  · exact fun holds => ⟨r, mem, rfl, holds⟩

theorem named_ne (mem : r ∈ m.roles) : Named m.roles (fun id => has id ∧ id ≠ r.id) s ↔
      Named m.roles has s ∧ s ≠ r.slug := by
  unfold Named
  constructor
  · rintro ⟨found, foundMem, rfl, holds, differs⟩
    have differs := mt (Mirror.id_eq_iff_slug_eq mem foundMem).mpr differs
    exact ⟨⟨found, foundMem, rfl, holds⟩, differs⟩
  · rintro ⟨⟨found, foundMem, rfl, holds⟩, differs⟩
    have differs := mt (Mirror.id_eq_iff_slug_eq mem foundMem).mp differs
    exact ⟨found, foundMem, rfl, holds, differs⟩

theorem named_eq {cond : Prop} (mem : r ∈ m.roles) :
    Named m.roles (fun id => id = r.id ∧ cond) s ↔ s = r.slug ∧ cond := by
  unfold Named
  constructor
  · rintro ⟨found, foundMem, rfl, same, met⟩
    exact ⟨(Mirror.id_eq_iff_slug_eq mem foundMem).mp same, met⟩
  · rintro ⟨rfl, met⟩
    exact ⟨r, mem, rfl, rfl, met⟩

theorem named_mem (known : ∀ wanted ∈ want, wanted ∈ m.roles) :
    Named m.roles (fun id => id ∈ want.map Role.id) s ↔ s ∈ want.map Role.slug := by
  unfold Named
  simp only [List.mem_map]
  constructor
  · rintro ⟨found, mem, rfl, wanted, wantedMem, sameID⟩
    have sameSlug := (Mirror.id_eq_iff_slug_eq mem (known wanted wantedMem)).mp sameID
    exact ⟨wanted, wantedMem, sameSlug⟩
  grind

/-- The links of one key become those of the wanted roles. -/
theorem named_replaceAt {κ : Type} [DecidableEq κ] {links : List (κ × RoleID)} {key other : κ}
    (known : ∀ wanted ∈ want, wanted ∈ m.roles) :
    Named m.roles (fun id => (key, id) ∈ replaceAt other (want.map Role.id) links) s ↔
      (key = other ∧ s ∈ want.map Role.slug)
        ∨ (key ≠ other ∧ Named m.roles (fun id => (key, id) ∈ links) s) := by
  have split : ∀ id, (key, id) ∈ replaceAt other (want.map Role.id) links ↔
      (id ∈ want.map Role.id ∧ key = other) ∨ ((key, id) ∈ links ∧ key ≠ other) := by
    intro id
    rw [mem_replaceAt, or_comm, and_comm]
  rw [named_congr split, named_or, named_and, named_and, named_mem known]
  tauto

end Unique

/-! ### Agreement -/

/-- The tuples the rows call for. -/
def Expected (tb : Tables) : Tuple → Prop
  | .membership .member uid => ∃ u ∈ tb.users, u.id = uid ∧ u.status = .active
  | .membership .owner uid => Named tb.roles (fun id => (uid, id) ∈ tb.bindings) "owner"
  | .membership .admin _ => False
  | .roleTenant s => s ∈ tb.roles.map Role.slug
  | .roleAssignment s uid => Named tb.roles (fun id => (uid, id) ∈ tb.bindings) s
  | .groupTenant gid => gid ∈ tb.groups.map Group.id
  | .groupMembership gid uid => tb.isGroupMember gid uid = true
  | .groupRole gid s => Named tb.roles (fun id => (gid, id) ∈ tb.groupRoles) s
  | .grant s p => Named tb.roles (fun id => (id, p) ∈ tb.permissions) s

/-- Tuples that may stay behind: membership in the tenant is no permission, a group that is
gone has no role, and a slug without a role has no permission. -/
def Leftover (tb : Tables) : Tuple → Prop
  | .membership _ _ => True
  | .groupMembership gid _ => gid ∉ tb.groups.map Group.id
  | .groupRole _ s => s ∉ tb.roles.map Role.slug
  | _ => False

structure Agrees (tb : Tables) (ts : Finset Tuple) : Prop where
  complete : ∀ t, Expected tb t → t ∈ ts
  sound : ∀ t ∈ ts, Expected tb t ∨ Leftover tb t

variable {uid : UserID}

theorem Agrees.groupRole {m : Mirror} {ts : Finset Tuple} {r : Role} {gid : GroupID}
    (agrees : Agrees m.toTables ts) (mem : r ∈ m.roles)
    (carried : .groupRole gid r.slug ∈ ts) : (gid, r.id) ∈ m.groupRoles := by
  have live : ¬Leftover m.toTables (.groupRole gid r.slug) :=
    fun gone => gone (List.mem_map_of_mem mem)
  obtain ⟨through, throughMember, sameSlug, link⟩ :=
    (agrees.sound _ carried).resolve_right live
  have same := eq_of_uniqueKey m.integrity.slugs throughMember mem sameSlug
  exact same ▸ link

theorem Agrees.granted_iff_effective {m : Mirror} {ts : Finset Tuple}
    (agrees : Agrees m.toTables ts) {p : Permission} :
    Granted ts uid p ↔ ∃ r ∈ m.effectiveRoles uid, p ∈ m.rolePermissions r.id := by
  simp only [granted_iff, assignee_iff, Tables.mem_effectiveRoles, Tables.mem_rolePermissions]
  constructor
  · rintro ⟨s, granted, assigned⟩
    obtain ⟨r, mem, rfl, holds⟩ := (agrees.sound _ granted).resolve_right id
    refine ⟨r, ⟨mem, ?_⟩, holds⟩
    rcases assigned with direct | ⟨gid, carried, joined⟩
    · obtain ⟨bound, boundMember, sameSlug, binding⟩ := (agrees.sound _ direct).resolve_right id
      grind [eq_of_uniqueKey, Mirror.integrity, Integrity.slugs]
    · -- The slug has a role and a group that carries a role exists, so neither is left over.
      have link := agrees.groupRole mem carried
      have present := (m.integrity.groupRoles _ link).1
      have isMem := (agrees.sound _ joined).resolve_right fun gone => gone present
      obtain ⟨row, stored, ofGroup, ofUser⟩ := Tables.isGroupMember_iff.mp isMem
      grind
  · rintro ⟨r, ⟨mem, held⟩, holds⟩
    refine ⟨r.slug, agrees.complete _ ⟨r, mem, rfl, holds⟩, ?_⟩
    rcases held with binding | ⟨row, stored, rfl, link⟩
    · exact Or.inl (agrees.complete _ ⟨r, mem, rfl, binding⟩)
    · refine Or.inr ⟨row.groupID, agrees.complete _ ⟨r, mem, rfl, link⟩, ?_⟩
      exact agrees.complete _ (Tables.isGroupMember_iff.mpr ⟨row, stored, rfl, rfl⟩)

variable {tb : Tables}

/-- Agreement after a change, from what the change adds and removes on both sides. -/
theorem Agrees.update {post : Tables} {ts written : Finset Tuple}
    (agrees : Agrees tb ts) (added removed : Tuple → Prop)
    (stored : ∀ t, t ∈ written ↔ added t ∨ (t ∈ ts ∧ ¬removed t))
    (complete : ∀ t, Expected post t → added t ∨ (Expected tb t ∧ ¬removed t))
    (sound : ∀ t, added t ∨ (t ∈ ts ∧ (Expected tb t ∨ Leftover tb t)
      ∧ ¬removed t) → Expected post t ∨ Leftover post t) : Agrees post written := by
  constructor
  · intro t expected
    refine (stored t).mpr ((complete t expected).imp id ?_)
    exact fun kept => ⟨agrees.complete t kept.1, kept.2⟩
  · intro t isWritten
    refine sound t (((stored t).mp isWritten).imp id ?_)
    exact fun kept => ⟨kept.1, agrees.sound t kept.1, kept.2⟩

/-- The same when the expected tuples change exactly as the stored ones do. -/
theorem Agrees.exchange {post : Tables} {ts written : Finset Tuple}
    (agrees : Agrees tb ts) (added removed : Tuple → Prop)
    (stored : ∀ t, t ∈ written ↔ added t ∨ (t ∈ ts ∧ ¬removed t))
    (expected : ∀ t, Expected post t ↔ added t ∨ (Expected tb t ∧ ¬removed t))
    (leftover : ∀ t, Leftover tb t → Leftover post t) : Agrees post written := by
  refine agrees.update added removed stored (fun t => (expected t).mp) ?_
  grind

/-- The same for one tuple more. -/
theorem Agrees.insertOne {post : Tables} {ts : Finset Tuple} {extra : Tuple} (agrees : Agrees tb ts)
    (expected : ∀ t, Expected post t ↔ t = extra ∨ Expected tb t)
    (leftover : ∀ t ∈ ts, Leftover tb t → Leftover post t) :
    Agrees post (write ts [extra] []) := by
  apply agrees.update (fun t => t = extra) (fun _ => False)
  · intro t
    simp [mem_write, or_comm]
  · intro t isExpected
    simpa using (expected t).mp isExpected
  · rintro t (isAdded | ⟨isStored, isExpected | isLeftover, -⟩)
    · exact Or.inl ((expected t).mpr (Or.inl isAdded))
    · exact Or.inl ((expected t).mpr (Or.inr isExpected))
    · exact Or.inr (leftover t isStored isLeftover)

/-! ### Every statement with its write keeps agreement -/

section Preservation

variable {m : Mirror} {ts : Finset Tuple}

theorem mem_userRoles_slugs {s : Slug} : s ∈ (m.userRoles uid).map Role.slug ↔
      Named m.roles (fun id => (uid, id) ∈ m.bindings) s := by
  grind [Mirror.mem_userRoles, Named]

variable {t : Tuple}

theorem mem_assignments {roles : List Role} : (∃ r ∈ roles, t ∈ assignmentTuples uid r) ↔
      (∃ s ∈ roles.map Role.slug, t = .roleAssignment s uid)
        ∨ ("owner" ∈ roles.map Role.slug ∧ t = .membership .owner uid) := by
  grind [mem_assignmentTuples]

theorem assignmentTuples_apart {left right : Role} (leftMem : left ∈ m.roles)
    (rightMem : right ∈ m.roles) (ofLeft : t ∈ assignmentTuples uid left)
    (ofRight : t ∈ assignmentTuples uid right) : left = right := by
  apply eq_of_uniqueKey m.integrity.slugs leftMem rightMem
  rcases mem_assignmentTuples.mp ofLeft with rfl | ⟨leftOwner, rfl⟩
  · rcases mem_assignmentTuples.mp ofRight with same | ⟨-, impossible⟩
    · injection same
    · cases impossible
  · rcases mem_assignmentTuples.mp ofRight with impossible | ⟨rightOwner, -⟩
    · cases impossible
    · rw [leftOwner, rightOwner]

theorem Agrees.replaceBindings (agrees : Agrees m.toTables ts) (known : ∀ r ∈ want, r ∈ m.roles) :
    Agrees (m.toTables.replaceBindings uid (want.map Role.id)) (write ts
        ((missing Role.id (m.userRoles uid) want).flatMap (assignmentTuples uid))
        ((missing Role.id want (m.userRoles uid)).flatMap (assignmentTuples uid))) := by
  have present : ∀ r ∈ m.userRoles uid, r ∈ m.roles :=
    fun r mem => (Mirror.mem_userRoles.mp mem).1
  apply agrees.exchange (fun t => ∃ r ∈ want, t ∈ assignmentTuples uid r)
    (fun t => ∃ r ∈ m.userRoles uid, t ∈ assignmentTuples uid r)
  · intro t
    rw [mem_write_difference]
    · simp only [not_exists, not_and]
    · intro r mem t ofRole
      apply agrees.complete
      have bound := mem_userRoles_slugs.mp (List.mem_map_of_mem mem)
      rcases mem_assignmentTuples.mp ofRole with rfl | ⟨isOwner, rfl⟩
      · exact bound
      · rw [isOwner] at bound
        exact bound
    · grind [eq_of_uniqueKey, Mirror.integrity, Integrity.roles]
    grind [assignmentTuples_apart]
  · intro t
    rw [mem_assignments, mem_assignments]
    simp only [mem_userRoles_slugs]
    cases t with
    | membership rel other =>
      cases rel with
      | owner =>
        simp only [Expected, Tables.replaceBindings, named_replaceAt known]
        by_cases same : other = uid <;> simp [same]
      | _ => simp [Expected, Tables.replaceBindings]
    | roleAssignment s other =>
      simp only [Expected, Tables.replaceBindings, named_replaceAt known]
      by_cases same : other = uid <;> simp [same]
    | _ => simp [Expected, Tables.replaceBindings, Tables.isGroupMember]
  · exact fun t left => left

variable {gid : GroupID}

theorem mem_rolesOfGroup_slugs {s : Slug} : s ∈ (m.rolesOfGroup gid).map Role.slug ↔
      Named m.roles (fun id => (gid, id) ∈ m.groupRoles) s := by
  grind [Tables.rolesOfGroup, Named]

theorem mem_groupRoles {roles : List Role} : (∃ r ∈ roles, t ∈ groupRoleTuples gid r) ↔
      ∃ s ∈ roles.map Role.slug, t = .groupRole gid s := by
  simp [groupRoleTuples]

theorem Agrees.replaceGroupRoles (agrees : Agrees m.toTables ts) (known : ∀ r ∈ want, r ∈ m.roles) :
    Agrees (m.toTables.replaceGroupRoles gid (want.map Role.id)) (write ts
        ((missing Role.id (m.rolesOfGroup gid) want).flatMap (groupRoleTuples gid))
        ((missing Role.id want (m.rolesOfGroup gid)).flatMap (groupRoleTuples gid))) := by
  have present : ∀ r ∈ m.rolesOfGroup gid, r ∈ m.roles :=
    fun r mem => (Tables.mem_rolesOfGroup.mp mem).1
  apply agrees.exchange (fun t => ∃ r ∈ want, t ∈ groupRoleTuples gid r)
    (fun t => ∃ r ∈ m.rolesOfGroup gid, t ∈ groupRoleTuples gid r)
  · intro t
    rw [mem_write_difference]
    · simp only [not_exists, not_and]
    · intro r mem t ofRole
      rw [List.mem_singleton.mp ofRole]
      exact agrees.complete _ (mem_rolesOfGroup_slugs.mp (List.mem_map_of_mem mem))
    · grind [eq_of_uniqueKey, Mirror.integrity, Integrity.roles]
    · intro left leftMem right rightMem t ofLeft ofRight
      apply eq_of_uniqueKey m.integrity.slugs (present left leftMem) (known right rightMem)
      rw [List.mem_singleton.mp ofLeft] at ofRight
      injection List.mem_singleton.mp ofRight
  · intro t
    rw [mem_groupRoles, mem_groupRoles]
    simp only [mem_rolesOfGroup_slugs]
    cases t with
    | groupRole other s =>
      simp only [Expected, Tables.replaceGroupRoles, named_replaceAt known]
      by_cases same : other = gid <;> simp [same]
    | membership rel => cases rel <;> simp [Expected, Tables.replaceGroupRoles]
    | _ => simp [Expected, Tables.replaceGroupRoles, Tables.isGroupMember]
  · exact fun t left => left

theorem named_replacePermissions {r : Role} (mem : r ∈ m.roles)
    {want : List Permission} {s : Slug} {p : Permission} :
    Named m.roles (fun id => (id, p) ∈ replaceAt r.id want m.permissions) s ↔
      (s = r.slug ∧ p ∈ want) ∨ (Named m.roles (fun id => (id, p) ∈ m.permissions) s
          ∧ s ≠ r.slug) := by
  have split : ∀ id, (id, p) ∈ replaceAt r.id want m.permissions ↔
      (id = r.id ∧ p ∈ want) ∨ ((id, p) ∈ m.permissions ∧ id ≠ r.id) := by
    intro id
    rw [mem_replaceAt, or_comm]
  rw [named_congr split, named_or, named_eq mem, named_ne mem]

theorem Agrees.replaceRolePermissions (agrees : Agrees m.toTables ts) {r : Role}
    (mem : r ∈ m.roles) {want : List Permission} :
    Agrees (m.toTables.replaceRolePermissions r.id want) (write ts
        ((missing (·) (m.rolePermissions r.id) want).flatMap (grantTuples r.slug))
        ((missing (·) want (m.rolePermissions r.id)).flatMap (grantTuples r.slug))) := by
  have current : ∀ p, p ∈ m.rolePermissions r.id ↔
      Named m.roles (fun id => (id, p) ∈ m.permissions) r.slug := by
    intro p
    rw [Tables.mem_rolePermissions, named_iff mem]
  apply agrees.exchange (fun t => ∃ p ∈ want, t ∈ grantTuples r.slug p)
    (fun t => ∃ p ∈ m.rolePermissions r.id, t ∈ grantTuples r.slug p)
  · intro t
    rw [mem_write_difference]
    · simp only [not_exists, not_and]
    · intro p holds t ofPermission
      rw [List.mem_singleton.mp ofPermission]
      exact agrees.complete _ ((current p).mp holds)
    · exact fun _ _ _ _ same => same
    · intro left _ right _ t ofLeft ofRight
      rw [List.mem_singleton.mp ofLeft] at ofRight
      injection List.mem_singleton.mp ofRight
  · intro t
    simp only [current, grantTuples, List.mem_singleton]
    cases t with
    | grant s p =>
      grind [named_replacePermissions, Expected, Tables.replaceRolePermissions]
    | membership rel => cases rel <;> simp [Expected, Tables.replaceRolePermissions]
    | _ => simp [Expected, Tables.replaceRolePermissions, Tables.isGroupMember]
  · exact fun t left => left

/-- No row names an id that no role has. -/
theorem Agrees.insertRole (agrees : Agrees m.toTables ts) {r : Role}
    (fresh : r.id ∉ m.roles.map Role.id)
    (clean : ∀ gid, .groupRole gid r.slug ∉ ts) :
    Agrees (m.toTables.insertRole r) (write ts [.roleTenant r.slug] []) := by
  have bindings : ∀ uid s, Named (m.roles ++ [r]) (fun id => (uid, id) ∈ m.bindings) s ↔
        Named m.roles (fun id => (uid, id) ∈ m.bindings) s :=
    fun uid s => named_append fun bound => fresh (m.integrity.bindings _ bound).2
  have carried : ∀ gid s, Named (m.roles ++ [r]) (fun id => (gid, id) ∈ m.groupRoles) s ↔
        Named m.roles (fun id => (gid, id) ∈ m.groupRoles) s :=
    fun gid s => named_append fun link => fresh (m.integrity.groupRoles _ link).2
  have perms : ∀ s p, Named (m.roles ++ [r]) (fun id => (id, p) ∈ m.permissions) s ↔
        Named m.roles (fun id => (id, p) ∈ m.permissions) s :=
    fun s p => named_append fun held => fresh (m.integrity.permissions _ held)
  have expected : ∀ t, Expected (m.toTables.insertRole r) t ↔
      t = .roleTenant r.slug ∨ Expected m.toTables t := by
    intro t
    cases t with
    | membership rel uid =>
      cases rel <;> simp [Expected, Tables.insertRole, bindings]
    | roleTenant s => simp [Expected, Tables.insertRole, or_comm]
    | _ =>
      simp [Expected, Tables.insertRole, Tables.isGroupMember, bindings, carried, perms]
  refine agrees.insertOne expected fun t isStored isLeftover => ?_
  cases t with
  | groupRole gid s =>
    -- The slug stays without a role: under the new slug no such tuple is stored.
    grind [Tables.insertRole, Leftover]
  | _ => exact isLeftover

theorem Agrees.createRole (agrees : Agrees m.toTables ts) {r : Role}
    {inserted : Mirror} {perms : List Permission}
    (fresh : r.id ∉ m.roles.map Role.id)
    (clean : ∀ gid, .groupRole gid r.slug ∉ ts)
    (rs : inserted.toTables = m.toTables.insertRole r) :
    Agrees (inserted.toTables.replaceRolePermissions r.id perms)
      (write ts (.roleTenant r.slug :: perms.flatMap (grantTuples r.slug)) []) := by
  have first := agrees.insertRole fresh clean
  rw [← rs] at first
  have mem : r ∈ inserted.roles := by
    rw [rs]
    exact List.mem_append_right _ (List.mem_singleton_self r)
  have none : inserted.rolePermissions r.id = [] := by
    apply List.eq_nil_iff_forall_not_mem.mpr
    intro p held
    rw [Tables.mem_rolePermissions, rs] at held
    exact fresh (m.integrity.permissions _ held)
  have second := @Agrees.replaceRolePermissions _ _ first _ mem perms
  rw [none] at second
  have all : missing (·) [] perms = perms := by simp [missing]
  have nothing : missing (·) perms ([] : List Permission) = [] := rfl
  grind [write_adds_append]

/-- What holds of a role's rows after its deletion. -/
theorem named_delete {r : Role} (mem : r ∈ m.roles) {has kept : RoleID → Prop}
    (cascade : ∀ id, kept id ↔ has id ∧ id ≠ r.id) {s : Slug} :
    Named (m.roles.filter fun other => other.id ≠ r.id) kept s ↔
      Named m.roles has s ∧ s ≠ r.slug := by
  have stays : ∀ id, (kept id ∧ id ≠ r.id) ↔ has id ∧ id ≠ r.id := by
    intro id
    rw [cascade, and_assoc, and_self]
  rw [named_filter, named_congr stays, named_ne mem]

theorem mem_slugs_delete {r : Role} (mem : r ∈ m.roles) {s : Slug} :
    s ∈ (m.roles.filter fun other => other.id ≠ r.id).map Role.slug ↔
      s ∈ m.roles.map Role.slug ∧ s ≠ r.slug := by
  have named : ∀ roles : List Role, s ∈ roles.map Role.slug ↔ Named roles (fun _ => True) s := by
    intro roles
    simp [Named]
  rw [named, named, named_filter]
  exact named_ne mem

/-- The slug of a removed role may stay assigned to groups. -/
theorem Agrees.removeRole (agrees : Agrees m.toTables ts) {r : Role} (mem : r ∈ m.roles) :
    Agrees (m.toTables.removeRole r.id) (write ts []
        ((m.roleAssignees r.id).map (Tuple.roleAssignment r.slug)
          ++ (m.rolePermissions r.id).flatMap (grantTuples r.slug)
          ++ [.roleTenant r.slug])) := by
  have bindings : ∀ uid s, Named (m.toTables.removeRole r.id).roles
      (fun id => (uid, id) ∈ (m.toTables.removeRole r.id).bindings) s ↔
        Named m.roles (fun id => (uid, id) ∈ m.bindings) s ∧ s ≠ r.slug :=
    fun uid s => named_delete mem fun id => by simp [Tables.removeRole]
  have carried : ∀ gid s, Named (m.toTables.removeRole r.id).roles
      (fun id => (gid, id) ∈ (m.toTables.removeRole r.id).groupRoles) s ↔
        Named m.roles (fun id => (gid, id) ∈ m.groupRoles) s ∧ s ≠ r.slug :=
    fun gid s => named_delete mem fun id => by simp [Tables.removeRole]
  have perms : ∀ s p, Named (m.toTables.removeRole r.id).roles
      (fun id => (id, p) ∈ (m.toTables.removeRole r.id).permissions) s ↔
        Named m.roles (fun id => (id, p) ∈ m.permissions) s ∧ s ≠ r.slug :=
    fun s p => named_delete mem fun id => by simp [Tables.removeRole]
  have slugs : ∀ s, s ∈ (m.toTables.removeRole r.id).roles.map Role.slug ↔
      s ∈ m.roles.map Role.slug ∧ s ≠ r.slug :=
    fun s => mem_slugs_delete mem
  apply agrees.update (fun _ => False) (fun t =>
      (∃ uid, (uid, r.id) ∈ m.bindings ∧ t = .roleAssignment r.slug uid)
        ∨ (∃ p, (r.id, p) ∈ m.permissions ∧ t = .grant r.slug p)
        ∨ t = .roleTenant r.slug)
  · intro t
    simp only [mem_write, List.mem_append, List.mem_map, List.mem_flatMap, List.mem_singleton,
      grantTuples, Tables.mem_roleAssignees, Tables.mem_rolePermissions, or_assoc, eq_comm]
    simp
  · intro t expected
    refine Or.inr ?_
    cases t with
    | membership rel uid =>
      cases rel with
      | owner => exact ⟨((bindings _ _).mp expected).1, by simp⟩
      | _ => exact ⟨expected, by simp⟩
    | roleTenant s =>
      have kept := (slugs s).mp expected
      exact ⟨kept.1, by simp [kept.2]⟩
    | roleAssignment s uid =>
      have kept := (bindings uid s).mp expected
      exact ⟨kept.1, by simp [kept.2]⟩
    | groupRole gid s => exact ⟨((carried _ _).mp expected).1, by simp⟩
    | grant s p =>
      have kept := (perms s p).mp expected
      exact ⟨kept.1, by simp [kept.2]⟩
    | _ => exact ⟨expected, by simp⟩
  · rintro t (impossible | ⟨-, held, kept⟩)
    · exact impossible.elim
    cases t with
    | membership => exact Or.inr trivial
    | roleTenant s =>
      refine Or.inl ((slugs s).mpr ⟨held.resolve_right id, ?_⟩)
      rintro rfl
      exact kept (Or.inr (Or.inr rfl))
    | roleAssignment s uid =>
      have bound : Named m.roles (fun id => (uid, id) ∈ m.bindings) s :=
        held.resolve_right id
      refine Or.inl ((bindings uid s).mpr ⟨bound, ?_⟩)
      rintro rfl
      exact kept (Or.inl ⟨uid, (named_iff mem).mp bound, rfl⟩)
    | groupRole gid s =>
      by_cases same : s = r.slug
      · exact Or.inr fun present => ((slugs s).mp present).2 same
      · rcases held with link | unused
        · exact Or.inl ((carried gid s).mpr ⟨link, same⟩)
        · exact Or.inr fun present => unused ((slugs s).mp present).1
    | grant s p =>
      have holds : Named m.roles (fun id => (id, p) ∈ m.permissions) s :=
        held.resolve_right id
      refine Or.inl ((perms s p).mpr ⟨holds, ?_⟩)
      rintro rfl
      exact kept (Or.inr (Or.inl ⟨p, (named_iff mem).mp holds, rfl⟩))
    | _ => exact held

/-- A new group has no tuple yet: its id has never been handed out. -/
theorem Agrees.insertGroup (agrees : Agrees m.toTables ts) {group : Group}
    (unused : ∀ uid, .groupMembership group.id uid ∉ ts) :
    Agrees (m.toTables.insertGroup group) (write ts [.groupTenant group.id] []) := by
  have expected : ∀ t, Expected (m.toTables.insertGroup group) t ↔
      t = .groupTenant group.id ∨ Expected m.toTables t := by
    intro t
    cases t with
    | membership rel uid => cases rel <;> simp [Expected, Tables.insertGroup]
    | groupTenant gid => simp [Expected, Tables.insertGroup, or_comm]
    | _ => simp [Expected, Tables.insertGroup, Tables.isGroupMember]
  refine agrees.insertOne expected fun t isStored isLeftover => ?_
  cases t with
  | groupMembership gid uid =>
    grind [Tables.insertGroup, Leftover]
  | _ => exact isLeftover

theorem Agrees.appendMembers (agrees : Agrees tb ts) {addedAt : UserID → Int}
    (fresh : List UserID) :
    Agrees (tb.appendMembers (fresh.map (newMember gid addedAt)))
      (write ts (fresh.map (Tuple.groupMembership gid)) []) := by
  apply agrees.exchange (fun t => t ∈ fresh.map (Tuple.groupMembership gid)) (fun _ => False)
  · intro t
    simp [mem_write, or_comm]
  · intro t
    cases t with
    | membership rel uid => cases rel <;> simp [Expected, Tables.appendMembers]
    | groupMembership other uid =>
      rw [Expected, Tables.isGroupMember_appendMembers]
      simp only [List.mem_map, newMember, Expected]
      constructor
      · grind
      grind
    | _ => simp [Expected, Tables.appendMembers]
  · exact fun t left => left

theorem Agrees.removeGroupMember (agrees : Agrees tb ts) (gid : GroupID) (uid : UserID) :
    Agrees (tb.removeGroupMember gid uid) (write ts [] [.groupMembership gid uid]) := by
  apply agrees.exchange (fun _ => False) (fun t => t = .groupMembership gid uid)
  · intro t
    simp [mem_write]
  · intro t
    cases t with
    | membership rel uid => cases rel <;> simp [Expected, Tables.removeGroupMember]
    | groupMembership otherGroup otherUser =>
      simp only [Expected, Tables.isGroupMember_iff, Tables.removeGroupMember, List.mem_filter,
        Bool.not_eq_true', Bool.and_eq_false_iff, beq_eq_false_iff_ne, false_or,
        Tuple.groupMembership.injEq]
      grind
    | _ => simp [Expected, Tables.removeGroupMember]
  · exact fun t left => left

/-- The members of a deleted group that paging passed over keep their tuple, which grants
nothing: the group has no role any more. -/
theorem Agrees.deleteGroup (agrees : Agrees m.toTables ts) {gid : GroupID}
    {drained : List Member} :
    Agrees (m.toTables.deleteGroup gid) (write ts [] (.groupTenant gid
          :: (m.rolesOfGroup gid).flatMap (groupRoleTuples gid)
          ++ drained.map fun mem => .groupMembership gid mem.userID)) := by
  have groups : ∀ other, other ∈ (m.toTables.deleteGroup gid).groups.map Group.id ↔
      other ∈ m.groups.map Group.id ∧ other ≠ gid := by
    intro other
    simp only [Tables.deleteGroup, List.mem_map, List.mem_filter, decide_eq_true_eq]
    constructor
    · grind
    · grind
  have carried : ∀ other s, Expected (m.toTables.deleteGroup gid) (.groupRole other s) ↔
      Expected m.toTables (.groupRole other s) ∧ other ≠ gid := by
    intro other s
    have kept : ∀ id, (other, id) ∈ (m.toTables.deleteGroup gid).groupRoles ↔
        (other, id) ∈ m.groupRoles ∧ other ≠ gid := by
      simp [Tables.deleteGroup]
    exact (named_congr kept).trans named_and
  have members : ∀ other uid, Expected (m.toTables.deleteGroup gid) (.groupMembership other uid) ↔
        Expected m.toTables (.groupMembership other uid) ∧ other ≠ gid := by
    intro other uid
    simp only [Expected, Tables.isGroupMember_iff, Tables.deleteGroup, List.mem_filter,
      decide_eq_true_eq]
    constructor
    · grind
    · grind
  apply agrees.update (fun _ => False) (fun t => t = .groupTenant gid
      ∨ (∃ s, Expected m.toTables (.groupRole gid s) ∧ t = .groupRole gid s)
      ∨ ∃ mem ∈ drained, t = .groupMembership gid mem.userID)
  · intro t
    have removed : t ∈ Tuple.groupTenant gid :: (m.rolesOfGroup gid).flatMap (groupRoleTuples gid)
          ++ drained.map (fun mem => Tuple.groupMembership gid mem.userID) ↔
        t = .groupTenant gid ∨ (∃ s, Expected m.toTables (.groupRole gid s) ∧ t = .groupRole gid s)
          ∨ ∃ mem ∈ drained, t = .groupMembership gid mem.userID := by
      rw [List.mem_append, List.mem_cons, List.mem_flatMap, mem_groupRoles]
      simp only [mem_rolesOfGroup_slugs]
      simp only [List.mem_map, or_assoc, eq_comm, Expected]
    rw [mem_write, removed]
    simp
  · intro t expected
    refine Or.inr ?_
    cases t with
    | membership rel => exact ⟨by cases rel <;> exact expected, by simp⟩
    | groupTenant other =>
      have kept := (groups other).mp expected
      exact ⟨kept.1, by simp [kept.2]⟩
    | groupMembership other uid =>
      grind
    | groupRole other s =>
      grind
    | _ => exact ⟨expected, by simp⟩
  · rintro t (impossible | ⟨-, held, kept⟩)
    · exact impossible.elim
    cases t with
    | membership => exact Or.inr trivial
    | groupTenant other =>
      refine Or.inl ((groups other).mpr ⟨held.resolve_right id, ?_⟩)
      rintro rfl
      exact kept (Or.inl rfl)
    | groupMembership other uid =>
      by_cases same : other = gid
      · exact Or.inr fun present => ((groups other).mp present).2 same
      · rcases held with isMem | gone
        · exact Or.inl ((members other uid).mpr ⟨isMem, same⟩)
        · exact Or.inr fun present => gone ((groups other).mp present).1
    | groupRole other s =>
      grind [Tables.deleteGroup, Leftover]
    | _ => exact held

/-- A new account had no row and no tuple of its own. -/
theorem Agrees.accept (agrees : Agrees m.toTables ts) {email : Email}
    {opened next : Mirror} {roles : List Role} {joined : List GroupID} {rs : List Member}
    (fresh : uid ∉ m.users.map Account.id)
    (inserted : opened.toTables = m.toTables.insertUser ⟨uid, email, .active⟩)
    (known : ∀ r ∈ roles, r ∈ opened.roles) (accepted : next.toTables
      = (opened.toTables.replaceBindings uid (roles.map Role.id)).appendMembers rs)
    (ofUser : ∀ row ∈ rs, row.userID = uid ∧ row.groupID ∈ joined)
    (members : ∀ gid ∈ joined, next.isGroupMember gid uid = true) :
    Agrees next.toTables (write ts (.membership .member uid
        :: joined.map (fun gid => .groupMembership gid uid)
        ++ roles.flatMap (assignmentTuples uid)) []) := by
  rw [inserted] at accepted known
  have known : ∀ r ∈ roles, r ∈ m.roles := known
  have unbound : ∀ s, ¬Named m.roles (fun id => (uid, id) ∈ m.bindings) s := by
    rintro s ⟨r, -, -, bound⟩
    exact fresh (m.integrity.bindings _ bound).1
  apply agrees.exchange (fun t => t = .membership .member uid
      ∨ (∃ gid ∈ joined, t = .groupMembership gid uid)
      ∨ ∃ r ∈ roles, t ∈ assignmentTuples uid r) (fun _ => False)
  · intro t
    simp only [mem_write, List.cons_append, List.mem_cons, List.mem_append, List.mem_flatMap,
      List.mem_map, List.not_mem_nil, not_false_eq_true, and_true, eq_comm]
    exact or_comm
  · intro t
    rw [mem_assignments]
    cases t with
    | membership rel other =>
      cases rel with
      | member =>
        rw [accepted]
        simp [Expected, Tables.appendMembers, Tables.replaceBindings, Tables.insertUser,
          or_and_right, exists_or, or_comm, eq_comm]
      | owner =>
        rw [accepted]
        refine (named_replaceAt known).trans ?_
        by_cases same : other = uid
        · simp [same, Expected, unbound]
        · simp [same, Expected, Tables.insertUser]
      | admin => simp [Expected]
    | roleAssignment s other =>
      rw [accepted]
      refine (named_replaceAt known).trans ?_
      by_cases same : other = uid
      · simp [same, Expected, unbound]
      · simp [same, Expected, Tables.insertUser]
    | groupMembership gid other =>
      simp only [reduceCtorEq, false_or, and_false, exists_false, or_false, not_false_eq_true,
        and_true, Tuple.groupMembership.injEq, Expected]
      constructor
      · intro isMem
        rw [accepted, Tables.isGroupMember_appendMembers] at isMem
        rcases isMem with isMem | ⟨row, added, rfl, rfl⟩
        · exact Or.inr isMem
        grind
      · rintro (⟨group, isJoined, rfl, rfl⟩ | isMem)
        · exact members _ isJoined
        · rw [accepted]
          exact Tables.isGroupMember_appendMembers.mpr (Or.inl isMem)
    | _ =>
      rw [accepted]
      simp [Expected, Tables.appendMembers, Tables.replaceBindings, Tables.insertUser]
  · intro t left
    rw [accepted]
    exact left

end Preservation

end TangraAuth.Authz

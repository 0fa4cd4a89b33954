import TangraAuth.Authz.Capture

/-!
Contract: what a registration of permissions alone makes of a tenant, exactly.

Owns: the catalogue, the marker, the copies and the grants after a registration
that ends, and which decisions that were allowed stay allowed.

Does not own: registrations that declare roles or grants, and those that fail.
-/

namespace TangraAuth.Authz

open Library Store Accounts

/-- Users, their status and who is assigned to what. -/
structure Steady (pre post : TenantData) : Prop where
  status : post.status = pre.status
  users : post.mirror.users = pre.mirror.users
  assignments : ∀ t, t.isGrant = false → (∀ s, t ≠ .roleTenant s) →
    (t ∈ post.tuples ↔ t ∈ pre.tuples)

section Steady

variable {pre d post : TenantData} {uid : UserID} {s : Slug}

theorem Steady.refl : Steady d d := ⟨rfl, rfl, fun _ _ _ => Iff.rfl⟩

theorem Steady.trans (first : Steady pre d) (second : Steady d post) : Steady pre post where
  status := second.status.trans first.status
  users := second.users.trans first.users
  assignments := fun t notGrant notRole =>
    (second.assignments t notGrant notRole).trans (first.assignments t notGrant notRole)

theorem Steady.active (steady : Steady pre post) : post.Active uid ↔ pre.Active uid := by
  unfold TenantData.Active TenantData.userStatus
  rw [steady.status, steady.users]

theorem Steady.assignee (steady : Steady pre post) :
    Assignee post.tuples uid s ↔ Assignee pre.tuples uid s :=
  assignee_congr steady.assignments

theorem Assigned.steady {r : Role} {want : Permission → Prop}
    (assigned : Assigned pre r want post) : Steady pre post where
  status := congrArg Directory.status assigned.directory
  users := congrArg Directory.users assigned.directory
  assignments := fun t notGrant _ => assigned.assignments t notGrant

end Steady

/-! ### Permissions -/

/-- The catalogue got these permissions, and nothing else changed. -/
structure Recorded (refs : List Permission) (pre post : TenantData) : Prop where
  steady : Steady pre post
  roles : post.mirror.roles = pre.mirror.roles
  roleInfo : post.roleInfo = pre.roleInfo
  modules : post.modules = pre.modules
  ledger : post.ledger = pre.ledger
  catalogue : ∀ p, p ∈ post.mirror.catalogue ↔ p ∈ pre.mirror.catalogue ∨ p ∈ refs

section Permissions

variable {fs : CallFaults} {init pre d post : TenantData} {mod : String}
  {registrant : String} {perms : List PermissionDef}

theorem Recorded.of_nothing {refs : List Permission}
    (known : ∀ p ∈ refs, p ∈ init.mirror.catalogue) :
    Recorded refs init init :=
  ⟨Steady.refl, rfl, rfl, rfl, rfl, fun p =>
    ⟨Or.inl, fun held => held.elim id (known p)⟩⟩

theorem Recorded.trans {first second : List Permission} (one : Recorded first pre d)
    (two : Recorded second d post) : Recorded (first ++ second) pre post where
  steady := one.steady.trans two.steady
  roles := two.roles.trans one.roles
  roleInfo := two.roleInfo.trans one.roleInfo
  modules := two.modules.trans one.modules
  ledger := two.ledger.trans one.ledger
  catalogue := fun p => by
    rw [two.catalogue, one.catalogue, List.mem_append, or_assoc]

theorem Recorded.of_upsert {p : Permission} {info : PermissionInfo} :
    Recorded [p] init (init.upsertPermission p info) :=
  ⟨⟨rfl, rfl, fun _ _ _ => Iff.rfl⟩, rfl, rfl, rfl, rfl, fun other => by
    refine Tables.mem_upsertPermission.trans ?_
    rw [List.mem_singleton, or_comm]⟩

/-- The refs of definitions under the module. -/
def refsOf (mod : String) (perms : List PermissionDef) : List Permission :=
  perms.map fun p => p.ref mod

/-- What counts as known is in the catalogue. -/
theorem upsertPermissions_recorded {known : Permission → Option String}
    (sound : ∀ p desc, known p = some desc → p ∈ init.mirror.catalogue) :
    Triple (Site.meets (· = init)) (upsertPermissions fs mod registrant known perms)
      (fun _ => Site.meets (Recorded (refsOf mod perms) init))
      (Site.meets fun _ => True) := by
  induction perms generalizing known init with
  | nil =>
    refine Triple.pure fun site same => ?_
    rw [Site.meets, same]
    exact Recorded.of_nothing fun _ none => absurd none List.not_mem_nil
  | cons p rest ih =>
    unfold upsertPermissions
    refine Triple.ite (fun isKnown => ?_) fun _ => ?_
    · refine (ih sound).leave fun _ _ recorded => ?_
      have nothing : Recorded [p.ref mod] init init := by
        refine Recorded.of_nothing fun other isRef => ?_
        rw [List.mem_singleton.mp isRef]
        exact sound _ _ isKnown
      exact nothing.trans recorded
    · have upserted := @perform_spec fs (· = init)
        (· = init.upsertPermission (p.ref mod) ⟨p.description, registrant⟩) (fun _ => True)
        (fun d => d.upsertPermission (p.ref mod) ⟨p.description, registrant⟩)
        (fun _ same => ⟨same ▸ rfl, trivial⟩) fun _ _ => trivial
      refine Triple.bind upserted fun _ => ?_
      refine (ih ?_).leave fun _ _ recorded => ?_
      · intro other desc isKnown
        refine Tables.mem_upsertPermission.mpr ?_
        grind
      · exact Recorded.of_upsert.trans recorded

theorem registerPermissions_recorded : Triple (Site.meets (· = init))
      (registerPermissions fs mod registrant perms)
      (fun _ => Site.meets (Recorded (refsOf mod perms) init))
      (Site.meets fun _ => True) := by
  unfold registerPermissions
  refine Triple.ite (fun _ => ?_) fun _ => Triple.fail fun _ _ => trivial
  refine query_bind (fun _ _ => trivial) ?_
  rintro d rfl
  have announced : Triple (Site.meets (· = d)) (writeNew fs mod (knownDescriptions d) perms)
      (fun _ => Site.meets fun next => next = d ∨ next = d.withTuples d.tuples)
      (Site.meets fun _ => True) :=
    Triple.ite (fun _ => writeUnread_spec (fun _ same => Or.inr (same ▸ rfl)) fun _ _ => trivial)
      fun _ => Triple.pure fun _ same => Or.inl same
  refine Triple.bind announced fun _ => Triple.returning (Site.from fun now next => ?_)
  have sound : ∀ p desc, knownDescriptions d p = some desc → p ∈ now.mirror.catalogue := by
    intro p desc isKnown
    have same : now.mirror.catalogue = d.mirror.catalogue := by
      rcases next with isData | isData <;> rw [isData]
      rfl
    unfold knownDescriptions at isKnown
    rw [same]
    by_contra unknown
    rw [if_neg unknown] at isKnown
    cases isKnown
  refine (upsertPermissions_recorded sound).leave fun _ last recorded => ?_
  rcases next with isData | isData
  · exact isData ▸ recorded
  · have same : Recorded [] d now := by
      rw [isData]
      exact ⟨⟨rfl, rfl, fun _ _ _ => Iff.rfl⟩, rfl, rfl, rfl, rfl, fun _ => by
        simp [TenantData.withTuples]⟩
    exact same.trans recorded

end Permissions

/-! ### Migration -/

/-- The marker is not set. -/
def Unmigrated (mod : String) (d : TenantData) : Prop :=
  ∀ row, d.tenantModule mod = some row → row.migrated = false

/-- A slug's own permissions, and those of the module for its legacy ones. -/
def migrationWant (mod : String) (known : Permission → Prop)
    (lg : Ledger Slug Permission) (s : Slug) (p : Permission) : Prop :=
  lg.rows s p ∨ (p.moduleName = mod ∧ known p ∧ lg.rows s p.legacy)

/-- The roles were given the module's permissions for their legacy grants, and the marker is
set. -/
structure Migrated (mod : String) (pre post : TenantData) : Prop where
  steady : Steady pre post
  roles : post.mirror.roles = pre.mirror.roles
  roleInfo : post.roleInfo = pre.roleInfo
  catalogue : post.mirror.catalogue = pre.mirror.catalogue
  marked : ∃ row, post.tenantModule mod = some row ∧ row.migrated = true
  ledger : post.ledger = pre.ledger.change (fun _ => Unmigrated mod pre)
    (migrationWant mod (· ∈ pre.mirror.catalogue) pre.ledger)

section Migration

variable {fs : CallFaults} {init d : TenantData} {mod : String}

theorem tenantModule_ensured {row : TenantModule}
    (found : (init.ensureTenantModule mod).tenantModule mod = some row) :
    row.migrated = false ↔ Unmigrated mod init := by
  grind [Unmigrated, TenantData.tenantModule, TenantData.ensureTenantModule]

theorem tenantModule_marked (marked : init.markLegacyMigrated mod = some d) :
    ∃ row, d.tenantModule mod = some row ∧ row.migrated = true := by
  unfold TenantData.markLegacyMigrated at marked
  split at marked
  case isFalse => cases marked
  case isTrue present =>
    cases marked
    obtain ⟨row, mem, isRow⟩ := List.any_eq_true.mp present
    have some : (TenantData.tenantModule { init with
        modules := updateWhere (fun row => row.name == mod)
          (fun row => { row with migrated := true }) init.modules } mod).isSome := by
      rw [TenantData.tenantModule, List.find?_isSome]
      exact ⟨_, List.mem_map_of_mem mem, by simp [isRow]⟩
    obtain ⟨found, isFound⟩ := Option.isSome_iff_exists.mp some
    grind [TenantData.tenantModule, updateWhere]

theorem mem_migrated {known grants : List Permission} {p : Permission} :
    p ∈ migrated mod known grants ↔ p.moduleName = mod ∧ p ∈ known ∧ p.legacy ∈ grants := by
  unfold migrated
  rw [List.mem_map]
  constructor
  · rintro ⟨grant, kept, rfl⟩
    obtain ⟨listed, sel⟩ := List.mem_filter.mp kept
    simp only [Bool.and_eq_true, List.contains_eq_mem, decide_eq_true_eq] at sel
    have isLegacy : grant.moduleName = "" := by simpa [Permission.isLegacy] using sel.1
    refine ⟨rfl, sel.2, ?_⟩
    have same : (grant.withModule mod).legacy = grant := by
      cases grant
      cases isLegacy
      rfl
    rw [same]
    exact listed
  · rintro ⟨rfl, isKnown, listed⟩
    refine ⟨p.legacy, List.mem_filter.mpr ⟨listed, ?_⟩, rfl⟩
    have same : p.legacy.withModule p.moduleName = p := rfl
    rw [same]
    simp [Permission.isLegacy, Permission.legacy, Permission.withModule, isKnown]

theorem migrateRole_spec {r : Role} (mem : r ∈ init.mirror.roles)
    (directory : d.directory = init.directory)
    (oldRows : ∀ p, d.ledger.rows r.slug p ↔ init.ledger.rows r.slug p) :
    Triple (Site.meets (· = d)) (migrateRole fs mod init.mirror.catalogue r)
      (fun _ => Site.meets (Assigned d r
        (migrationWant mod (· ∈ init.mirror.catalogue) init.ledger r.slug)))
      (Site.meets fun _ => True) := by
  refine query_bind (fun _ _ => trivial) ?_
  rintro d rfl
  have roles : d.mirror.roles = init.mirror.roles := congrArg Directory.roles directory
  have listed : Listed d r := ⟨r, roles ▸ mem, rfl, rfl⟩
  have want : ∀ p, (d.ledger.rows r.slug p ∨ p ∈ migrated mod
        init.mirror.catalogue (d.mirror.rolePermissions r.id)) ↔
      migrationWant mod (· ∈ init.mirror.catalogue) init.ledger r.slug p := by
    intro p
    rw [mem_migrated, ← listed.rows, oldRows, oldRows]
    rfl
  refine Triple.ite (fun nothing => ?_) fun _ => ?_
  · refine Triple.pure fun site same => ?_
    rw [Site.meets, same]
    refine Assigned.of_same fun p => ?_
    rw [← want p, List.isEmpty_iff.mp nothing]
    simp
  · have added := @addGrants_listed d r fs
      (migrated mod init.mirror.catalogue (d.mirror.rolePermissions r.id)) listed
    exact Triple.bind (added.stop fun _ _ => trivial) fun _ => Triple.pure fun _ assigned =>
      assigned.congr want

/-- A slug without a role has no rows, so it is left as it is. -/
theorem change_every_slug {known : Permission → Prop} (unmigrated : Unmigrated mod init) :
    init.ledger.change (fun s => ∃ r ∈ init.mirror.roles, s = r.slug)
        (migrationWant mod known init.ledger)
      = init.ledger.change (fun _ => Unmigrated mod init)
        (migrationWant mod known init.ledger) := by
  refine Ledger.change_congr fun s p => ?_
  by_cases named : ∃ r ∈ init.mirror.roles, s = r.slug
  · exact Or.inl ⟨fun _ => unmigrated, fun _ => named⟩
  · have rowless : ∀ other, ¬init.ledger.rows s other := by
      rintro other ⟨r, mem, isSlug, -⟩
      exact named ⟨r, mem, isSlug.symm⟩
    exact Or.inr (by simp [migrationWant, rowless])

theorem migrateRoles_spec (unmigrated : Unmigrated mod init) : Triple (Site.meets (· = init))
      (Task.each (migrateRole fs mod init.mirror.catalogue) init.mirror.roles)
      (fun _ => Site.meets fun d => d.directory = init.directory ∧ SameAssignments init d
        ∧ d.ledger = init.ledger.change (fun _ => Unmigrated mod init)
          (migrationWant mod (· ∈ init.mirror.catalogue) init.ledger))
      (Site.meets fun _ => True) := by
  have loop := @each_assigns init init.mirror.roles
    (migrationWant mod (· ∈ init.mirror.catalogue) init.ledger) Unit
    (migrateRole fs mod init.mirror.catalogue) init.mirror.integrity.slugs
    fun r mem d directory rs => migrateRole_spec mem directory rs
  refine loop.leave fun _ site ended => ?_
  exact ⟨ended.directory, ended.assignments, change_every_slug unmigrated ▸ ended.ledger⟩

theorem migrate_spec : Triple (Site.meets (· = init)) (migrate fs mod)
      (fun _ => Site.meets (Migrated mod init)) (Site.meets fun _ => True) := by
  have ensured := @perform_spec fs (· = init) (· = init.ensureTenantModule mod)
    (fun _ => True) (fun d => d.ensureTenantModule mod)
    (fun _ same => ⟨same ▸ rfl, trivial⟩) fun _ _ => trivial
  refine Triple.bind ensured fun _ => query_bind (fun _ _ => trivial) ?_
  rintro _ rfl
  split
  case h_1 => exact Triple.fail fun _ _ => trivial
  case h_2 row isRow =>
    refine Triple.ite (fun isMarked => ?_) fun isUnmarked => ?_
    · have marked : ¬Unmigrated mod init := fun unmigrated => by
        rw [(tenantModule_ensured isRow).mpr unmigrated] at isMarked
        cases isMarked
      refine Triple.pure fun site same => ?_
      rw [Site.meets, same]
      exact ⟨⟨rfl, rfl, fun _ _ _ => Iff.rfl⟩, rfl, rfl, rfl, ⟨row, isRow, isMarked⟩,
        (Ledger.change_none fun _ => marked).symm⟩
    · have unmigrated : Unmigrated mod init :=
        (tenantModule_ensured isRow).mp (by simpa using isUnmarked)
      have stillUnmigrated : Unmigrated mod (init.ensureTenantModule mod) := by
        intro other isOther
        rw [isRow] at isOther
        cases isOther
        exact (tenantModule_ensured isRow).mpr unmigrated
      refine query_bind (fun _ _ => trivial) ?_
      rintro _ rfl
      refine query_bind (fun _ _ => trivial) ?_
      rintro _ rfl
      refine Triple.bind (migrateRoles_spec stillUnmigrated) fun _ =>
        executeChecked_spec (fun d next ended marked => ⟨?_, trivial⟩) fun _ _ => trivial
      have isMarked := tenantModule_marked marked
      unfold TenantData.markLegacyMigrated at marked
      split at marked
      case isFalse => cases marked
      case isTrue =>
        cases marked
        obtain ⟨directory, assignments, lg⟩ := ended
        refine ⟨⟨congrArg Directory.status directory, congrArg Directory.users directory,
          fun t notGrant _ => assignments t notGrant⟩,
          congrArg Directory.roles directory, congrArg Directory.roleInfo directory,
          congrArg Directory.catalogue directory, isMarked, ?_⟩
        refine Eq.trans lg ?_
        simp only [stillUnmigrated, unmigrated]
        rfl

end Migration

/-! ### Role copies -/

def HasCopy (mod : String) (d : TenantData) (s : String) : Prop :=
  ∃ r ∈ d.mirror.roles, d.isCopy mod s r = true

/-- Role rows changed and copies were made; ids and slugs stay. -/
structure Grown (mod : String) (made : String → Prop) (pre post : TenantData) :
    Prop where
  steady : Steady pre post
  catalogue : post.mirror.catalogue = pre.mirror.catalogue
  modules : post.modules = pre.modules
  listed : ∀ r, Listed pre r → Listed post r
  copies : ∀ s, HasCopy mod post s ↔ HasCopy mod pre s ∨ made s

section Copies

variable {fs : CallFaults} {nid : Nat → RoleID} {init pre d post : TenantData}
  {mod : String} {r : Role} {df : ModuleRoleDef}

theorem Grown.refl : Grown mod (fun _ => False) d d :=
  ⟨Steady.refl, rfl, rfl, fun _ => id, fun _ => by simp⟩

theorem Grown.trans {first second : String → Prop} (one : Grown mod first pre d)
    (two : Grown mod second d post) :
    Grown mod (fun s => first s ∨ second s) pre post where
  steady := one.steady.trans two.steady
  catalogue := two.catalogue.trans one.catalogue
  modules := two.modules.trans one.modules
  listed := fun r stored => two.listed r (one.listed r stored)
  copies := fun s => by rw [two.copies, one.copies, or_assoc]

theorem Grown.congr {made also : String → Prop} (grown : Grown mod made pre post)
    (same : ∀ s, HasCopy mod pre s ∨ made s ↔
      HasCopy mod pre s ∨ also s) : Grown mod also pre post :=
  { grown with copies := fun s => (grown.copies s).trans (same s) }

theorem Grown.of_assigned {want : Permission → Prop} (assigned : Assigned pre r want post) :
    Grown mod (fun _ => False) pre post := by
  have roles : post.mirror.roles = pre.mirror.roles :=
    congrArg Directory.roles assigned.directory
  have info : post.roleInfo = pre.roleInfo := congrArg Directory.roleInfo assigned.directory
  refine ⟨assigned.steady, congrArg Directory.catalogue assigned.directory,
    congrArg Directory.modules assigned.directory, fun r listed => ?_, fun s => ?_⟩
  · unfold Listed
    rw [roles]
    exact listed
  · simp only [HasCopy, TenantData.isCopy, roles, info, or_false]

/-- Renaming and retiring keep what makes a row a copy. -/
theorem Grown.of_update {id : RoleID} {dn desc : String} {retired : Bool}
    (updated : pre.updateModuleRole id dn desc retired = some post) :
    Grown mod (fun _ => False) pre post ∧ post.ledger = pre.ledger := by
  obtain rfl := TenantData.updateModuleRole_eq_some updated
  have sameInfo := fun other => pre.roleInfo_renamed id other dn desc
  refine ⟨⟨⟨rfl, rfl, fun _ _ _ => Iff.rfl⟩, rfl, rfl, ?_, fun s => ?_⟩, ?_⟩
  · rintro r ⟨row, mem, sameID, sameSlug⟩
    refine ⟨_, List.mem_map_of_mem mem, ?_, ?_⟩
    · split <;> exact sameID
    · split <;> exact sameSlug
  · simp only [or_false]
    constructor
    · rintro ⟨row, mem, copy⟩
      grind [Tables.of_mem_retireModuleRole, HasCopy, TenantData.isCopy]
    · rintro ⟨row, mem, copy⟩
      refine ⟨_, List.mem_map_of_mem mem, ?_⟩
      split <;> simpa only [TenantData.isCopy, sameInfo] using copy
  · ext s p
    · exact rows_retireModuleRole
    · exact Iff.rfl

theorem Grown.of_insert {info : RoleInfo} (isCopy : r.origin = .ofModule)
    (ofModule : info.moduleName = mod)
    (inserted : pre.insertRole r info = some post) :
    Grown mod (info.moduleSlug = ·) pre post ∧ post.ledger = pre.ledger ∧ Listed post r := by
  obtain ⟨fresh, named, rfl⟩ := TenantData.insertRole_eq_some inserted
  have sameInfo : ∀ row ∈ pre.mirror.roles,
      Function.update pre.roleInfo r.id info row.id = pre.roleInfo row.id := fun _ =>
    TenantData.roleInfo_insert fresh.1
  refine ⟨⟨⟨rfl, rfl, fun _ _ _ => Iff.rfl⟩, rfl, rfl, ?_, fun s => ?_⟩, ?_,
    ⟨r, List.mem_append_right _ List.mem_cons_self, rfl, rfl⟩⟩
  · grind [Listed, Tables.insertRole]
  · constructor
    · rintro ⟨row, mem, copy⟩
      rcases List.mem_append.mp mem with stored | isNew
      · grind [HasCopy, TenantData.isCopy]
      · rw [List.mem_singleton.mp isNew] at copy
        simp only [TenantData.isCopy, Function.update_self, Bool.and_eq_true, beq_iff_eq] at copy
        exact Or.inr copy.2
    · rintro (⟨row, stored, copy⟩ | rfl)
      · grind [HasCopy, Tables.insertRole, TenantData.isCopy]
      · refine ⟨r, List.mem_append_right _ List.mem_cons_self, ?_⟩
        simp [TenantData.isCopy, isCopy, ofModule]
  · ext s p
    · exact rows_insertRole fresh.1
    · exact Iff.rfl

theorem hasCopy_of_moduleRole {s : String} (found : d.moduleRole mod s = some r) :
    HasCopy mod d s ∧ Listed d r ∧ r.slug = moduleRoleSlug mod s := by
  have mem := List.mem_of_find?_eq_some found
  obtain ⟨-, copy, isSlug⟩ := TenantData.moduleRole_eq_some found
  refine ⟨⟨r, mem, List.find?_some found⟩, ⟨r, mem, rfl, rfl⟩, ?_⟩
  rw [d.copies r mem copy.1, copy.2, isSlug]

theorem not_hasCopy_of_moduleRole {s : String} (none : d.moduleRole mod s = none) :
    ¬HasCopy mod d s := by
  rintro ⟨r, mem, copy⟩
  exact absurd copy (List.find?_eq_none.mp none r mem)

/-- The tuple of a role object is no assignment and no grant. -/
theorem Grown.of_roleTenant {s : Slug} : Grown mod (fun _ => False) init
        (init.withTuples (write init.tuples [.roleTenant s] []))
      ∧ (init.withTuples (write init.tuples [.roleTenant s] [])).ledger = init.ledger := by
  have same : ∀ t, (∀ other, t ≠ .roleTenant other) →
      (t ∈ write init.tuples [.roleTenant s] [] ↔ t ∈ init.tuples) := by
    intro t notRole
    simp [mem_write, notRole s]
  refine ⟨⟨⟨rfl, rfl, fun t _ notRole => same t notRole⟩, rfl, rfl, fun _ => id,
    fun _ => (or_false _).symm.to_iff⟩, ?_⟩
  ext other p
  · exact Iff.rfl
  · exact same _ (by simp)

/-- The tenant has a copy of the definition, and the grants are as they were. -/
structure CopyMade (mod : String) (df : ModuleRoleDef) (pre : TenantData)
    (r : Role) (post : TenantData) : Prop where
  grown : Grown mod (df.slug = ·) pre post
  ledger : post.ledger = pre.ledger
  listed : Listed post r
  slug : r.slug = moduleRoleSlug mod df.slug

theorem createCopy_made : Triple (Site.meets (· = init)) (createCopy fs nid mod df)
      (fun r => Site.meets (CopyMade mod df init r))
      (Site.meets fun _ => True) := by
  have written := @writeTuples_spec fs (· = init)
    (fun next => Grown mod (fun _ => False) init next ∧ next.ledger = init.ledger)
    (fun _ => True) [.roleTenant (moduleRoleSlug mod df.slug)] []
    (fun _ same => same ▸ Grown.of_roleTenant) fun _ _ _ _ => trivial
  refine createCopy_rule (fun _ _ => trivial) written (fun _ _ => trivial)
    (fun id d post met inserted => ⟨?_, trivial⟩) fun d r met found => ?_
  · obtain ⟨grown, lg, listed⟩ := Grown.of_insert rfl rfl inserted
    refine ⟨?_, lg.trans met.2, listed, rfl⟩
    exact (met.1.trans grown).congr fun s => by simp
  · obtain ⟨grown, lg⟩ := met
    obtain ⟨copy, listed, isSlug⟩ := hasCopy_of_moduleRole found
    refine ⟨grown.congr fun s => ?_, lg, listed, isSlug⟩
    have held : HasCopy mod init df.slug := by
      simpa using (grown.copies df.slug).mp copy
    grind

/-- A definition that is retired gets no copy, but a copy it has is kept in step. -/
def InStep (mod : String) (d : TenantData) (df : ModuleRoleDef) : Prop :=
  HasCopy mod d df.slug ∨ df.retired = false

/-- One definition was synchronised; `listed` is the tenant as its roles were listed. -/
structure Synced (mod : String) (listed : TenantData) (known : List Permission)
    (df : ModuleRoleDef) (pre post : TenantData) : Prop where
  grown : Grown mod (fun s => df.slug = s ∧ InStep mod listed df) pre post
  ledger : post.ledger = pre.ledger.change
    (fun s => s = moduleRoleSlug mod df.slug ∧ InStep mod listed df)
    fun _ p => p ∈ wantedGrants mod known df

variable {listed : TenantData} {known : List Permission}

/-- The last call of a synchronisation sets the grants of the copy. -/
theorem Synced.of_assigned (inStep : InStep mod listed df) (grown : Grown mod (df.slug = ·) pre d)
    (lg : d.ledger = pre.ledger)
    (isSlug : r.slug = moduleRoleSlug mod df.slug)
    (assigned : Assigned d r (· ∈ wantedGrants mod known df) post) :
    Synced mod listed known df pre post where
  grown := (grown.trans (Grown.of_assigned assigned)).congr fun s => by simp [inStep]
  ledger := by
    rw [assigned.ledger, lg, isSlug]
    refine Ledger.change_congr fun s _ => Or.inl ?_
    simp [inStep]

theorem updateCopy_grown : Triple (Site.meets (· = d)) (updateCopy fs listed df r)
      (fun _ => Site.meets fun next => Grown mod (fun _ => False) d next ∧ next.ledger = d.ledger)
      (Site.meets fun _ => True) := by
  refine Triple.ite (fun _ => executeChecked_spec ?_ fun _ _ => trivial) fun _ =>
    Triple.pure fun _ same => ?_
  · rintro _ next rfl updated
    exact ⟨Grown.of_update updated, trivial⟩
  · rw [Site.meets, same]
    exact ⟨Grown.refl, rfl⟩

theorem syncRole_spec (grown : ∀ r, Listed listed r → Listed d r)
    (copies : ∀ s, HasCopy mod listed s → HasCopy mod d s) :
    Triple (Site.meets (· = d)) (syncRole fs nid mod listed known df)
      (fun _ => Site.meets (Synced mod listed known df d))
      (Site.meets fun _ => True) := by
  unfold syncRole
  split
  case h_1 r found =>
    obtain ⟨copy, stored, isSlug⟩ := hasCopy_of_moduleRole found
    have updating := @updateCopy_grown fs d mod r df listed
    refine Triple.bind updating fun _ => Triple.returning (Site.from fun now updated => ?_)
    have nowListed := updated.1.listed r (grown r stored)
    refine (setGrants_listed nowListed).weaken (fun _ same => same) (fun _ _ assigned => ?_)
      fun _ _ => trivial
    refine Synced.of_assigned (Or.inl copy) (updated.1.congr fun s => ?_) updated.2 isSlug assigned
    grind
  case h_2 none =>
    have noCopy := not_hasCopy_of_moduleRole none
    refine Triple.ite (fun isRetired => ?_) fun isCurrent => ?_
    · have outOfStep : ¬InStep mod listed df := by
        rintro (copy | current)
        · exact noCopy copy
        · rw [isRetired] at current
          cases current
      refine Triple.pure fun _ same => ?_
      rw [Site.meets, same]
      exact ⟨Grown.refl.congr fun s => by simp [outOfStep],
        (Ledger.change_none (by simp [outOfStep])).symm⟩
    · refine Triple.bind createCopy_made fun r => Triple.returning (Site.from fun now made => ?_)
      refine (setGrants_listed made.listed).weaken (fun _ same => same) (fun _ _ assigned => ?_)
        fun _ _ => trivial
      exact Synced.of_assigned (Or.inr (by simpa using isCurrent)) made.grown made.ledger made.slug
        assigned

theorem moduleRoleSlug_injective {left right : String}
    (same : moduleRoleSlug mod left = moduleRoleSlug mod right) : left = right := by
  unfold moduleRoleSlug at same
  exact String.append_right_inj _ |>.mp same

/-- The slugs of the copies that are kept in step. -/
def Syncs (mod : String) (defs : List ModuleRoleDef) (d : TenantData) (s : Slug) : Prop :=
  ∃ df ∈ defs, s = moduleRoleSlug mod df.slug ∧ InStep mod d df

/-- The permissions a copy gets: those of its definition that the tenant knows. -/
def syncWant (mod : String) (known : Permission → Prop) (defs : List ModuleRoleDef)
    (s : Slug) (p : Permission) : Prop :=
  ∃ df ∈ defs, s = moduleRoleSlug mod df.slug
    ∧ known p ∧ ∃ text ∈ df.permissions, qualify mod text = some p

theorem syncWant_self {defs : List ModuleRoleDef}
    (ne : UniqueKey ModuleRoleDef.slug defs) (mem : df ∈ defs)
    {p : Permission} :
    syncWant mod (· ∈ known) defs (moduleRoleSlug mod df.slug)
        p ↔ p ∈ wantedGrants mod known df := by
  unfold wantedGrants
  rw [List.mem_filter, List.mem_filterMap]
  simp only [List.contains_eq_mem, decide_eq_true_eq]
  grind [eq_of_uniqueKey, moduleRoleSlug_injective, syncWant]

/-- The loop: the definitions that were done are in step. -/
structure SyncedUpTo (mod : String) (defs done : List ModuleRoleDef)
    (pre post : TenantData) : Prop where
  grown : Grown mod (fun s => ∃ df ∈ done, df.slug = s ∧ InStep mod pre df) pre post
  ledger : post.ledger = pre.ledger.change (Syncs mod done pre)
    (syncWant mod (· ∈ pre.mirror.catalogue) defs)

theorem SyncedUpTo.step {defs done rest : List ModuleRoleDef}
    (ne : UniqueKey ModuleRoleDef.slug defs)
    (whole : defs = done ++ df :: rest)
    (sofar : SyncedUpTo mod defs done init d)
    (synced : Synced mod init init.mirror.catalogue df d post) :
    SyncedUpTo mod defs (done ++ [df]) init post := by
  have mem : df ∈ defs := by simp [whole]
  refine ⟨(sofar.grown.trans synced.grown).congr fun s => ?_, ?_⟩
  · simp [or_and_right, exists_or]
  rw [synced.ledger]
  by_cases inStep : InStep mod init df
  · have fresh : ¬Syncs mod done init (moduleRoleSlug mod df.slug) := by
      rintro ⟨other, isDone, sameSlug, -⟩
      rw [UniqueKey, whole, List.map_append, List.nodup_append] at ne
      exact ne.2.2 _ (List.mem_map_of_mem isDone) _ List.mem_cons_self
        (moduleRoleSlug_injective sameSlug).symm
    have ks : Syncs mod (done ++ [df]) init = fun s => Syncs mod done init s
          ∨ s = moduleRoleSlug mod df.slug := by
      funext s
      simp [Syncs, or_and_right, exists_or, inStep]
    have want : (fun p => p ∈ wantedGrants mod init.mirror.catalogue df)
        = syncWant mod (· ∈ init.mirror.catalogue) defs (moduleRoleSlug mod df.slug) :=
      funext fun p => propext (syncWant_self ne mem).symm
    simp only [inStep, and_true]
    rw [ks, ← Ledger.change_assign fresh, ← sofar.ledger, ← want]
    rfl
  · rw [Ledger.change_none (by simp [inStep]), sofar.ledger]
    refine Ledger.change_congr fun s _ => Or.inl ?_
    simp [Syncs, or_and_right, exists_or, inStep]

theorem syncRoles_spec {defs : List ModuleRoleDef} (ne : UniqueKey ModuleRoleDef.slug defs) :
    Triple (Site.meets (· = init)) (syncRoles fs nid mod defs)
      (fun _ => Site.meets (SyncedUpTo mod defs defs init))
      (Site.meets fun _ => True) := by
  refine query_bind (fun _ _ => trivial) ?_
  rintro _ rfl
  refine query_bind (fun _ _ => trivial) ?_
  rintro listed rfl
  have loop := @Triple.each Site RegisterError ModuleRoleDef Unit (Site.meets fun _ => True)
    (syncRole fs nid mod listed listed.mirror.catalogue) defs
    (fun done => Site.meets (SyncedUpTo mod defs done listed))
    fun done df rest whole => Site.from fun now sofar =>
      (syncRole_spec sofar.grown.listed fun s copy =>
        (sofar.grown.copies s).mpr (Or.inl copy)).leave fun _ _ synced =>
          sofar.step ne whole synced
  refine Triple.returning (loop.enter fun site same => ?_)
  rw [Site.meets, show site.data = listed from same]
  exact ⟨Grown.refl.congr fun s => by simp, (Ledger.change_none (by simp [Syncs])).symm⟩

end Copies

/-! ### A visit -/

/-- What a registration of permissions alone makes of a tenant that it names. -/
structure Carried (mod : String) (refs : List Permission)
    (defs : List ModuleRoleDef) (pre post : TenantData) : Prop where
  steady : Steady pre post
  catalogue : ∀ p, p ∈ post.mirror.catalogue ↔ p ∈ pre.mirror.catalogue ∨ p ∈ refs
  marked : ¬Unmigrated mod post
  copies : ∀ s, HasCopy mod post s ↔ HasCopy mod pre s
    ∨ ∃ df ∈ defs, df.slug = s ∧ InStep mod pre df
  ledger : post.ledger = (pre.ledger.change (fun _ => Unmigrated mod pre)
      (migrationWant mod (fun p => p ∈ pre.mirror.catalogue ∨ p ∈ refs) pre.ledger)).change
      (Syncs mod defs pre)
      (syncWant mod (fun p => p ∈ pre.mirror.catalogue ∨ p ∈ refs) defs)

section Visit

variable {fs : CallFaults} {nid : Nat → RoleID} {init first second third : TenantData}
  {mod : String} {refs : List Permission} {defs : List ModuleRoleDef}
  {reg : Registration}

/-- The second visit finds everything in place. -/
theorem Carried.trans (ne : UniqueKey ModuleRoleDef.slug defs)
    (one : Carried mod refs defs first second)
    (two : Carried mod refs defs second third) :
    Carried mod refs defs first third := by
  have known : (fun p => p ∈ second.mirror.catalogue ∨ p ∈ refs)
      = fun p => p ∈ first.mirror.catalogue ∨ p ∈ refs := by
    funext p
    rw [one.catalogue, or_assoc, or_self]
  have inStep : ∀ df ∈ defs, (InStep mod second df ↔ InStep mod first df) := by
    intro df mem
    unfold InStep
    rw [one.copies]
    constructor
    · grind [eq_of_uniqueKey, InStep]
    · grind
  refine ⟨one.steady.trans two.steady, fun p => ?_, two.marked, fun s => ?_, ?_⟩
  · rw [two.catalogue, one.catalogue, or_assoc, or_self]
  · rw [two.copies, one.copies]
    grind
  · rw [two.ledger, known, Ledger.change_none fun _ => one.marked]
    refine (Ledger.change_self fun s p synced => ?_).trans one.ledger
    obtain ⟨df, mem, isSlug, later⟩ := synced
    have syncedFirst : Syncs mod defs first s :=
      ⟨df, mem, isSlug, (inStep df mem).mp later⟩
    rw [one.ledger, Ledger.change_rows_of syncedFirst]

/-- Definitions that a registration keeps in step: none when it is made for the module. -/
def Registration.inStep (reg : Registration) (defs : List ModuleRoleDef) : List ModuleRoleDef :=
  if reg.delegate = "" then defs else []

theorem Carried.of_migrated {recorded migrated : TenantData}
    (one : Recorded refs init recorded) (two : Migrated mod recorded migrated)
    (three : SyncedUpTo mod defs defs migrated third) :
    Carried mod refs defs init third := by
  have unmigrated : Unmigrated mod recorded ↔ Unmigrated mod init := by
    unfold Unmigrated TenantData.tenantModule
    rw [one.modules]
  have known : (· ∈ recorded.mirror.catalogue) = fun p => p ∈ init.mirror.catalogue ∨ p ∈ refs :=
    funext fun p => propext (one.catalogue p)
  have copies : ∀ s, HasCopy mod migrated s ↔ HasCopy mod init s := by
    intro s
    simp only [HasCopy, TenantData.isCopy, two.roles, two.roleInfo, one.roles, one.roleInfo]
  have inStep : InStep mod migrated = InStep mod init := by
    funext df
    simp only [InStep, copies]
  refine ⟨one.steady.trans (two.steady.trans three.grown.steady), fun p => ?_, ?_, fun s => ?_, ?_⟩
  · rw [three.grown.catalogue, two.catalogue, one.catalogue]
  · obtain ⟨row, isRow, isMarked⟩ := two.marked
    intro unmarked
    have unset := unmarked row (by
      unfold TenantData.tenantModule at isRow ⊢
      rw [three.grown.modules]
      exact isRow)
    rw [isMarked] at unset
    cases unset
  · rw [three.grown.copies, copies, inStep]
  · rw [three.ledger, two.ledger, two.catalogue, one.ledger, known]
    unfold Syncs
    rw [inStep]
    simp only [unmigrated]

theorem visit_carried (ne : UniqueKey ModuleRoleDef.slug defs)
    (noGrants : reg.grants = []) (undeclared : reg.declaresGrants = false) :
    Triple (Site.meets (· = init)) (visit fs nid reg defs)
      (fun _ => Site.meets (Carried reg.moduleName (refsOf reg.moduleName reg.permissions)
        (reg.inStep defs) init))
      (Site.meets fun _ => True) := by
  unfold visit
  refine Triple.bind registerPermissions_recorded fun _ => Site.from fun first recorded => ?_
  refine Triple.bind migrate_spec fun _ => Site.from fun second migrated => ?_
  unfold Registration.inStep
  refine Triple.ite (fun delegated => ?_) fun direct => ?_
  · rw [if_neg delegated]
    refine Triple.pure fun _ same => Carried.of_migrated recorded migrated ?_
    rw [same]
    exact ⟨Grown.refl.congr fun s => by simp, (Ledger.change_none (by simp [Syncs])).symm⟩
  · rw [if_pos (not_not.mp direct)]
    unfold visitRoles revokeDeclared
    rw [undeclared, noGrants]
    refine Triple.bind (syncRoles_spec ne) fun _ => ?_
    refine Triple.pure fun _ synced => ?_
    exact Carried.of_migrated recorded migrated synced

end Visit

/-! ### A registration -/

section Registration

variable {fs : CallFaults} {nid : Nat → RoleID} {reg : Registration}
  {w post : World} {res : RegisterResult}

/-- The catalogue's role definitions and the tenants are those of before. -/
def Unvisited (init now : World) : Prop :=
  now.tenants = init.tenants ∧ now.catalogue.roleDefs = init.catalogue.roleDefs

theorem catalogueCall_unvisited {α : Type} {stmt : Catalogue → α × Catalogue}
    (same : ∀ cat, (stmt cat).2.roleDefs = cat.roleDefs) :
    Triple (Unvisited w) (catalogueCall fs stmt) (fun val now => Unvisited w now ∧ ∃ cat,
        cat.roleDefs = w.catalogue.roleDefs ∧ val = (stmt cat).1)
      fun _ => True := by
  intro now unvisited
  unfold catalogueCall
  rcases fs now.calls with _ | count
  · exact ⟨⟨unvisited.1, (same _).trans unvisited.2⟩, now.catalogue, unvisited.2, rfl⟩
  · cases count <;> trivial

theorem distinct_roleDefsOf (cat : Catalogue) (mod : String) :
    UniqueKey ModuleRoleDef.slug (cat.roleDefsOf mod) := by
  have ks : UniqueKey ModuleRoleDef.key (cat.roleDefsOf mod) :=
    cat.defined.sublist (List.filter_sublist.map _)
  refine List.Nodup.of_map (fun s => (mod, s)) ?_
  rw [List.map_map]
  have same : (cat.roleDefsOf mod).map ((fun s => (mod, s)) ∘
      ModuleRoleDef.slug) = (cat.roleDefsOf mod).map ModuleRoleDef.key := by
    refine List.map_congr_left fun df mem => ?_
    have ofModule := (List.mem_filter.mp mem).2
    rw [Function.comp_apply, ModuleRoleDef.key, beq_iff_eq.mp ofModule]
  rw [same]
  exact ks

/-- A registration of permissions alone carries every tenant that it names. -/
theorem register_carried (noRoles : reg.roles = [])
    (undeclaredRoles : reg.declaresRoles = false) (noGrants : reg.grants = [])
    (undeclaredGrants : reg.declaresGrants = false) :
    Triple (· = w) (register fs nid reg) (fun _ post => ∀ tid,
        (tid ∈ reg.tenants → Carried reg.moduleName (refsOf reg.moduleName reg.permissions)
          (reg.inStep (w.catalogue.roleDefsOf reg.moduleName))
          (w.tenants tid) (post.tenants tid))
        ∧ (tid ∉ reg.tenants → post.tenants tid = w.tenants tid))
      fun _ => True := by
  unfold register Registration.validate
  by_cases valid : reg.wellFormed = true
  case neg =>
    rw [if_neg valid]
    exact Triple.fail fun _ _ => trivial
  rw [if_pos valid, noRoles]
  refine Triple.ite (fun _ => ?_) fun _ => Triple.fail fun _ _ => trivial
  refine Triple.weaken ?_ (fun now (same : now = w) => (⟨same ▸ rfl, same ▸ rfl⟩ :
    Unvisited w now)) (fun _ _ met => met) fun _ met => met
  have dropped : ∀ {α : Type} {task : Task World RegisterError α} {val : α → Prop},
      Triple (Unvisited w) task (fun res now => Unvisited w now ∧ val res) (fun _ => True) →
      Triple (Unvisited w) task (fun _ => Unvisited w) fun _ => True :=
    fun triple => triple.leave fun _ _ met => met.1
  refine Triple.bind (dropped (catalogueCall_unvisited fun _ => rfl)) fun _ => ?_
  refine Triple.bind (Triple.each_invariant fun _ _ =>
    dropped (catalogueCall_unvisited fun _ => rfl)) fun _ => ?_
  have undefined : Triple (Unvisited w) (registerRoleDefs fs reg [])
      (fun _ => Unvisited w) fun _ => True := by
    unfold registerRoleDefs retireUndeclared
    rw [undeclaredRoles]
    exact Triple.ite (fun _ => Triple.pure fun _ met => met) fun _ => Triple.pure fun _ met => met
  refine Triple.bind undefined fun _ => ?_
  refine Triple.bind (catalogueCall_unvisited fun _ => rfl) fun defs => ?_
  refine Triple.from fun now read => ?_
  obtain ⟨unvisited, cat, sameDefs, isRead⟩ := read
  have isDefs : defs = w.catalogue.roleDefsOf reg.moduleName := by
    rw [isRead]
    simp only [Catalogue.roleDefsOf, sameDefs]
  have ne := distinct_roleDefsOf w.catalogue reg.moduleName
  have distinctInStep : UniqueKey ModuleRoleDef.slug (reg.inStep defs) := by
    unfold Registration.inStep
    split
    · exact isDefs ▸ ne
    · exact List.nodup_nil
  have visits := @eachTenant_spec now Visit (visit fs nid reg defs) reg.tenants _
    (fun _ => visit_carried (isDefs ▸ ne) noGrants undeclaredGrants)
    (Carried.trans distinctInStep)
  refine Triple.bind visits fun _ => Triple.pure fun post carried => ?_
  rw [unvisited.1, isDefs] at carried
  exact carried

end Registration

/-! ### Decisions that stay allowed -/

/-- The permissions a tenant knows once the registration was made. -/
def Registration.catalogueAfter (reg : Registration) (d : TenantData) : List Permission :=
  d.mirror.catalogue ++ refsOf reg.moduleName reg.permissions

/-- The migration is still to come, and gives the slug the permission for the legacy one that
its role lists. -/
def Migrates (reg : Registration) (d : TenantData) (s : Slug) (p : Permission) : Prop :=
  Unmigrated reg.moduleName d ∧ p.moduleName = reg.moduleName
    ∧ p ∈ reg.catalogueAfter d ∧ d.ledger.rows s p.legacy

/-- What the slug is granted once the registration was made, by the rows and grants of before:
a copy that is kept in step gets what its definition says, any other slug keeps its grants and
gets those of the migration. -/
def GrantedAfter (reg : Registration) (defs : List ModuleRoleDef)
    (d : TenantData) (s : Slug) (p : Permission) : Prop :=
  let inStep := reg.inStep defs
  let wanted := syncWant reg.moduleName (· ∈ reg.catalogueAfter d) inStep s p
  let row := d.ledger.rows s p
  let fact := d.ledger.facts s p
  (¬Syncs reg.moduleName inStep d s ∧ (fact ∨ (Migrates reg d s p ∧ ¬row)))
    ∨ (Syncs reg.moduleName inStep d s ∧ wanted ∧ (row → fact))
    ∨ (Syncs reg.moduleName inStep d s ∧ ¬wanted ∧ ¬row ∧ ¬Migrates reg d s p ∧ fact)

section Decisions

variable {fs : CallFaults} {nid : Nat → RoleID} {reg : Registration}
  {defs : List ModuleRoleDef} {w post : World} {res : RegisterResult}
  {init d : TenantData} {tid : TenantID} {uid : UserID} {s : Slug}
  {p obj : Permission} {lookup afterLookup : Lookup}

/-- The grants between the migration and the synchronisation. -/
theorem migrated_ledger : ((init.ledger.change (fun _ => Unmigrated reg.moduleName init)
        (migrationWant reg.moduleName (· ∈ reg.catalogueAfter init) init.ledger)).rows s p ↔
      init.ledger.rows s p ∨ Migrates reg init s p)
    ∧ ((init.ledger.change (fun _ => Unmigrated reg.moduleName init)
        (migrationWant reg.moduleName (· ∈ reg.catalogueAfter init) init.ledger)).facts s p ↔
      init.ledger.facts s p ∨ (Migrates reg init s p ∧ ¬init.ledger.rows s p)) := by
  by_cases unmigrated : Unmigrated reg.moduleName init
  · have want : migrationWant reg.moduleName (· ∈ reg.catalogueAfter init)
          init.ledger s p ↔
        init.ledger.rows s p ∨ Migrates reg init s p := by
      simp only [migrationWant, Migrates, unmigrated, true_and]
    have rs := @Ledger.change_rows_of _ _ init.ledger (fun _ => Unmigrated reg.moduleName init)
      (migrationWant reg.moduleName (· ∈ reg.catalogueAfter init) init.ledger)
      s p unmigrated
    have facts := @Ledger.change_facts_of _ _ init.ledger (fun _ => Unmigrated reg.moduleName init)
      (migrationWant reg.moduleName (· ∈ reg.catalogueAfter init) init.ledger)
      s p unmigrated
    rw [rs, facts, want, Ledger.settled_cases]
    exact ⟨Iff.rfl, by tauto⟩
  · have nothing : ¬Migrates reg init s p := fun migrates =>
      unmigrated migrates.1
    rw [Ledger.change_none fun _ => unmigrated]
    simp only [nothing, or_false, false_and, and_self]

theorem Carried.facts (carried : Carried reg.moduleName (refsOf reg.moduleName reg.permissions)
      (reg.inStep defs) init d) :
    d.ledger.facts s p ↔ GrantedAfter reg defs init s p := by
  have known : (fun p => p ∈ init.mirror.catalogue ∨ p ∈ refsOf reg.moduleName reg.permissions)
      = (· ∈ reg.catalogueAfter init) :=
    funext fun p => propext List.mem_append.symm
  rw [carried.ledger, known]
  unfold GrantedAfter
  by_cases synced : Syncs reg.moduleName (reg.inStep defs) init s
  · rw [Ledger.change_facts_of synced, Ledger.settled_cases, migrated_ledger.1, migrated_ledger.2]
    grind
  · rw [Ledger.change_facts_of_not synced, migrated_ledger.2]
    simp only [synced, not_false_eq_true, false_and, true_and, or_false]

theorem resolve_congr {known also : List Permission}
    (same : ∀ other, other ∈ known ↔ other ∈ also) :
    resolve known p = resolve also p := by
  simp only [resolve, same]

theorem Carried.decides_iff (carried : Carried reg.moduleName
      (refsOf reg.moduleName reg.permissions)
      (reg.inStep defs) init d)
    (accurate : lookup.Accurate d.tuples) :
    d.decides lookup uid p = true ↔ init.Active uid ∧ ∃ obj s,
        resolve (reg.catalogueAfter init) p = some obj
        ∧ Assignee init.tuples uid s
        ∧ GrantedAfter reg defs init s obj := by
  have known : ∀ other, other ∈ d.mirror.catalogue ↔
      other ∈ reg.catalogueAfter init := fun other =>
    (carried.catalogue other).trans List.mem_append.symm
  rw [TenantData.decides_iff accurate, carried.steady.active, resolve_congr known]
  simp only [granted_iff_facts, carried.facts, carried.steady.assignee]
  grind

/-- What was allowed stays allowed when, and only when, some role of the user is granted the
permission object that decides afterwards. -/
theorem registration_keeps_allowed_iff (noRoles : reg.roles = [])
    (undeclaredRoles : reg.declaresRoles = false) (noGrants : reg.grants = [])
    (undeclaredGrants : reg.declaresGrants = false)
    (ran : register fs nid reg w = (.ok res, post))
    (accurate : lookup.Accurate (w.tenants tid).tuples)
    (afterAccurate : afterLookup.Accurate (post.tenants tid).tuples)
    (allowed : (w.tenants tid).decides lookup uid p = true) :
    (post.tenants tid).decides afterLookup uid p = true ↔ tid ∉ reg.tenants ∨ ∃ obj s,
        resolve (reg.catalogueAfter (w.tenants tid)) p = some obj
        ∧ Assignee (w.tenants tid).tuples uid s
        ∧ GrantedAfter reg (w.catalogue.roleDefsOf reg.moduleName) (w.tenants tid) s obj := by
  have spec := (register_carried noRoles undeclaredRoles noGrants undeclaredGrants).ended rfl ran
  by_cases named : tid ∈ reg.tenants
  · rw [((spec tid).1 named).decides_iff afterAccurate]
    have active := ((TenantData.decides_iff accurate).mp allowed).1
    simp only [active, true_and, named, not_true_eq_false, false_or]
  · have same := (spec tid).2 named
    refine ⟨fun _ => Or.inl named, fun _ => ?_⟩
    rw [TenantData.decides_iff afterAccurate, same, ← TenantData.decides_iff accurate]
    exact allowed

end Decisions

/-! A tenant whose members may read documents by a legacy grant, and a module that registers
the permission. -/

def legacyTenant (migrated : Bool) : TenantData :=
  TenantData.withMember 7 [⟨"", "docs", "read"⟩] [⟨"", "docs", "read"⟩] [⟨"files", migrated⟩]

def legacyWorld (migrated : Bool) : World where
  catalogue := ⟨[], [], [], Catalogue.defined_nil⟩
  tenants := fun _ => legacyTenant migrated
  calls := 0

def docsRegistration : Registration where
  moduleName := "files"
  displayName := "Files"
  registrant := "files"
  delegate := ""
  permissions := [⟨"docs", "read", "Read documents"⟩]
  roles := []
  declaresRoles := false
  grants := []
  declaresGrants := false
  tenants := [1]

def docsRegistered (migrated : Bool) : Except RegisterError RegisterResult × World :=
  register (fun _ => none) id docsRegistration (legacyWorld migrated)

def docsResult : RegisterResult where
  registered := 1
  skipped := []
  roleErrors := []
  rolesUpserted := 0
  rolesRetired := []
  grantsRevoked := 0

/-- The module was migrated before it registered the permission: the legacy grant no longer
decides, and nobody is granted the permission that does. -/
theorem late_registration_denies : (docsRegistered true).1 = .ok docsResult
      ∧ ((legacyWorld true).tenants 1).decides (fun _ _ => none) 7 ⟨"files", "docs", "read"⟩ = true
      ∧ ((docsRegistered true).2.tenants 1).decides (fun _ _ => none) 7 ⟨"files", "docs", "read"⟩
        = false := by
  refine ⟨?_, ?_, ?_⟩ <;> decide +kernel

/-- The role lists the legacy permission and not the module's. -/
theorem legacyTenant_migrates :
    GrantedAfter docsRegistration [] (legacyTenant false) "member" ⟨"files", "docs", "read"⟩ := by
  refine Or.inl ⟨?_, Or.inr ⟨⟨?_, rfl, by decide, ⟨1, "member", .builtin, false⟩, by decide, rfl,
    by decide⟩, ?_⟩⟩
  · rintro ⟨df, impossible, -⟩
    cases impossible
  · intro row isRow
    cases isRow
    rfl
  · rintro ⟨r, -, -, listed⟩
    simp [legacyTenant, TenantData.withMember] at listed

theorem first_registration_keeps_allowed : (docsRegistered false).1 = .ok docsResult
      ∧ ((docsRegistered false).2.tenants 1).decides (fun _ _ => none) 7 ⟨"files", "docs", "read"⟩
        = true := by
  have ended : (docsRegistered false).1 = .ok docsResult := by decide +kernel
  have ran : docsRegistered false = (.ok docsResult, (docsRegistered false).2) := by
    rw [← ended, Prod.mk.eta]
  have kept := @registration_keeps_allowed_iff (fun _ => none) id docsRegistration
    (legacyWorld false) (docsRegistered false).2 docsResult 1 7 ⟨"files", "docs", "read"⟩
    (fun _ _ => none) (fun _ _ => none) rfl rfl rfl rfl ran
    (fun _ _ _ impossible => by cases impossible) (fun _ _ _ impossible => by cases impossible)
    (by decide +kernel)
  exact ⟨ended, kept.mpr (Or.inr ⟨⟨"files", "docs", "read"⟩, "member", by decide, by decide,
    legacyTenant_migrates⟩)⟩

end TangraAuth.Authz

import TangraAuth.Authz.Grants

/-!
Contract: a registration's visit of a tenant, as a walk over its statements.

Owns: why a registration sets the grants of a role, what a relation of tenants has
to allow of single statements, and that every part of a visit then stays within the
relation however far it gets.

Does not own: the relations, and what a visit that ends has done.
-/

namespace TangraAuth.Authz

open Library Store Accounts

/-! ### Roles of a module -/

/-- The tenant's copy of one of the module's roles. -/
def IsCopyOf (mod : String) (d : TenantData) (r : Role) : Prop :=
  r.origin = .ofModule ∧ (d.roleInfo r.id).moduleName = mod

/-- A row of this id and slug that is a copy of one of the module's roles. -/
def ListedCopy (mod : String) (d : TenantData) (r : Role) : Prop :=
  ∃ row ∈ d.mirror.roles, row.id = r.id ∧ row.slug = r.slug ∧ IsCopyOf mod d row

/-- A permission of this module. -/
def OwnedBy (mod : String) (p : Permission) : Prop :=
  p.isLegacy = false ∧ p.moduleName = mod

/-- A row of `d` is the row that `r` was in `pre`; it may have been renamed or
retired. -/
structure KeptAs (pre : TenantData) (r : Role) (d : TenantData) (row : Role) : Prop where
  member : row ∈ d.mirror.roles
  id : row.id = r.id
  slug : row.slug = r.slug
  origin : row.origin = r.origin
  moduleName : (d.roleInfo row.id).moduleName = (pre.roleInfo r.id).moduleName

section Roles

variable {mod : String} {pre d post : TenantData} {r row : Role} {s : Slug}
  {p : Permission}

theorem mirror_eq_of_slug {m : Mirror} {left right : Role} (leftMem : left ∈ m.roles)
    (rightMem : right ∈ m.roles) (same : left.slug = right.slug) : left = right :=
  eq_of_uniqueKey m.integrity.slugs leftMem rightMem same

theorem KeptAs.listed (kept : KeptAs pre r d row) : Listed d r :=
  ⟨row, kept.member, kept.id, kept.slug⟩

theorem KeptAs.listedCopy (kept : KeptAs pre r d row)
    (copy : IsCopyOf mod pre r) : ListedCopy mod d r :=
  ⟨row, kept.member, kept.id, kept.slug, kept.origin.trans copy.1, kept.moduleName.trans copy.2⟩

theorem ListedCopy.listed (copy : ListedCopy mod d r) : Listed d r := by
  obtain ⟨row, mem, sameID, sameSlug, -⟩ := copy
  exact ⟨row, mem, sameID, sameSlug⟩

theorem ListedCopy.ofModule (listed : ListedCopy mod d r) : (d.roleInfo r.id).moduleName = mod := by
  obtain ⟨row, -, sameID, -, copy⟩ := listed
  exact sameID ▸ copy.2

theorem TenantData.moduleRole_eq_some {s : String} (found : d.moduleRole mod s = some r) :
    r ∈ d.mirror.roles ∧ IsCopyOf mod d r ∧ (d.roleInfo r.id).moduleSlug = s := by
  have sel := List.find?_some found
  simp only [TenantData.isCopy, Bool.and_eq_true, beq_iff_eq] at sel
  exact ⟨List.mem_of_find?_eq_some found, ⟨sel.1.1, sel.1.2⟩, sel.2⟩

theorem listedCopy_of_moduleRole {s : String}
    (found : d.moduleRole mod s = some r) : ListedCopy mod d r := by
  obtain ⟨mem, copy, -⟩ := TenantData.moduleRole_eq_some found
  exact ⟨r, mem, rfl, rfl, copy⟩

theorem listedCopy_of_insertRole {id : RoleID} {retired : Bool}
    {dn desc moduleSlug : String}
    (inserted : d.insertRole ⟨id, s, .ofModule, retired⟩ ⟨dn, desc, mod, moduleSlug⟩ = some post) :
    ListedCopy mod post ⟨id, s, .ofModule, retired⟩ := by
  obtain ⟨fresh, named, rfl⟩ := TenantData.insertRole_eq_some inserted
  refine ⟨_, List.mem_append_right _ List.mem_cons_self, rfl, rfl, rfl, ?_⟩
  simp

theorem builtinRole_eq_some (found : builtinRole d s = some r) :
    r ∈ d.mirror.roles ∧ r.slug = s ∧ r.origin = .builtin := by
  have sel := List.find?_some found
  simp only [Bool.and_eq_true, beq_iff_eq] at sel
  exact ⟨List.mem_of_find?_eq_some found, sel⟩

/-- What is kept of a built-in role is the role, as far as its grants go. -/
theorem KeptAs.builtin (kept : KeptAs pre r d row) (builtin : r.origin = .builtin) :
    ∀ other ∈ d.mirror.roles, other.slug = r.slug → other.origin ≠ .ofModule := by
  intro other mem sameSlug ofModule
  rw [mirror_eq_of_slug mem kept.member (sameSlug.trans kept.slug.symm), kept.origin,
    builtin] at ofModule
  cases ofModule

theorem ownedBy_of_mem_wantedGrants {known : List Permission} {df : ModuleRoleDef}
    (mem : p ∈ wantedGrants mod known df) :
    OwnedBy mod p := by
  obtain ⟨text, -, qualified⟩ := List.mem_filterMap.mp (List.mem_of_mem_filter mem)
  obtain ⟨valid, ofModule, -⟩ := qualify_eq_some.mp qualified
  refine ⟨?_, ofModule⟩
  have named := validModule_ne_empty valid
  grind [Permission.isLegacy]

end Roles

/-! ### A new copy -/

section Copy

variable {fs : CallFaults}

/-- The copy is inserted, or one that is there already is used. -/
theorem createCopy_rule {mod : String} {df : ModuleRoleDef} {nid : Nat → RoleID}
    {pre named stopped : TenantData → Prop} {made : Role → TenantData → Prop}
    (entered : ∀ d, pre d → stopped d)
    (written : Triple (Site.meets pre)
      (writeTuples fs [.roleTenant (moduleRoleSlug mod df.slug)] [])
      (fun _ => Site.meets named) (Site.meets stopped))
    (kept : ∀ d, named d → stopped d)
    (inserted : ∀ id d post, named d →
      d.insertRole ⟨id, moduleRoleSlug mod df.slug, .ofModule, false⟩
        ⟨df.displayName, df.description, mod, df.slug⟩
        = some post →
      made ⟨id, moduleRoleSlug mod df.slug, .ofModule, false⟩ post ∧ stopped post)
    (found : ∀ d r, named d → d.moduleRole mod df.slug = some r → made r d) :
    Triple (Site.meets pre) (createCopy fs nid mod df)
      (fun r => Site.meets (made r)) (Site.meets stopped) := by
  unfold createCopy
  refine Triple.ite (fun _ => ?_) fun _ => Triple.fail fun site met => entered site.data met
  have read : Triple (Site.meets pre) (Task.read fun site => nid site.calls : Work RoleID)
      (fun _ => Site.meets pre) (Site.meets stopped) := Triple.read fun _ met => met
  refine Triple.bind read fun id => Triple.bind written fun _ => ?_
  refine Triple.bind (?_ : Triple (Site.meets named) _
      (fun done => Site.meets fun d => if done
        then made ⟨id, moduleRoleSlug mod df.slug, .ofModule, false⟩ d
        else named d)
      (Site.meets stopped)) fun done => ?_
  · refine call_spec (fun d val next met out => ?_) kept
    split at out
    case h_1 post isAfter =>
      cases out
      exact inserted id d _ met isAfter
    case h_2 =>
      cases out
      exact ⟨met, kept d met⟩
  cases done with
  | true => exact Triple.pure fun _ met => met
  | false =>
    refine query_bind kept fun d met => ?_
    split
    case h_1 other isOther =>
      refine Triple.pure fun site same => ?_
      rw [Site.meets, same]
      exact found d other met isOther
    case h_2 =>
      refine Triple.fail fun site same => ?_
      rw [Site.meets, same]
      exact kept d met

end Copy

/-! ### What a relation has to allow -/

/-- Why a registration of the module gives a role the grants `want`. -/
inductive Reason (mod : String) (d : TenantData) (r : Role)
    (want : Permission → Prop) : Prop where
  /-- A copy gets permissions of the module. -/
  | copy (listed : ListedCopy mod d r)
      (own : ∀ p, want p → OwnedBy mod p)
  /-- Beside its grants a role gets what its legacy grants became in the module. -/
  | migrated (listed : Listed d r)
      (keeps : ∀ p, d.ledger.rows r.slug p → want p)
      (becomes : ∀ p, want p → d.ledger.rows r.slug p ∨ (p.moduleName = mod
          ∧ ∃ grant, d.ledger.rows r.slug grant ∧ grant.isLegacy = true))
  /-- A built-in role loses permissions of the module. -/
  | revoked (listed : Listed d r)
      (builtin : ∀ row ∈ d.mirror.roles, row.slug = r.slug → row.origin ≠ .ofModule)
      (keeps : ∀ p, p.moduleName ≠ mod → d.ledger.rows r.slug p → want p)
      (fewer : ∀ p, want p → d.ledger.rows r.slug p)

/-- A relation that allows each statement of a registration. -/
structure Walks (mod : String) (defs : List ModuleRoleDef)
    (rel : TenantData → TenantData → Prop) : Prop where
  trans : ∀ {pre d post}, rel pre d → rel d post → rel pre post
  still : ∀ {pre d}, rel pre d → rel d d
  kept : ∀ {pre d}, rel pre d → ∀ r ∈ pre.mirror.roles, ∃ row, KeptAs pre r d row
  permission : ∀ {d p info}, rel d d → p.moduleName = mod → rel d (d.upsertPermission p info)
  modules : ∀ {d modules}, rel d d → rel d { d with modules := modules }
  tuples : ∀ {d tuples ver}, rel d d →
    (∀ t, (∀ s, t ≠ .roleTenant s) → (t ∈ tuples ↔ t ∈ d.tuples)) →
    rel d { d with tuples := tuples, version := ver }
  grants : ∀ {d post r want}, rel d d → Reason mod d r want →
    PartlyAssigned d r want post → rel d post
  insert : ∀ {d post id df}, rel d d → df ∈ defs → df.retired = false →
    d.insertRole ⟨id, moduleRoleSlug mod df.slug, .ofModule, false⟩
      ⟨df.displayName, df.description, mod, df.slug⟩ = some post →
    rel d post
  update : ∀ {d post r df}, rel d d → df ∈ defs →
    ListedCopy mod d r → r.slug = moduleRoleSlug mod df.slug →
    d.updateModuleRole r.id df.displayName df.description df.retired = some post → rel d post

/-- Work that stays within the relation from `pre` on, however far it gets. -/
abbrev Stays (rel : TenantData → TenantData → Prop) (pre : TenantData) {α : Type}
    (work : Work α) : Prop :=
  Triple (Site.meets (rel pre)) work (fun _ => Site.meets (rel pre)) (Site.meets (rel pre))

namespace Stays

variable {rel : TenantData → TenantData → Prop} {pre : TenantData} {α β : Type}

theorem pure {val : α} : Stays rel pre (Pure.pure val : Work α) :=
  Triple.pure fun _ met => met

theorem fail {error : RegisterError} : Stays rel pre (Task.fail error : Work α) :=
  Triple.fail fun _ met => met

end Stays

namespace Walks

variable {mod : String} {defs : List ModuleRoleDef}
  {rel : TenantData → TenantData → Prop} (walks : Walks mod defs rel)
  {fs : CallFaults} {nid : Nat → RoleID} {pre d : TenantData} {r : Role}
  {known : List Permission} {df : ModuleRoleDef} {α β : Type}

include walks

theorem exact {work : Work α} (step : ∀ d, rel pre d →
      Triple (Site.meets (· = d)) work (fun _ => Site.meets (rel d))
        (Site.meets (rel d))) : Stays rel pre work := by
  refine Site.from fun d met => ?_
  exact (step d met).weaken (fun _ same => same) (fun _ _ post => walks.trans met post)
    fun _ post => walks.trans met post

theorem query_bind {v : TenantData → α} {next : α → Work β}
    (rest : ∀ d, rel pre d → Stays rel d (next (v d))) :
    Stays rel pre (query fs v >>= next) := by
  refine Authz.query_bind (fun _ met => met) fun d met => ?_
  refine (rest d met).weaken ?_ (fun _ _ post => walks.trans met post) fun _ post =>
    walks.trans met post
  rintro site rfl
  exact walks.still met

theorem performs {stmt : TenantData → TenantData} (step : ∀ d, rel d d → rel d (stmt d)) :
    Stays rel pre (perform fs stmt) := by
  refine perform_spec (fun d met => ?_) fun _ met => met
  have post := walks.trans met (step d (walks.still met))
  exact ⟨post, post⟩

theorem executes {stmt : TenantData → Option TenantData}
    (step : ∀ d next, rel pre d → stmt d = some next → rel d next) :
    Stays rel pre (executeChecked fs stmt) := by
  refine executeChecked_spec (fun d next met done => ?_) fun _ met => met
  have post := walks.trans met (step d next met done)
  exact ⟨post, post⟩

theorem writesUnread : Stays rel pre (writeUnread fs) :=
  writeUnread_spec
    (fun _ met => walks.trans met (walks.tuples (walks.still met) fun _ _ => Iff.rfl))
    fun _ met => met

/-- A write of nothing but role objects. -/
theorem writesRoleTenant {s : Slug} : Stays rel pre (writeTuples fs [.roleTenant s] []) := by
  refine writeTuples_spec
    (fun d met => walks.trans met (walks.tuples (walks.still met) fun t other => ?_))
    fun d ts met bounds =>
      walks.trans met (walks.tuples (walks.still met) fun t other => ?_)
  · rw [mem_write]
    simp [other s]
  · refine ⟨fun written => ((bounds t).1 written).resolve_right ?_,
      fun stored => (bounds t).2 stored List.not_mem_nil⟩
    simp [other s]

/-! ### Grants -/

theorem setsGrants (sound : rel d d) {wanted : List Permission}
    (listed : Listed d r) (why : Reason mod d r (· ∈ wanted)) :
    Triple (Site.meets (· = d)) (setGrants fs r wanted)
      (fun _ => Site.meets (rel d)) (Site.meets (rel d)) :=
  (setGrants_listed listed).weaken (fun _ same => same)
    (fun _ _ assigned => walks.grants sound why assigned.partly)
    fun _ partly => walks.grants sound why partly

/-! ### Permissions and migration -/

theorem upsertsPermissions {registrant : String} {perms : List PermissionDef}
    {known : Permission → Option String} :
    Stays rel pre (upsertPermissions fs mod registrant known perms) := by
  induction perms generalizing known with
  | nil => exact Stays.pure
  | cons p rest ih =>
    unfold upsertPermissions
    refine Triple.ite (fun _ => ih) fun _ => ?_
    exact Triple.bind (walks.performs fun d sound => walks.permission sound rfl) fun _ => ih

theorem registersPermissions {registrant : String} {perms : List PermissionDef} :
    Stays rel pre (registerPermissions fs mod registrant perms) := by
  unfold registerPermissions
  refine Triple.ite (fun _ => walks.query_bind fun d _ => ?_) fun _ => Stays.fail
  have announced : Stays rel d (writeNew fs mod (knownDescriptions d) perms) :=
    Triple.ite (fun _ => walks.writesUnread) fun _ => Stays.pure
  exact Triple.bind announced fun _ => Triple.bind walks.upsertsPermissions fun _ => Stays.pure

theorem migratesRole (mem : r ∈ pre.mirror.roles) : Stays rel pre (migrateRole fs mod known r) := by
  refine walks.exact fun d met => ?_
  obtain ⟨row, kept⟩ := walks.kept met r mem
  have sound := walks.still met
  have unchanged : ∀ other, other = d → rel d other := by
    rintro other rfl
    exact sound
  refine Authz.query_bind unchanged fun read same => ?_
  subst same
  refine Triple.ite (fun _ => Triple.pure fun site same => unchanged site.data same) fun _ => ?_
  have why : Reason mod read r fun p =>
      read.ledger.rows r.slug p ∨ p ∈ migrated mod known (read.mirror.rolePermissions r.id) := by
    refine .migrated kept.listed (fun _ => Or.inl) fun p wanted => ?_
    refine wanted.imp id fun isNew => ?_
    obtain ⟨grant, sel, rfl⟩ := List.mem_map.mp isNew
    obtain ⟨listed, legacy⟩ := List.mem_filter.mp sel
    exact ⟨rfl, grant, kept.listed.rows.mpr listed, (Bool.and_eq_true_iff.mp legacy).1⟩
  refine Triple.returning ((addGrants_listed kept.listed).weaken (fun _ same => same)
    (fun _ _ assigned => walks.grants sound why assigned.partly)
    fun _ partly => walks.grants sound why partly)

theorem migrates : Stays rel pre (migrate fs mod) := by
  refine Triple.bind (walks.performs fun d sound => walks.modules sound) fun _ =>
    walks.query_bind fun read _ => ?_
  split
  case h_1 => exact Stays.fail
  case h_2 row _ =>
    refine Triple.ite (fun _ => Stays.pure) fun _ => walks.query_bind fun _ _ =>
      walks.query_bind fun listed _ => ?_
    refine Triple.bind (Triple.each_invariant fun r mem => walks.migratesRole mem)
      fun _ => walks.executes fun d next met marked => ?_
    unfold TenantData.markLegacyMigrated at marked
    split at marked
    · cases marked
      exact walks.modules (walks.still met)
    · cases marked

/-! ### Role copies -/

theorem listedCopy (met : rel pre d) (listed : ListedCopy mod pre r) : ListedCopy mod d r := by
  obtain ⟨row, mem, sameID, sameSlug, copy⟩ := listed
  obtain ⟨last, kept⟩ := walks.kept met row mem
  obtain ⟨found, foundMem, foundID, foundSlug, isCopy⟩ := kept.listedCopy copy
  exact ⟨found, foundMem, foundID.trans sameID, foundSlug.trans sameSlug, isCopy⟩

theorem setsCopy (listed : ListedCopy mod pre r) : Stays rel pre
      (setGrants fs r (wantedGrants mod known df)) := by
  refine walks.exact fun d met => ?_
  have copy := walks.listedCopy met listed
  exact walks.setsGrants (walks.still met) copy.listed
    (.copy copy fun _ wanted => ownedBy_of_mem_wantedGrants wanted)

theorem createsCopy (mem : df ∈ defs) (current : df.retired = false) :
    Triple (Site.meets (rel pre)) (createCopy fs nid mod df)
      (fun r => Site.meets fun d => rel pre d ∧ ListedCopy mod d r)
      (Site.meets (rel pre)) := by
  refine createCopy_rule (fun _ met => met) walks.writesRoleTenant (fun _ met => met)
    (fun id d post met inserted => ?_) fun d r met found =>
      ⟨met, listedCopy_of_moduleRole found⟩
  have step := walks.trans met (walks.insert (walks.still met) mem current inserted)
  exact ⟨⟨step, listedCopy_of_insertRole inserted⟩, step⟩

theorem updatesCopy {listed : TenantData} (mem : df ∈ defs) (isListed : ListedCopy mod pre r)
    (isSlug : r.slug = moduleRoleSlug mod df.slug) :
    Stays rel pre (updateCopy fs listed df r) := by
  refine Triple.ite (fun _ => walks.executes fun d next met updated => ?_) fun _ => Stays.pure
  exact walks.update (walks.still met) mem (walks.listedCopy met isListed) isSlug updated

theorem syncsRole {listed : TenantData} (mem : df ∈ defs) (since : rel listed pre) :
    Stays rel pre (syncRole fs nid mod listed known df) := by
  unfold syncRole
  split
  case h_1 r found =>
    have isListed := walks.listedCopy since (listedCopy_of_moduleRole found)
    obtain ⟨roleMem, copy, ofSlug⟩ := TenantData.moduleRole_eq_some found
    have isSlug : r.slug = moduleRoleSlug mod df.slug := by
      rw [listed.copies r roleMem copy.1, copy.2, ofSlug]
    exact Triple.bind (walks.updatesCopy mem isListed isSlug) fun _ =>
      Triple.bind (walks.setsCopy isListed) fun _ => Stays.pure
  case h_2 =>
    refine Triple.ite (fun _ => Stays.pure) fun isCurrent =>
      Triple.bind (walks.createsCopy mem (by simpa using isCurrent)) fun r => ?_
    refine Triple.bind (Triple.from fun site made => ?_) fun _ => Stays.pure
    refine (walks.setsCopy made.2).weaken (fun _ same => ?_)
      (fun _ _ post => walks.trans made.1 post) fun _ post => walks.trans made.1 post
    rw [same]
    exact walks.still made.1

theorem syncsRoles : Stays rel pre (syncRoles fs nid mod defs) := by
  refine walks.query_bind fun listed _ => walks.query_bind fun d since => ?_
  exact Triple.bind (Triple.each_invariant fun _ mem => walks.syncsRole mem since)
    fun _ => Stays.pure

/-! ### Built-in grants -/

theorem revokesRole {grants : List BuiltinGrant} (mem : r ∈ pre.mirror.roles)
    (builtin : r.origin = .builtin) :
    Stays rel pre (revokeRole fs mod grants r) := by
  refine walks.exact fun d met => ?_
  obtain ⟨row, kept⟩ := walks.kept met r mem
  have sound := walks.still met
  have unchanged : ∀ other, other = d → rel d other := by
    rintro other rfl
    exact sound
  refine Authz.query_bind unchanged fun read same => ?_
  subst same
  refine Triple.ite (fun _ => Triple.pure fun site same => unchanged site.data same) fun _ => ?_
  refine Triple.returning (walks.setsGrants sound kept.listed
    (.revoked kept.listed (kept.builtin builtin) (fun p foreign row => ?_) fun p wanted => ?_))
  · refine List.mem_filter.mpr ⟨kept.listed.rows.mp row, ?_⟩
    simp [keeps, foreign]
  · exact kept.listed.rows.mpr (List.mem_of_mem_filter wanted)

theorem revokesDeclared {reg : Registration} (isModule : reg.moduleName = mod) :
    Stays rel pre (revokeDeclared fs reg) := by
  subst isModule
  refine Triple.ite (fun _ => ?_) fun _ => Stays.pure
  refine Triple.ite (fun _ => walks.query_bind fun d _ => ?_) fun _ => Stays.fail
  refine Triple.bind (Triple.each_invariant fun r listed => ?_) fun _ => Stays.pure
  obtain ⟨mem, builtin⟩ := List.mem_filter.mp listed
  exact walks.revokesRole mem (by simpa using builtin)

end Walks

end TangraAuth.Authz

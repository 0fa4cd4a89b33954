import TangraAuth.Authz.Capture

/-!
Contract: what holds of the roles of a tenant however far a registration gets.

Owns: that module roles list permissions of their own module only, that no role
is removed, that every new or changed row follows a definition, and the rule that
each call of a registration keeps to this.

Does not own: which permissions of its module a role lists.
-/

namespace TangraAuth.Authz

open Library Store Accounts

/-- Every module role lists only permissions of its module. -/
def Tidy (d : TenantData) : Prop :=
  ∀ r ∈ d.mirror.roles, r.origin = .ofModule → ∀ p, d.ledger.rows r.slug p →
      OwnedBy (d.roleInfo r.id).moduleName p

theorem Tidy.ownGrants {d : TenantData} (tidy : Tidy d) (mod : String) : OwnGrants mod d := by
  intro r mem copy p row
  rw [← copy.2]
  exact (tidy r mem copy.1 p row).2

theorem tidy_of_no_module_roles {d : TenantData}
    (none : ∀ r ∈ d.mirror.roles, r.origin ≠ .ofModule) : Tidy d :=
  fun r mem ofModule => absurd ofModule (none r mem)

/-- The row is a copy of one of these definitions, and retired when the definition is. -/
def Follows (mod : String) (defs : List ModuleRoleDef) (d : TenantData) (row : Role) : Prop :=
  row.origin = .ofModule ∧ (d.roleInfo row.id).moduleName = mod
    ∧ ∃ df ∈ defs, row.slug = moduleRoleSlug mod df.slug ∧ row.retired = df.retired

/-- Tidy, no role was removed, and a role that is new, was retired or was brought back follows
its definition. -/
structure Orderly (mod : String) (defs : List ModuleRoleDef)
    (pre d : TenantData) : Prop where
  tidy : Tidy d
  kept : ∀ r ∈ pre.mirror.roles, ∃ row, KeptAs pre r d row
  traced : ∀ row ∈ d.mirror.roles,
    (∃ r ∈ pre.mirror.roles, KeptAs pre r d row ∧ row.retired = r.retired) ∨ Follows mod defs d row

section Orderly

variable {pre d post : TenantData} {r row : Role} {mod : String}
  {defs : List ModuleRoleDef}

theorem KeptAs.refl (mem : r ∈ d.mirror.roles) : KeptAs d r d r :=
  ⟨mem, rfl, rfl, rfl, rfl⟩

theorem KeptAs.trans {last : Role} (one : KeptAs pre r d row)
    (two : KeptAs d row post last) : KeptAs pre r post last :=
  ⟨two.member, two.id.trans one.id, two.slug.trans one.slug, two.origin.trans one.origin,
    two.moduleName.trans one.moduleName⟩

theorem KeptAs.of_insert {info : RoleInfo} (inserted : d.insertRole r info = some post)
    (mem : row ∈ d.mirror.roles) : KeptAs d row post row := by
  obtain ⟨fresh, named, rfl⟩ := TenantData.insertRole_eq_some inserted
  have differs : row.id ≠ r.id := fun same => fresh.1 (same ▸ List.mem_map_of_mem mem)
  refine ⟨List.mem_append_left _ mem, rfl, rfl, rfl, ?_⟩
  grind

theorem of_mem_insertRole {info : RoleInfo} (inserted : d.insertRole r info = some post)
    (mem : row ∈ post.mirror.roles) : row ∈ d.mirror.roles ∨ row = r := by
  obtain ⟨fresh, named, rfl⟩ := TenantData.insertRole_eq_some inserted
  exact (List.mem_append.mp mem).imp id List.mem_singleton.mp

section Update

variable {id : RoleID} {dn desc : String} {retired : Bool}

theorem moduleName_updateModuleRole (updated : d.updateModuleRole id dn desc retired = some post)
    (other : RoleID) : (post.roleInfo other).moduleName = (d.roleInfo other).moduleName := by
  obtain rfl := TenantData.updateModuleRole_eq_some updated
  grind [TenantData.renamed]

theorem KeptAs.updated (updated : d.updateModuleRole id dn desc retired = some post)
    (mem : row ∈ d.mirror.roles) : ∃ last, KeptAs d row post last := by
  have sameModule := moduleName_updateModuleRole updated
  obtain rfl := TenantData.updateModuleRole_eq_some updated
  refine ⟨_, List.mem_map_of_mem mem, ?_, ?_, ?_, (sameModule _).trans ?_⟩ <;> split <;> rfl

/-- A row of the updated table is an old one, with the new mark where the update found it. -/
theorem KeptAs.of_updated (updated : d.updateModuleRole id dn desc retired = some post)
    (mem : row ∈ post.mirror.roles) :
    ∃ old ∈ d.mirror.roles, KeptAs d old post row
      ∧ (row = old ∨ (old.id = id ∧ old.origin = .ofModule ∧ row.retired = retired)) := by
  have sameModule := moduleName_updateModuleRole updated
  have rs := mem
  obtain rfl := TenantData.updateModuleRole_eq_some updated
  obtain ⟨old, stored, ⟨matched, rfl⟩ | ⟨-, rfl⟩⟩ := of_mem_updateWhere rs
  · simp only [Bool.and_eq_true, beq_iff_eq] at matched
    exact ⟨old, stored, ⟨mem, rfl, rfl, rfl, sameModule _⟩, Or.inr ⟨matched.1, matched.2, rfl⟩⟩
  · exact ⟨row, stored, ⟨mem, rfl, rfl, rfl, sameModule _⟩, Or.inl rfl⟩

end Update

theorem Orderly.refl (tidy : Tidy d) : Orderly mod defs d d :=
  ⟨tidy, fun r mem => ⟨r, KeptAs.refl mem⟩, fun row mem =>
    Or.inl ⟨row, mem, KeptAs.refl mem, rfl⟩⟩

theorem Orderly.trans (first : Orderly mod defs pre d) (second : Orderly mod defs d post) :
    Orderly mod defs pre post := by
  refine ⟨second.tidy, fun r mem => ?_, fun last mem => ?_⟩
  · obtain ⟨middle, one⟩ := first.kept r mem
    obtain ⟨last, two⟩ := second.kept middle one.member
    exact ⟨last, one.trans two⟩
  · rcases second.traced last mem with ⟨middle, middleMem, two, sameFlag⟩ | follows
    · rcases first.traced middle middleMem with ⟨r, roleMem, one, earlierFlag⟩
        | ⟨ofModule, ofName, df, isDef, isSlug, isFlag⟩
      · exact Or.inl ⟨r, roleMem, one.trans two, sameFlag.trans earlierFlag⟩
      · exact Or.inr ⟨two.origin.trans ofModule, two.moduleName.trans ofName, df, isDef,
          two.slug.trans isSlug, sameFlag.trans isFlag⟩
    · exact Or.inr follows

theorem Orderly.of_roles (tidy : Tidy post) (roles : post.mirror.roles = d.mirror.roles)
    (info : post.roleInfo = d.roleInfo) : Orderly mod defs d post := by
  have kept : ∀ r ∈ d.mirror.roles, KeptAs d r post r := fun r mem =>
    ⟨roles ▸ mem, rfl, rfl, rfl, by rw [info]⟩
  refine ⟨tidy, fun r mem => ⟨r, kept r mem⟩, fun row mem => ?_⟩
  grind

theorem Orderly.of_same (tidy : Tidy d) (roles : post.mirror.roles = d.mirror.roles)
    (perms : post.mirror.permissions = d.mirror.permissions)
    (info : post.roleInfo = d.roleInfo) : Orderly mod defs d post := by
  refine Orderly.of_roles (fun r mem ofModule p listed => ?_) roles info
  rw [info]
  refine tidy r (roles ▸ mem) ofModule p ?_
  simpa only [TenantData.ledger, roles, perms] using listed

/-- What a module role may be given. -/
def MayList (d : TenantData) (s : Slug) (want : Permission → Prop) : Prop :=
  ∀ row ∈ d.mirror.roles, row.slug = s → row.origin = .ofModule →
    ∀ p, want p → OwnedBy (d.roleInfo row.id).moduleName p

theorem Orderly.of_partly (tidy : Tidy d) {want : Permission → Prop}
    (partly : PartlyAssigned d r want post) (may : MayList d r.slug want) :
    Orderly mod defs d post := by
  have roles : post.mirror.roles = d.mirror.roles := congrArg Directory.roles partly.directory
  have info : post.roleInfo = d.roleInfo := congrArg Directory.roleInfo partly.directory
  refine Orderly.of_roles (fun row mem ofModule p listed => ?_) roles info
  rw [roles] at mem
  rw [info]
  rcases partly.ledger.rowsMade _ _ listed with old | ⟨sameSlug, isWanted⟩
  · exact tidy row mem ofModule p old
  · exact may row mem sameSlug ofModule p isWanted

theorem Tidy.of_insert (tidy : Tidy d) {info : RoleInfo}
    (inserted : d.insertRole r info = some post) : Tidy post := by
  intro row mem ofModule p listed
  have isOld := of_mem_insertRole inserted mem
  have kept := @KeptAs.of_insert d post r row info inserted
  obtain ⟨fresh, named, rfl⟩ := TenantData.insertRole_eq_some inserted
  have old : d.ledger.rows row.slug p := (rows_insertRole fresh.1).mp listed
  rcases isOld with stored | rfl
  · grind [Tidy]
  · obtain ⟨holder, holderMem, sameSlug, -⟩ := old
    grind

theorem Orderly.of_insert (tidy : Tidy d) {info : RoleInfo}
    (inserted : d.insertRole r info = some post)
    (follows : Follows mod defs post r) :
    Orderly mod defs d post := by
  refine ⟨tidy.of_insert inserted, fun row mem => ⟨row, KeptAs.of_insert inserted mem⟩,
    fun row mem => ?_⟩
  grind [of_mem_insertRole, KeptAs.of_insert]

theorem Tidy.of_update (tidy : Tidy d) {id : RoleID} {dn desc : String}
    {retired : Bool}
    (updated : d.updateModuleRole id dn desc retired = some post) :
    Tidy post := by
  intro row mem ofModule p listed
  obtain ⟨old, stored, kept, -⟩ := KeptAs.of_updated updated mem
  rw [kept.moduleName]
  refine tidy old stored (kept.origin ▸ ofModule) p ?_
  rw [← kept.slug]
  obtain rfl := TenantData.updateModuleRole_eq_some updated
  exact rows_retireModuleRole.mp listed

theorem Orderly.of_update (tidy : Tidy d) {id : RoleID} {dn desc : String}
    {retired : Bool}
    (updated : d.updateModuleRole id dn desc retired = some post)
    (follows : ∀ row ∈ d.mirror.roles, row.id = id → row.origin = .ofModule →
      Follows mod defs d { row with retired := retired }) :
    Orderly mod defs d post := by
  refine ⟨tidy.of_update updated, fun row mem => KeptAs.updated updated mem, fun row mem => ?_⟩
  obtain ⟨old, stored, kept, rfl | ⟨isRow, ofModule, isRetired⟩⟩ := KeptAs.of_updated updated mem
  · exact Or.inl ⟨row, stored, kept, rfl⟩
  · obtain ⟨-, ofName, df, isDef, isSlug, isFlag⟩ := follows old stored isRow ofModule
    exact Or.inr ⟨kept.origin.trans ofModule, kept.moduleName.trans ofName, df, isDef,
      kept.slug.trans isSlug, isRetired.trans isFlag⟩

end Orderly

/-! ### Calls -/

/-- Work that stays orderly from `pre` on, however far it gets. -/
abbrev Tidies (mod : String) (defs : List ModuleRoleDef) (pre : TenantData)
    {α : Type} (work : Work α) : Prop :=
  Stays (Orderly mod defs) pre work

section Tidies

variable {fs : CallFaults} {nid : Nat → RoleID} {pre d post : TenantData}
  {r : Role} {mod : String} {defs : List ModuleRoleDef} {want : Permission → Prop}

/-- A module role lists no legacy permission, so the migration passes it by. -/
theorem Reason.mayList (tidy : Tidy d) (why : Reason mod d r want) : MayList d r.slug want := by
  intro row mem sameSlug ofModule p wanted
  cases why with
  | copy listed owned =>
    obtain ⟨found, foundMem, -, foundSlug, copy⟩ := listed
    rw [mirror_eq_of_slug mem foundMem (sameSlug.trans foundSlug.symm), copy.2]
    exact owned p wanted
  | migrated listed keeps becomes =>
    rcases becomes p wanted with old | ⟨-, grant, legacyRow, legacy⟩
    · exact tidy row mem ofModule p (sameSlug ▸ old)
    · rw [(tidy row mem ofModule grant (sameSlug ▸ legacyRow)).1] at legacy
      cases legacy
  | revoked listed builtin keeps fewer => exact absurd ofModule (builtin row mem sameSlug)

/-- A registration follows the definitions. -/
theorem orderly_walks : Walks mod defs (Orderly mod defs) where
  trans := Orderly.trans
  still := fun orderly => Orderly.refl orderly.tidy
  kept := fun orderly => orderly.kept
  permission := fun orderly _ => Orderly.of_same orderly.tidy rfl rfl rfl
  modules := fun orderly => Orderly.of_same orderly.tidy rfl rfl rfl
  tuples := fun orderly _ => Orderly.of_same orderly.tidy rfl rfl rfl
  grants := fun orderly why partly =>
    Orderly.of_partly orderly.tidy partly (why.mayList orderly.tidy)
  insert := fun {_ _ _ df} orderly mem current inserted =>
    Orderly.of_insert orderly.tidy inserted ⟨rfl, (listedCopy_of_insertRole inserted).ofModule,
      df, mem, rfl, current.symm⟩
  update := fun {d _ _ df} orderly mem listed isSlug updated => by
    refine Orderly.of_update orderly.tidy updated fun row rowMem sameID _ => ?_
    obtain ⟨kept, keptMem, keptID, keptSlug, copy⟩ := listed
    rw [eq_of_uniqueKey d.mirror.integrity.roles rowMem keptMem (sameID.trans keptID.symm)]
    exact ⟨copy.1, copy.2, df, mem, keptSlug.trans isSlug, rfl⟩

theorem tidies_grantBuiltin {grant : BuiltinGrant} :
    Tidies mod defs pre (grantBuiltin fs mod grant) := by
  refine orderly_walks.query_bind fun known _ => ?_
  split
  case h_1 => exact Stays.fail
  case h_2 refs _ =>
    refine orderly_walks.query_bind fun d _ => ?_
    split
    case h_1 => exact Stays.pure
    case h_2 r found =>
      obtain ⟨mem, -, builtin⟩ := builtinRole_eq_some found
      refine Triple.bind (orderly_walks.exact fun next met => ?_) fun _ => Stays.pure
      obtain ⟨row, kept⟩ := met.kept r mem
      have may : MayList next r.slug fun p =>
          next.ledger.rows r.slug p ∨ p ∈ refs :=
        fun other otherMem sameSlug ofModule =>
          absurd ofModule (kept.builtin builtin other otherMem sameSlug)
      exact (addGrants_listed kept.listed).weaken (fun _ same => same)
        (fun _ _ assigned => Orderly.of_partly met.tidy assigned.partly may)
        fun _ partly => Orderly.of_partly met.tidy partly may

theorem tidies_visit {reg : Registration} : Tidies reg.moduleName defs pre
      (visit fs nid reg defs) := by
  have walks := @orderly_walks reg.moduleName defs
  unfold visit visitRoles
  refine Triple.bind walks.registersPermissions fun _ => Triple.bind walks.migrates fun _ => ?_
  refine Triple.ite (fun _ => Stays.pure) fun _ => ?_
  refine Triple.bind walks.syncsRoles fun _ => Triple.bind (walks.revokesDeclared rfl) fun _ => ?_
  exact Triple.bind (Triple.each_invariant fun _ _ => tidies_grantBuiltin) fun _ => Stays.pure

end Tidies

/-! ### Registrations -/

def AllTidy (tns : TenantID → TenantData) : Prop := ∀ tid, Tidy (tns tid)

section World

variable {fs : CallFaults} {nid : Nat → RoleID} {reg : Registration}
  {mod : String} {defs : List ModuleRoleDef} {w : World}

/-- Every tenant is orderly since `init`. -/
def AllOrderly (mod : String) (defs : List ModuleRoleDef)
    (init tns : TenantID → TenantData) : Prop :=
  ∀ tid, Orderly mod defs (init tid) (tns tid)

theorem onTenant_orderly {α : Type} {tid : TenantID} {work : Work α}
    {init : TenantID → TenantData}
    (tidies : ∀ pre, Tidies mod defs pre work) :
    Triple (fun w : World => AllOrderly mod defs init w.tenants) (onTenant tid work)
      (fun _ w => AllOrderly mod defs init w.tenants)
      fun w => AllOrderly mod defs init w.tenants := by
  refine Triple.from fun w orderly => ?_
  have updated : ∀ d, Orderly mod defs (init tid) d →
      AllOrderly mod defs init (Function.update w.tenants tid d) := by
    intro d step other
    by_cases isT : other = tid
    · rw [isT, Function.update_self]
      exact step
    · rw [Function.update_of_ne isT]
      exact orderly other
  have started := (tidies (init tid)).enter fun site (same : site.data = w.tenants tid) => by
      rw [Site.meets, same]
      exact orderly tid
  refine (onTenant_spec started).weaken (fun _ same => same) ?_ ?_
  · grind
  grind

/-- However far a registration gets, every tenant stays tidy. -/
theorem register_tidy (tidy : AllTidy w.tenants) : AllTidy (register fs nid reg w).2.tenants := by
  have visited : ∀ {defs tid}, Triple (fun w : World => AllTidy w.tenants)
      (onTenant tid (visit fs nid reg defs))
      (fun _ w => AllTidy w.tenants) fun w => AllTidy w.tenants := by
    intro defs tid
    refine Triple.from fun w tidy => ?_
    have orderly := @onTenant_orderly reg.moduleName defs Visit tid
      (visit fs nid reg defs) w.tenants fun _ => tidies_visit
    refine orderly.weaken (fun now same => ?_) (fun _ _ orderly other => (orderly other).tidy)
      fun _ orderly other => (orderly other).tidy
    rw [show now = w from same]
    exact fun other => Orderly.refl (tidy other)
  have kept : Triple (fun w : World => AllTidy w.tenants)
      (register fs nid reg) (fun _ w => AllTidy w.tenants)
      fun w => AllTidy w.tenants := by
    unfold register
    split
    case h_1 => exact Triple.fail fun _ met => met
    case h_2 =>
      refine Triple.ite (fun _ => ?_) fun _ => Triple.fail fun _ met => met
      refine Triple.bind catalogueCall_spec fun _ => Triple.bind catalogueCalls_spec fun _ =>
        Triple.bind registerRoleDefs_spec fun _ => Triple.bind catalogueCall_spec fun _ => ?_
      exact Triple.returning (Triple.each_invariant fun _ _ => visited)
  have out := kept w tidy
  rcases ran : register fs nid reg w with ⟨error | res, post⟩ <;> rw [ran] at out <;> exact out

end World

end TangraAuth.Authz

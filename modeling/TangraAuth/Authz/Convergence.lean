import TangraAuth.Authz.Migration

/-!
Contract: what a registration that declares its roles and built-in grants makes of
a tenant, and that a second visit finds nothing to do.

Owns: the fields of the role copies, the withdrawal and the giving of built-in
grants, the state of a tenant that a visit converges to, and the visit of a tenant
that is in this state.

Does not own: the platform's catalogue, and the loop over the tenants.
-/

namespace TangraAuth.Authz

open Library Store Accounts

/-! ### Built-in grants -/

/-- The registration grants the built-in role of this slug the permission. -/
def DeclaredGrant (reg : Registration) (s : Slug) (p : Permission) : Prop :=
  ∃ grant ∈ reg.grants, grant.role = s
    ∧ ∃ text ∈ grant.permissions, qualify reg.moduleName text = some p

theorem keeps_iff {reg : Registration} {s : Slug} {p : Permission} :
    keeps reg.moduleName reg.grants s p = true ↔ p.moduleName ≠ reg.moduleName
        ∨ DeclaredGrant reg s p := by
  simp [keeps, DeclaredGrant]

/-- Nothing but the grants of built-in roles was changed. -/
structure BuiltinsOnly (pre post : TenantData) : Prop where
  directory : post.directory = pre.directory
  rows : ∀ r ∈ pre.mirror.roles, r.origin ≠ .builtin → ∀ p,
    post.ledger.rows r.slug p ↔ pre.ledger.rows r.slug p
  agreeing : pre.ledger.Agreeing → post.ledger.Agreeing

section Builtins

variable {fs : CallFaults} {reg : Registration} {init pre d post : TenantData}
  {r : Role} {grant : BuiltinGrant}

theorem BuiltinsOnly.roles (only : BuiltinsOnly pre post) :
    post.mirror.roles = pre.mirror.roles := congrArg Directory.roles only.directory

theorem BuiltinsOnly.catalogue (only : BuiltinsOnly pre post) :
    post.mirror.catalogue = pre.mirror.catalogue :=
  congrArg Directory.catalogue only.directory

theorem BuiltinsOnly.trans (first : BuiltinsOnly pre d) (second : BuiltinsOnly d post) :
    BuiltinsOnly pre post where
  directory := second.directory.trans first.directory
  rows := fun r mem other p =>
    (second.rows r (first.roles ▸ mem) other p).trans (first.rows r mem other p)
  agreeing := fun agrees => second.agreeing (first.agreeing agrees)

/-- The slug of a built-in role is no other role's. -/
theorem BuiltinsOnly.of_assignedEach {roles : List Role} {want : Slug → Permission → Prop}
    (part : ∀ r ∈ roles, r ∈ pre.mirror.roles ∧ r.origin = .builtin)
    (assigned : AssignedEach pre roles want post) : BuiltinsOnly pre post where
  directory := assigned.directory
  rows := fun r mem other p => by
    rw [assigned.ledger]
    grind [Ledger.change_rows_of_not, mirror_eq_of_slug]
  agreeing := fun agrees => assigned.ledger ▸ agrees.change

theorem BuiltinsOnly.of_assigned {want : Permission → Prop} (mem : r ∈ pre.mirror.roles)
    (builtin : r.origin = .builtin) (assigned : Assigned pre r want post) :
    BuiltinsOnly pre post := by
  refine BuiltinsOnly.of_assignedEach (fun other listed => ?_)
    (@AssignedEach.step pre pre post [] r (fun _ => want) AssignedEach.nil (by simp) assigned)
  grind

/-! #### Withdrawal -/

theorem revokeRole_spec {mod : String} {grants : List BuiltinGrant}
    (mem : r ∈ init.mirror.roles) (directory : d.directory = init.directory)
    (oldRows : ∀ p, d.ledger.rows r.slug p ↔ init.ledger.rows r.slug p) :
    Triple (Site.meets (· = d)) (revokeRole fs mod grants r)
      (fun _ => Site.meets (Assigned d r fun p =>
        init.ledger.rows r.slug p ∧ keeps mod grants r.slug p = true))
      (Site.meets fun _ => True) := by
  refine query_bind (fun _ _ => trivial) ?_
  rintro d rfl
  have roles : d.mirror.roles = init.mirror.roles := congrArg Directory.roles directory
  have listed : Listed d r := ⟨r, roles ▸ mem, rfl, rfl⟩
  refine Triple.ite (fun all => ?_) fun _ => ?_
  · refine Triple.pure fun site same => ?_
    rw [Site.meets, same]
    refine Assigned.of_same fun p => ?_
    rw [← oldRows]
    refine ⟨And.left, fun row => ⟨row, ?_⟩⟩
    exact List.all_eq_true.mp all p (listed.rows.mp row)
  · refine Triple.bind ((setGrants_listed listed).stop fun _ _ => trivial) fun _ =>
      Triple.pure fun _ assigned => assigned.congr fun p => ?_
    rw [List.mem_filter, ← listed.rows, oldRows]

/-- Built-in roles keep of the module's permissions only declared ones. -/
structure Withdrawn (reg : Registration) (init d : TenantData) : Prop where
  only : BuiltinsOnly init d
  bounded : ∀ r ∈ init.mirror.roles, r.origin = .builtin → ∀ p, p.moduleName = reg.moduleName →
    d.ledger.rows r.slug p → DeclaredGrant reg r.slug p

theorem revokeDeclared_spec (declares : reg.declaresGrants = true) :
    Triple (Site.meets (· = init)) (revokeDeclared fs reg)
      (fun _ => Site.meets (Withdrawn reg init)) (Site.meets fun _ => True) := by
  unfold revokeDeclared
  rw [if_pos declares]
  refine Triple.ite (fun _ => query_bind (fun _ _ => trivial) ?_)
    fun _ => Triple.fail fun _ _ => trivial
  rintro d rfl
  have part : ∀ r ∈ d.mirror.roles.filter (fun r => r.origin == .builtin),
      r ∈ d.mirror.roles ∧ r.origin = .builtin := by
    intro r listed
    obtain ⟨mem, builtin⟩ := List.mem_filter.mp listed
    exact ⟨mem, by simpa using builtin⟩
  have ne : UniqueKey Role.slug (d.mirror.roles.filter fun r => r.origin == .builtin) :=
    d.mirror.integrity.slugs.sublist (List.filter_sublist.map _)
  have loop := @each_assigns d _ (fun s p => d.ledger.rows s p
      ∧ keeps reg.moduleName reg.grants s p = true) Nat
    (revokeRole fs reg.moduleName reg.grants) ne
    fun r listed other directory rs => revokeRole_spec (part r listed).1 directory rs
  refine Triple.bind loop fun _ => Triple.pure fun site assigned => ?_
  refine ⟨BuiltinsOnly.of_assignedEach part assigned, fun r mem builtin p ofModule row => ?_⟩
  have listed : r ∈ d.mirror.roles.filter fun r => r.origin == .builtin :=
    List.mem_filter.mpr ⟨mem, by simpa using builtin⟩
  have kept := ((assigned.rows_of listed).mp row).2
  exact (keeps_iff.mp kept).resolve_left fun foreign => foreign ofModule

/-! #### Giving -/

/-- Of the module's permissions, built-in roles list declared ones; the grants of `done` are
all made. -/
structure Endowed (reg : Registration) (init : TenantData) (done : List BuiltinGrant)
    (d : TenantData) : Prop extends Withdrawn reg init d where
  given : ∀ grant ∈ done, ∃ refs,
    grantedRefs reg.moduleName init.mirror.catalogue grant.permissions = some refs
      ∧ ∀ r ∈ init.mirror.roles, r.origin = .builtin → r.slug = grant.role →
        ∀ p ∈ refs, d.ledger.rows r.slug p

variable {refs : List Permission} {p : Permission}

theorem declared_of_mem_grantedRefs (named : reg.moduleName ≠ "")
    (mem : grant ∈ reg.grants) {known : List Permission}
    (isRefs : grantedRefs reg.moduleName known grant.permissions = some refs)
    (isRef : p ∈ refs) (ofModule : p.moduleName = reg.moduleName) :
    DeclaredGrant reg grant.role p := by
  obtain ⟨text, isText, found, qualified, rfl | ⟨rfl, -⟩⟩ := (mem_grantedRefs isRefs).mp isRef
  · exact ⟨grant, mem, rfl, text, isText, qualified⟩
  · exact absurd ofModule.symm named

theorem Endowed.step {done : List BuiltinGrant} (named : reg.moduleName ≠ "")
    (endowed : Endowed reg init done d) (mem : grant ∈ reg.grants)
    (isRefs : grantedRefs reg.moduleName init.mirror.catalogue grant.permissions
      = some refs) (stored : r ∈ init.mirror.roles) (builtin : r.origin = .builtin)
    (isSlug : r.slug = grant.role)
    (assigned : Assigned d r (fun p =>
      d.ledger.rows r.slug p ∨ p ∈ refs) post) :
    Endowed reg init (done ++ [grant]) post := by
  have rs : ∀ s p, post.ledger.rows s p ↔ d.ledger.rows s p ∨ (s = r.slug ∧ p ∈ refs) := by
    intro s p
    rw [assigned.ledger]
    by_cases isKey : s = r.slug
    · subst isKey
      rw [Ledger.assign_rows_self]
      simp
    · rw [Ledger.assign_rows_other isKey]
      simp [isKey]
  have step := BuiltinsOnly.of_assigned (endowed.only.roles ▸ stored) builtin assigned
  refine ⟨⟨endowed.only.trans step, fun other otherMem otherBuiltin p ofModule row => ?_⟩,
    fun other isDone => ?_⟩
  · rcases (rs _ _).mp row with old | ⟨sameSlug, isRef⟩
    · exact endowed.bounded other otherMem otherBuiltin p ofModule old
    grind [declared_of_mem_grantedRefs]
  · rcases List.mem_append.mp isDone with isDone | isLast
    · grind [given]
    grind

theorem Endowed.skip {done : List BuiltinGrant} (endowed : Endowed reg init done d)
    (isRefs : grantedRefs reg.moduleName init.mirror.catalogue grant.permissions
      = some refs) (lacks : builtinRole d grant.role = none) :
    Endowed reg init (done ++ [grant]) d := by
  refine ⟨endowed.toWithdrawn, fun other isDone => ?_⟩
  rcases List.mem_append.mp isDone with isDone | isLast
  · exact endowed.given other isDone
  · rw [List.mem_singleton.mp isLast]
    refine ⟨refs, isRefs, fun holder holderMem holderBuiltin holderSlug => ?_⟩
    have found := builtinRole_isSome (endowed.only.roles ▸ holderMem) holderBuiltin
    rw [holderSlug, lacks] at found
    cases found

theorem grantBuiltin_endowed {done : List BuiltinGrant} (named : reg.moduleName ≠ "")
    (endowed : Endowed reg init done d) (mem : grant ∈ reg.grants) :
    Triple (Site.meets (· = d)) (grantBuiltin fs reg.moduleName grant)
      (fun _ => Site.meets (Endowed reg init (done ++ [grant])))
      (Site.meets fun _ => True) := by
  refine query_bind (fun _ _ => trivial) ?_
  rintro d rfl
  split
  case h_1 => exact Triple.fail fun _ _ => trivial
  case h_2 refs isRefs =>
    rw [endowed.only.catalogue] at isRefs
    refine query_bind (fun _ _ => trivial) ?_
    rintro d rfl
    split
    case h_1 lacks =>
      refine Triple.pure fun site same => ?_
      rw [Site.meets, same]
      exact endowed.skip isRefs lacks
    case h_2 r found =>
      obtain ⟨stored, isSlug, builtin⟩ := builtinRole_eq_some found
      refine Triple.bind ((addGrants_listed ⟨r, stored, rfl, rfl⟩).stop fun _ _ => trivial)
        fun _ => Triple.pure fun _ assigned => ?_
      exact endowed.step named mem isRefs (endowed.only.roles ▸ stored) builtin isSlug assigned

theorem grantBuiltins_endowed (named : reg.moduleName ≠ "") :
    Triple (Site.meets (Withdrawn reg init)) (Task.each (grantBuiltin fs reg.moduleName) reg.grants)
      (fun _ => Site.meets (Endowed reg init reg.grants))
      (Site.meets fun _ => True) := by
  have loop := @Triple.each Site RegisterError BuiltinGrant Bool (Site.meets fun _ => True)
    (grantBuiltin fs reg.moduleName) reg.grants
    (fun done => Site.meets (Endowed reg init done))
    fun done grant rest whole => Site.from fun d endowed =>
      grantBuiltin_endowed named endowed (by simp [whole])
  exact loop.enter fun _ withdrawn => ⟨withdrawn, by simp⟩

/-- Built-in roles list, of the module's permissions, exactly the declared ones. -/
theorem Endowed.rows_iff (endowed : Endowed reg init reg.grants d)
    (mem : r ∈ init.mirror.roles) (builtin : r.origin = .builtin)
    (ofModule : p.moduleName = reg.moduleName) :
    d.ledger.rows r.slug p ↔ DeclaredGrant reg r.slug p := by
  refine ⟨endowed.bounded r mem builtin p ofModule, ?_⟩
  rintro ⟨grant, grantMem, isRole, text, isText, qualified⟩
  obtain ⟨refs, isRefs, given⟩ := endowed.given grant grantMem
  refine given r mem builtin isRole.symm p ?_
  exact (mem_grantedRefs isRefs).mpr ⟨text, isText, p, qualified, Or.inl rfl⟩

end Builtins

/-! ### The fields of the copies -/

/-- The tenant's copies of the definition have its fields. -/
def FieldsMatch (mod : String) (df : ModuleRoleDef) (d : TenantData) : Prop :=
  ∀ r ∈ d.mirror.roles, d.isCopy mod df.slug r = true →
    (d.roleInfo r.id).displayName = df.displayName ∧ (d.roleInfo r.id).description = df.description
      ∧ r.retired = df.retired

/-- The row is the tenant's copy of the module's role of this slug. -/
def CopyRow (mod s : String) (d : TenantData) (r : Role) : Prop :=
  r ∈ d.mirror.roles ∧ d.isCopy mod s r = true

section Fields

variable {fs : CallFaults} {nid : Nat → RoleID} {mod s : String}
  {listed init d next post : TenantData} {df : ModuleRoleDef} {r other : Role}
  {done : List ModuleRoleDef}

theorem copyRow_iff : CopyRow mod s d r ↔ r ∈ d.mirror.roles
    ∧ r.origin = .ofModule ∧ (d.roleInfo r.id).moduleName = mod
    ∧ (d.roleInfo r.id).moduleSlug = s := by
  simp [CopyRow, TenantData.isCopy, and_assoc]

theorem CopyRow.unique (one : CopyRow mod s d r) (two : CopyRow mod s d other) : r = other := by
  obtain ⟨mem, origin, ofModule, ofSlug⟩ := copyRow_iff.mp one
  obtain ⟨otherMem, otherOrigin, otherModule, otherSlug⟩ := copyRow_iff.mp two
  refine mirror_eq_of_slug mem otherMem ?_
  rw [d.copies r mem origin, d.copies other otherMem otherOrigin, ofModule, ofSlug,
    otherModule, otherSlug]

/-- The copies of other slugs are as they were. -/
structure OtherCopiesKept (mod s : String) (pre post : TenantData) : Prop where
  rows : ∀ other ≠ s, ∀ r, CopyRow mod other post r ↔ CopyRow mod other pre r
  infos : ∀ other ≠ s, ∀ r, CopyRow mod other pre r → post.roleInfo r.id = pre.roleInfo r.id

/-- The loop: the definitions that were done have their fields, the copies of the others are
those that were listed. -/
structure FieldedUpTo (mod : String) (listed : TenantData) (done : List ModuleRoleDef)
    (d : TenantData) : Prop where
  fields : ∀ df ∈ done, FieldsMatch mod df d
  pending : ∀ s, (∀ df ∈ done, df.slug ≠ s) → ∀ r, CopyRow mod s d r ↔ CopyRow mod s listed r
  infos : ∀ s, (∀ df ∈ done, df.slug ≠ s) → ∀ r,
    CopyRow mod s listed r → d.roleInfo r.id = listed.roleInfo r.id

theorem FieldedUpTo.nil : FieldedUpTo mod listed [] listed :=
  ⟨by simp, fun _ _ _ => Iff.rfl, fun _ _ _ _ => rfl⟩

theorem FieldedUpTo.step (sofar : FieldedUpTo mod listed done d)
    (fresh : ∀ other ∈ done, other.slug ≠ df.slug)
    (kept : OtherCopiesKept mod df.slug d post)
    (fields : FieldsMatch mod df post) :
    FieldedUpTo mod listed (done ++ [df]) post := by
  refine ⟨fun other isDone => ?_, fun s undone row => ?_, fun s undone row copy => ?_⟩
  · rcases List.mem_append.mp isDone with isDone | isLast
    · intro row mem copy
      have old := (kept.rows other.slug (fresh other isDone) row).mp ⟨mem, copy⟩
      rw [kept.infos other.slug (fresh other isDone) row old]
      exact sofar.fields other isDone row old.1 old.2
    · rw [List.mem_singleton.mp isLast]
      exact fields
  · have earlier : ∀ other ∈ done, other.slug ≠ s := fun other isDone =>
      undone other (List.mem_append_left _ isDone)
    have differs : s ≠ df.slug := (undone df (by simp)).symm
    exact (kept.rows s differs row).trans (sofar.pending s earlier row)
  · have earlier : ∀ other ∈ done, other.slug ≠ s := fun other isDone =>
      undone other (List.mem_append_left _ isDone)
    have differs : s ≠ df.slug := (undone df (by simp)).symm
    rw [kept.infos s differs row ((sofar.pending s earlier row).mpr copy)]
    exact sofar.infos s earlier row copy

/-- The definition was written to its copy. -/
structure Rewritten (mod : String) (df : ModuleRoleDef) (pre post : TenantData) :
    Prop where
  kept : OtherCopiesKept mod df.slug pre post
  fields : FieldsMatch mod df post

theorem Rewritten.directory (rewritten : Rewritten mod df init d)
    (same : post.directory = d.directory) : Rewritten mod df init post := by
  have roles : post.mirror.roles = d.mirror.roles := congrArg Directory.roles same
  have info : post.roleInfo = d.roleInfo := congrArg Directory.roleInfo same
  have rs : ∀ s r, CopyRow mod s post r ↔ CopyRow mod s d r := by
    intro s r
    rw [copyRow_iff, copyRow_iff, roles, info]
  refine ⟨⟨fun s differs r => (rs s r).trans (rewritten.kept.rows s differs r),
    fun s differs r copy => ?_⟩, fun r mem copy => ?_⟩
  · rw [info]
    exact rewritten.kept.infos s differs r copy
  · have old := (rs df.slug r).mp ⟨mem, copy⟩
    rw [info]
    exact rewritten.fields r old.1 old.2

variable {id : RoleID} {dn desc : String} {retired : Bool}

/-- What an update leaves: the row's new columns, and the other rows. -/
theorem mem_updateModuleRole (updated : d.updateModuleRole id dn desc retired = some next) :
    next.roleInfo = Function.update d.roleInfo id (TenantData.renamed (d.roleInfo id) dn desc)
      ∧ ∀ row, row ∈ next.mirror.roles ↔
        (row ∈ d.mirror.roles ∧ ¬(row.id = id ∧ row.origin = .ofModule))
          ∨ ∃ old ∈ d.mirror.roles, (old.id = id ∧ old.origin = .ofModule)
            ∧ row = { old with retired := retired } := by
  obtain rfl := TenantData.updateModuleRole_eq_some updated
  refine ⟨rfl, fun row => ?_⟩
  refine mem_updateWhere.trans ?_
  grind

theorem OtherCopiesKept.refl : OtherCopiesKept mod s d d :=
  ⟨fun _ _ _ => Iff.rfl, fun _ _ _ _ => rfl⟩

theorem OtherCopiesKept.of_update (copy : CopyRow mod s d r)
    (updated : d.updateModuleRole r.id dn desc retired = some next) :
    OtherCopiesKept mod s d next := by
  obtain ⟨info, rs⟩ := mem_updateModuleRole updated
  obtain ⟨-, -, -, ofSlug⟩ := copyRow_iff.mp copy
  -- A row of the role's id is a copy of its slug.
  have apart : ∀ other ≠ s, ∀ row, CopyRow mod other d row → row.id ≠ r.id := by
    intro other differs row otherCopy sameID
    obtain ⟨-, -, -, otherSlug⟩ := copyRow_iff.mp otherCopy
    rw [sameID, ofSlug] at otherSlug
    exact differs otherSlug.symm
  have infos : ∀ other ≠ s, ∀ row, CopyRow mod other d row →
      next.roleInfo row.id = d.roleInfo row.id := by
    intro other differs row otherCopy
    rw [info, Function.update_of_ne (apart other differs row otherCopy)]
  refine ⟨fun other differs row => ⟨fun post => ?_, fun pre => ?_⟩, infos⟩
  · obtain ⟨mem, origin, ofModule, otherSlug⟩ := copyRow_iff.mp post
    by_cases sameID : row.id = r.id
    · rw [info, sameID, Function.update_self] at otherSlug
      exact absurd (ofSlug.symm.trans otherSlug).symm differs
    · rw [info, Function.update_of_ne sameID] at ofModule otherSlug
      rcases (rs row).mp mem with ⟨stored, -⟩ | ⟨old, -, ⟨oldID, -⟩, rfl⟩
      · exact copyRow_iff.mpr ⟨stored, origin, ofModule, otherSlug⟩
      · exact absurd oldID sameID
  · obtain ⟨stored, origin, ofModule, otherSlug⟩ := copyRow_iff.mp pre
    have sameID := apart other differs row pre
    have mem := (rs row).mpr (Or.inl ⟨stored, fun matched => sameID matched.1⟩)
    rw [← infos other differs row pre] at ofModule otherSlug
    exact copyRow_iff.mpr ⟨mem, origin, ofModule, otherSlug⟩

theorem FieldsMatch.of_update (copy : CopyRow mod df.slug d r)
    (updated : d.updateModuleRole r.id df.displayName df.description
      df.retired = some next) : FieldsMatch mod df next := by
  obtain ⟨info, rs⟩ := mem_updateModuleRole updated
  intro row mem isCopy
  obtain ⟨-, origin, ofModule, ofSlug⟩ := copyRow_iff.mp ⟨mem, isCopy⟩
  rcases (rs row).mp mem with ⟨stored, unmatched⟩ | ⟨old, stored, ⟨oldID, -⟩, rfl⟩
  · -- A copy that was not updated has another id, so it is a second copy.
    have differs : row.id ≠ r.id := fun sameID => unmatched ⟨sameID, origin⟩
    rw [info, Function.update_of_ne differs] at ofModule ofSlug
    have again : CopyRow mod df.slug d row :=
      copyRow_iff.mpr ⟨stored, origin, ofModule, ofSlug⟩
    exact absurd (congrArg Role.id (again.unique copy)) differs
  · refine ⟨?_, ?_, rfl⟩ <;> rw [info] <;> dsimp only <;>
      rw [oldID, Function.update_self] <;> rfl

theorem updateCopy_rewritten (found : CopyRow mod df.slug listed r)
    (pending : ∀ row, CopyRow mod df.slug d row ↔ CopyRow mod df.slug listed row)
    (info : d.roleInfo r.id = listed.roleInfo r.id) :
    Triple (Site.meets (· = d)) (updateCopy fs listed df r)
      (fun _ => Site.meets (Rewritten mod df d)) (Site.meets fun _ => True) := by
  have copy := (pending r).mpr found
  refine Triple.ite (fun _ => executeChecked_spec ?_ fun _ _ => trivial) fun same => ?_
  · rintro _ next rfl updated
    exact ⟨⟨OtherCopiesKept.of_update copy updated, FieldsMatch.of_update copy updated⟩, trivial⟩
  · simp only [ne_eq, not_or, not_not] at same
    refine Triple.pure fun site isData => ?_
    rw [Site.meets, show site.data = d from isData]
    refine ⟨OtherCopiesKept.refl, fun row mem isCopy => ?_⟩
    have isRole : row = r := CopyRow.unique ⟨mem, isCopy⟩ copy
    rw [isRole, info]
    exact same

/-- The row of a new copy is written with the fields of its definition. -/
theorem Rewritten.of_insert (current : df.retired = false)
    (absent : ∀ row, ¬CopyRow mod df.slug d row)
    (inserted : d.insertRole ⟨id, moduleRoleSlug mod df.slug, .ofModule, false⟩
      ⟨df.displayName, df.description, mod, df.slug⟩ = some next) :
    Rewritten mod df d next := by
  obtain ⟨fresh, named, rfl⟩ := TenantData.insertRole_eq_some inserted
  have infos : ∀ row ∈ d.mirror.roles, Function.update d.roleInfo id
      ⟨df.displayName, df.description, mod, df.slug⟩ row.id
      = d.roleInfo row.id := fun _ => TenantData.roleInfo_insert fresh.1
  refine ⟨⟨fun other differs row => ?_, fun other _ row copy => infos row copy.1⟩, ?_⟩
  · constructor
    · intro post
      obtain ⟨mem, origin, ofModule, ofSlug⟩ := copyRow_iff.mp post
      rcases List.mem_append.mp mem with stored | isNew
      · dsimp only at ofModule ofSlug
        rw [infos row stored] at ofModule ofSlug
        exact copyRow_iff.mpr ⟨stored, origin, ofModule, ofSlug⟩
      grind
    · intro pre
      obtain ⟨stored, origin, ofModule, ofSlug⟩ := copyRow_iff.mp pre
      rw [← infos row stored] at ofModule ofSlug
      exact copyRow_iff.mpr ⟨List.mem_append_left _ stored, origin, ofModule, ofSlug⟩
  · intro row mem isCopy
    rcases List.mem_append.mp mem with stored | isNew
    · obtain ⟨-, origin, ofModule, ofSlug⟩ := copyRow_iff.mp ⟨mem, isCopy⟩
      dsimp only at ofModule ofSlug
      rw [infos row stored] at ofModule ofSlug
      exact absurd (copyRow_iff.mpr ⟨stored, origin, ofModule, ofSlug⟩) (absent row)
    grind

/-- A conflict would be with a copy, of which there is none. -/
theorem createCopy_rewritten (current : df.retired = false)
    (absent : ∀ row, ¬CopyRow mod df.slug d row) :
    Triple (Site.meets (· = d)) (createCopy fs nid mod df)
      (fun _ => Site.meets (Rewritten mod df d)) (Site.meets fun _ => True) := by
  have written := @writeTuples_spec fs (· = d) (fun next => ∃ ts, next = d.withTuples ts)
    (fun _ => True) [.roleTenant (moduleRoleSlug mod df.slug)] []
    (fun _ same => same ▸ ⟨_, rfl⟩) fun _ _ _ _ => trivial
  refine createCopy_rule (fun _ _ => trivial) written (fun _ _ => trivial)
    (fun id next post isWritten inserted => ⟨?_, trivial⟩) fun next row isWritten found => ?_
  · obtain ⟨ts, rfl⟩ := isWritten
    have absentNow : ∀ row, ¬CopyRow mod df.slug (d.withTuples ts) row :=
      absent
    have rewritten := Rewritten.of_insert current absentNow inserted
    exact ⟨⟨rewritten.kept.rows, rewritten.kept.infos⟩, rewritten.fields⟩
  · obtain ⟨ts, rfl⟩ := isWritten
    obtain ⟨mem, copy, ofSlug⟩ := TenantData.moduleRole_eq_some found
    exact absurd (copyRow_iff.mpr ⟨mem, copy.1, copy.2, ofSlug⟩) (absent row)

theorem syncRole_fielded {known : List Permission} (sofar : FieldedUpTo mod listed done d)
    (fresh : ∀ other ∈ done, other.slug ≠ df.slug)
    (stored : ∀ r, Listed listed r → Listed d r) :
    Triple (Site.meets (· = d)) (syncRole fs nid mod listed known df)
      (fun _ => Site.meets (FieldedUpTo mod listed (done ++ [df])))
      (Site.meets fun _ => True) := by
  -- The last call sets grants, which are no fields.
  have granting : ∀ {r : Role} {wanted : List Permission} (now : TenantData),
      Rewritten mod df d now → Listed now r →
      Triple (Site.meets (· = now)) (setGrants fs r wanted)
        (fun _ => Site.meets (FieldedUpTo mod listed (done ++ [df])))
        (Site.meets fun _ => True) := by
    intro r wanted now rewritten isListed
    refine (setGrants_listed isListed).weaken (fun _ same => same) (fun _ _ assigned => ?_)
      fun _ _ => trivial
    have fin := rewritten.directory assigned.directory
    exact sofar.step fresh fin.kept fin.fields
  have pending := sofar.pending df.slug fresh
  unfold syncRole
  split
  case h_1 r found =>
    obtain ⟨mem, copy, ofSlug⟩ := TenantData.moduleRole_eq_some found
    have listedCopy : CopyRow mod df.slug listed r :=
      copyRow_iff.mpr ⟨mem, copy.1, copy.2, ofSlug⟩
    have info := sofar.infos df.slug fresh r listedCopy
    have updating := (@updateCopy_rewritten fs mod listed d df r listedCopy
      pending info).and (@updateCopy_grown fs d mod r df listed)
    refine Triple.bind (updating.stop fun _ _ => trivial) fun _ =>
      Triple.returning (Triple.from fun site updated => ?_)
    have nowListed := updated.2.1.listed r (stored r ⟨r, mem, rfl, rfl⟩)
    exact (granting site.data updated.1 nowListed).enter fun _ same => congrArg Site.data same
  case h_2 none =>
    have absent : ∀ row, ¬CopyRow mod df.slug d row := by
      intro row copy
      have listedCopy := (pending row).mp copy
      exact not_hasCopy_of_moduleRole none ⟨row, listedCopy.1, listedCopy.2⟩
    refine Triple.ite (fun _ => ?_) fun isCurrent => ?_
    · refine Triple.pure fun site same => ?_
      rw [Site.meets, show site.data = d from same]
      refine sofar.step fresh OtherCopiesKept.refl fun row mem copy => ?_
      exact absurd ⟨mem, copy⟩ (absent row)
    · have current : df.retired = false := by simpa using isCurrent
      have creating := (@createCopy_rewritten fs nid mod d df current
        absent).and (@createCopy_made fs nid d mod df)
      refine Triple.bind (creating.stop fun _ _ => trivial) fun r =>
        Triple.returning (Triple.from fun site made => ?_)
      exact (granting site.data made.1 made.2.listed).enter fun _ same => congrArg Site.data same

/-- Both loop invariants at once. -/
theorem syncRoles_fielded {defs : List ModuleRoleDef} (ne : UniqueKey ModuleRoleDef.slug defs) :
    Triple (Site.meets (· = init)) (syncRoles fs nid mod defs)
      (fun _ => Site.meets fun d => FieldedUpTo mod init defs d ∧ SyncedUpTo mod defs defs init d)
      (Site.meets fun _ => True) := by
  refine query_bind (fun _ _ => trivial) ?_
  rintro _ rfl
  refine query_bind (fun _ _ => trivial) ?_
  rintro listed rfl
  have loop := @Triple.each Site RegisterError ModuleRoleDef Unit (Site.meets fun _ => True)
    (syncRole fs nid mod listed listed.mirror.catalogue) defs
    fun done => Site.meets fun d => FieldedUpTo mod listed done d
      ∧ SyncedUpTo mod defs done listed d
  refine Triple.returning ((loop fun done df rest whole =>
    Site.from fun now sofar => ?_).enter fun site same => ?_)
  · obtain ⟨fielded, synced⟩ := sofar
    have fresh : ∀ other ∈ done, other.slug ≠ df.slug := by
      intro other isDone same
      rw [UniqueKey, whole, List.map_append, List.nodup_append] at ne
      exact ne.2.2 _ (List.mem_map_of_mem isDone) _ List.mem_cons_self same
    have copies : ∀ s, HasCopy mod listed s → HasCopy mod now s :=
      fun s copy => (synced.grown.copies s).mpr (Or.inl copy)
    have one := @syncRole_fielded fs nid mod listed now df done
      listed.mirror.catalogue fielded fresh synced.grown.listed
    have two := @syncRole_spec fs nid now mod df listed
      listed.mirror.catalogue synced.grown.listed copies
    exact (one.and two).weaken (fun _ same => same)
      (fun _ _ met => ⟨met.1, synced.step ne whole met.2⟩) fun _ _ => trivial
  · rw [Site.meets, show site.data = listed from same]
    exact ⟨FieldedUpTo.nil, Grown.refl.congr fun s => by simp,
      (Ledger.change_none (by simp [Syncs])).symm⟩

end Fields

/-! ### The state a visit converges to -/

/-- The tenant's copy of the definition, which it has unless the definition is retired, has
the fields of the definition and those of its permissions that the tenant knows. -/
structure InSync (mod : String) (df : ModuleRoleDef) (d : TenantData) : Prop where
  present : df.retired = false → HasCopy mod d df.slug
  fields : FieldsMatch mod df d
  grants : ∀ r, CopyRow mod df.slug d r → ∀ p,
    p ∈ d.mirror.rolePermissions r.id ↔ p ∈ wantedGrants mod d.mirror.catalogue df

/-- Nothing is left to do for the registration. -/
structure Converged (reg : Registration) (defs : List ModuleRoleDef)
    (d : TenantData) : Prop where
  known : ∀ p ∈ reg.permissions, p.ref reg.moduleName ∈ d.mirror.catalogue
  marked : ∃ row, d.tenantModule reg.moduleName = some row ∧ row.migrated = true
  copies : ∀ df ∈ defs, InSync reg.moduleName df d
  builtins : ∀ r ∈ d.mirror.roles, r.origin = .builtin → ∀ p, p.moduleName = reg.moduleName →
    (p ∈ d.mirror.rolePermissions r.id ↔ DeclaredGrant reg r.slug p)
  given : ∀ grant ∈ reg.grants, ∃ refs,
    grantedRefs reg.moduleName d.mirror.catalogue grant.permissions = some refs
      ∧ ∀ r ∈ d.mirror.roles, r.origin = .builtin → r.slug = grant.role →
        ∀ p ∈ refs, p ∈ d.mirror.rolePermissions r.id

section Converge

variable {fs : CallFaults} {nid : Nat → RoleID} {reg : Registration}
  {defs : List ModuleRoleDef} {df : ModuleRoleDef} {mod : String}
  {init pre d post : TenantData}

theorem inSync_of_synced (ne : UniqueKey ModuleRoleDef.slug defs)
    (mem : df ∈ defs) (fielded : FieldedUpTo mod init defs d)
    (synced : SyncedUpTo mod defs defs init d) :
    InSync mod df d := by
  refine ⟨fun current => ?_, fielded.fields df mem, fun r copy p => ?_⟩
  · refine (synced.grown.copies df.slug).mpr (Or.inr ?_)
    exact ⟨df, mem, rfl, Or.inr current⟩
  · obtain ⟨stored, origin, ofModule, ofSlug⟩ := copyRow_iff.mp copy
    have isSlug : r.slug = moduleRoleSlug mod df.slug := by
      rw [d.copies r stored origin, ofModule, ofSlug]
    have inStep : InStep mod init df := by
      rcases (synced.grown.copies df.slug).mp ⟨r, copy.1, copy.2⟩
        with old | ⟨other, otherMem, sameSlug, inStep⟩
      · exact Or.inl old
      · exact eq_of_uniqueKey ne otherMem mem sameSlug ▸ inStep
    have isKey : Syncs mod defs init r.slug := ⟨df, mem, isSlug, inStep⟩
    rw [← TenantData.ledger_rows_of_mem stored, synced.ledger, Ledger.change_rows_of isKey, isSlug,
      syncWant_self ne mem, synced.grown.catalogue]

/-- A copy is no built-in role. -/
theorem InSync.builtinsOnly (inSync : InSync mod df pre)
    (only : BuiltinsOnly pre post) : InSync mod df post := by
  have info : post.roleInfo = pre.roleInfo := congrArg Directory.roleInfo only.directory
  have rs : ∀ s r, CopyRow mod s post r ↔ CopyRow mod s pre r := by
    intro s r
    rw [copyRow_iff, copyRow_iff, only.roles, info]
  refine ⟨fun current => ?_, fun r mem copy => ?_, fun r copy p => ?_⟩
  · obtain ⟨r, mem, copy⟩ := inSync.present current
    exact ⟨r, (rs _ r).mpr ⟨mem, copy⟩⟩
  · have old := (rs df.slug r).mp ⟨mem, copy⟩
    rw [info]
    exact inSync.fields r old.1 old.2
  · have old := (rs df.slug r).mp copy
    have notBuiltin : r.origin ≠ .builtin := by
      rw [(copyRow_iff.mp old).2.1]
      nofun
    rw [only.catalogue, ← inSync.grants r old p,
      ← TenantData.ledger_rows_of_mem copy.1, ← TenantData.ledger_rows_of_mem old.1]
    exact only.rows r old.1 notBuiltin p

theorem Converged.of_endowed (known : ∀ p ∈ reg.permissions,
      p.ref reg.moduleName ∈ init.mirror.catalogue)
    (marked : ∃ row, init.tenantModule reg.moduleName = some row ∧ row.migrated = true)
    (copies : ∀ df ∈ defs, InSync reg.moduleName df init)
    (endowed : Endowed reg init reg.grants d) :
    Converged reg defs d where
  known := fun p mem => endowed.only.catalogue ▸ known p mem
  marked := by
    have modules : d.modules = init.modules :=
      congrArg Directory.modules endowed.only.directory
    unfold TenantData.tenantModule
    rw [modules]
    exact marked
  copies := fun df mem => (copies df mem).builtinsOnly endowed.only
  builtins := fun r mem builtin p ofModule => by
    rw [← TenantData.ledger_rows_of_mem mem]
    exact endowed.rows_iff (endowed.only.roles ▸ mem) builtin ofModule
  given := fun grant grantMem => by
    obtain ⟨refs, isRefs, given⟩ := endowed.given grant grantMem
    refine ⟨refs, endowed.only.catalogue ▸ isRefs, fun r mem builtin isSlug p isRef => ?_⟩
    rw [← TenantData.ledger_rows_of_mem mem]
    exact given r (endowed.only.roles ▸ mem) builtin isSlug p isRef

/-- What a visit that ends makes of a tenant. -/
structure ConvergedFrom (reg : Registration) (defs : List ModuleRoleDef)
    (pre post : TenantData) : Prop where
  converged : Converged reg defs post
  agreeing : pre.ledger.Agreeing → post.ledger.Agreeing

theorem visit_converged (named : reg.moduleName ≠ "")
    (direct : reg.delegate = "") (declares : reg.declaresGrants = true)
    (ne : UniqueKey ModuleRoleDef.slug defs) :
    Triple (Site.meets (· = init)) (visit fs nid reg defs)
      (fun _ => Site.meets (ConvergedFrom reg defs init))
      (Site.meets fun _ => True) := by
  unfold visit visitRoles
  refine Triple.bind registerPermissions_recorded fun _ => Site.from fun one recorded => ?_
  refine Triple.bind migrate_spec fun _ => Site.from fun two migrated => ?_
  refine Triple.ite (fun delegated => absurd direct delegated) fun _ => ?_
  refine Triple.bind (syncRoles_fielded ne) fun _ => Site.from fun three both => ?_
  obtain ⟨fielded, synced⟩ := both
  refine Triple.bind (revokeDeclared_spec declares) fun _ => ?_
  refine Triple.bind (grantBuiltins_endowed named) fun _ => Triple.pure fun last endowed => ?_
  refine ⟨Converged.of_endowed (fun p mem => ?_) ?_
    (fun df mem => inSync_of_synced ne mem fielded synced) endowed, fun agrees => ?_⟩
  · rw [synced.grown.catalogue, migrated.catalogue]
    exact (recorded.catalogue _).mpr (Or.inr (List.mem_map_of_mem mem))
  · unfold TenantData.tenantModule
    rw [synced.grown.modules]
    exact migrated.marked
  · have first : one.ledger.Agreeing := recorded.ledger ▸ agrees
    have second : two.ledger.Agreeing := migrated.ledger ▸ first.change
    have third : three.ledger.Agreeing := synced.ledger ▸ second.change
    exact endowed.only.agreeing third

end Converge

end TangraAuth.Authz

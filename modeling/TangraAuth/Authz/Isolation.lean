import TangraAuth.Authz.Walk

/-!
Contract: the calls of a registration leave what belongs to other modules alone.

Owns: what a registration may touch, and the rule that each of its calls stays
within that however far it gets.

Does not own: what a registration does to the module's own grants, and the legacy
permissions that built-in grants give.
-/

namespace TangraAuth.Authz

open Library Store Accounts

/-! ### What may change -/

/-- The copies of the module's roles list only permissions of the module. -/
def OwnGrants (mod : String) (d : TenantData) : Prop :=
  ∀ r ∈ d.mirror.roles, IsCopyOf mod d r → ∀ p, d.ledger.rows r.slug p → p.moduleName = mod

/-- What belongs to no module, or to another one, is as it was, but for the grants of `given`.
The module's own roles stay the module's. -/
structure Isolated (mod : String) (given : Slug → Permission → Prop)
    (pre post : TenantData) : Prop where
  status : post.status = pre.status
  users : post.mirror.users = pre.mirror.users
  assignments : ∀ t, t.isGrant = false → (∀ s, t ≠ .roleTenant s) →
    (t ∈ post.tuples ↔ t ∈ pre.tuples)
  rolesKept : ∀ r ∈ pre.mirror.roles, ¬IsCopyOf mod pre r →
    r ∈ post.mirror.roles ∧ post.roleInfo r.id = pre.roleInfo r.id
  rolesOld : ∀ r ∈ post.mirror.roles, ¬IsCopyOf mod post r →
    r ∈ pre.mirror.roles ∧ post.roleInfo r.id = pre.roleInfo r.id
  copiesKept : ∀ r ∈ pre.mirror.roles, IsCopyOf mod pre r →
    ∃ row ∈ post.mirror.roles, row.id = r.id ∧ row.slug = r.slug ∧ IsCopyOf mod post row
  catalogue : ∀ p, p.moduleName ≠ mod → (p ∈ post.mirror.catalogue ↔ p ∈ pre.mirror.catalogue)
      ∧ post.permissionInfo p = pre.permissionInfo p
  grants : ∀ s p, p.moduleName ≠ mod → ¬given s p → (post.ledger.rows s p ↔ pre.ledger.rows s p)
      ∧ (post.ledger.facts s p ↔ pre.ledger.facts s p)
  kept : ∀ s p, p.moduleName ≠ mod → (pre.ledger.rows s p → post.ledger.rows s p)
      ∧ (pre.ledger.facts s p → post.ledger.facts s p)
  own : OwnGrants mod post

variable {r : Role} {p : Permission} {s : Slug} {retired : Bool}

section Isolated

variable {mod : String} {given : Slug → Permission → Prop}
  {pre d post : TenantData}

theorem Isolated.refl (own : OwnGrants mod d) : Isolated mod given d d where
  status := rfl
  users := rfl
  assignments := fun _ _ _ => Iff.rfl
  rolesKept := fun _ mem _ => ⟨mem, rfl⟩
  rolesOld := fun _ mem _ => ⟨mem, rfl⟩
  copiesKept := fun r mem isCopy => ⟨r, mem, rfl, rfl, isCopy⟩
  catalogue := fun _ _ => ⟨Iff.rfl, rfl⟩
  grants := fun _ _ _ _ => ⟨Iff.rfl, Iff.rfl⟩
  kept := fun _ _ _ => ⟨fun row => row, fun fact => fact⟩
  own := own

theorem not_isCopyOf_of_same (other : ¬IsCopyOf mod pre r)
    (same : post.roleInfo r.id = pre.roleInfo r.id) :
    ¬IsCopyOf mod post r := by
  unfold IsCopyOf
  rw [same]
  exact other

theorem Isolated.trans (first : Isolated mod given pre d)
    (second : Isolated mod given d post) : Isolated mod given pre post where
  status := second.status.trans first.status
  users := second.users.trans first.users
  assignments := fun t notGrant notTenant =>
    (second.assignments t notGrant notTenant).trans (first.assignments t notGrant notTenant)
  rolesKept := fun r mem other => by
    obtain ⟨mem, same⟩ := first.rolesKept r mem other
    obtain ⟨mem, later⟩ := second.rolesKept r mem (not_isCopyOf_of_same other same)
    exact ⟨mem, later.trans same⟩
  rolesOld := fun r mem other => by
    obtain ⟨mem, same⟩ := second.rolesOld r mem other
    obtain ⟨mem, earlier⟩ := first.rolesOld r mem (not_isCopyOf_of_same other same.symm)
    exact ⟨mem, same.trans earlier⟩
  copiesKept := fun r mem isCopy => by
    grind [copiesKept]
  catalogue := fun p other =>
    ⟨(second.catalogue p other).1.trans (first.catalogue p other).1,
      (second.catalogue p other).2.trans (first.catalogue p other).2⟩
  grants := fun s p other ungiven =>
    ⟨(second.grants s p other ungiven).1.trans (first.grants s p other ungiven).1,
      (second.grants s p other ungiven).2.trans (first.grants s p other ungiven).2⟩
  kept := fun s p other =>
    ⟨fun row => (second.kept s p other).1 ((first.kept s p other).1 row),
      fun fact => (second.kept s p other).2 ((first.kept s p other).2 fact)⟩
  own := second.own

theorem Isolated.mono {less : Slug → Permission → Prop} (isolated : Isolated mod less pre post)
    (more : ∀ s p, less s p → given s p) :
    Isolated mod given pre post :=
  { isolated with
    grants := fun s p other ungiven =>
      isolated.grants s p other fun isLess => ungiven (more s p isLess) }

/-! ### Statements -/

/-- A change of columns that nothing here speaks of, and of the module's permissions. -/
theorem Isolated.of_same (own : OwnGrants mod d)
    (status : post.status = d.status) (users : post.mirror.users = d.mirror.users)
    (roles : post.mirror.roles = d.mirror.roles) (info : post.roleInfo = d.roleInfo)
    (perms : post.mirror.permissions = d.mirror.permissions)
    (ts : ∀ t, (∀ s, t ≠ .roleTenant s) → (t ∈ post.tuples ↔ t ∈ d.tuples))
    (cat : ∀ p, p.moduleName ≠ mod → (p ∈ post.mirror.catalogue ↔ p ∈ d.mirror.catalogue)
        ∧ post.permissionInfo p = d.permissionInfo p) :
    Isolated mod given d post := by
  have lg : post.ledger = d.ledger := by
    ext s p
    · simp [TenantData.ledger, roles, perms]
    · exact ts _ (by simp)
  have copies : ∀ r, IsCopyOf mod post r ↔ IsCopyOf mod d r := by
    simp [IsCopyOf, info]
  exact
    { status := status
      users := users
      assignments := fun t _ notTenant => ts t notTenant
      rolesKept := fun r mem _ => ⟨roles ▸ mem, by rw [info]⟩
      rolesOld := fun r mem _ => ⟨roles ▸ mem, by rw [info]⟩
      copiesKept := fun r mem isCopy =>
        ⟨r, roles ▸ mem, rfl, rfl, (copies r).mpr isCopy⟩
      catalogue := cat
      grants := fun _ _ _ _ => by rw [lg]; exact ⟨Iff.rfl, Iff.rfl⟩
      kept := fun _ _ _ => by rw [lg]; exact ⟨fun row => row, fun fact => fact⟩
      own := fun r mem isCopy p row =>
        own r (roles ▸ mem) ((copies r).mp isCopy) p (lg ▸ row) }

variable {m : Mirror}

/-- Setting the grants of a role: of what is not the module's, nothing may be withdrawn and
only `given` may be added; a copy may get only the module's own. -/
theorem Isolated.of_partly (own : OwnGrants mod d) {want : Permission → Prop}
    (partly : PartlyAssigned d r want post)
    (keeps : ∀ p, p.moduleName ≠ mod → d.ledger.rows r.slug p → want p)
    (gives : ∀ p, p.moduleName ≠ mod → want p → d.ledger.rows r.slug p ∨ given r.slug p)
    (copies : ∀ row ∈ d.mirror.roles, row.slug = r.slug → IsCopyOf mod d row →
      ∀ p, want p → p.moduleName = mod) :
    Isolated mod given d post := by
  have directory := partly.directory
  have roles : post.mirror.roles = d.mirror.roles := congrArg Directory.roles directory
  have info : post.roleInfo = d.roleInfo := congrArg Directory.roleInfo directory
  have isCopy : ∀ r, IsCopyOf mod post r ↔ IsCopyOf mod d r := by
    simp [IsCopyOf, info]
  refine
    { status := congrArg Directory.status directory
      users := congrArg Directory.users directory
      assignments := fun t notGrant _ => partly.assignments t notGrant
      rolesKept := fun r mem _ => ⟨roles ▸ mem, by rw [info]⟩
      rolesOld := fun r mem _ => ⟨roles ▸ mem, by rw [info]⟩
      copiesKept := fun r mem copy =>
        ⟨r, roles ▸ mem, rfl, rfl, (isCopy r).mpr copy⟩
      catalogue := fun p _ =>
        ⟨by rw [show post.mirror.catalogue = _ from congrArg Directory.catalogue directory]; rfl,
          congrFun (congrArg Directory.permissionInfo directory) p⟩
      grants := ?_
      kept := ?_
      own := ?_ }
  · intro s p other ungiven
    refine partly.ledger.unchanged fun isKey => ⟨fun isWanted => ?_, fun row => ?_⟩
    · grind
    · subst isKey
      exact keeps p other row
  · intro s p other
    refine ⟨fun row => partly.ledger.rowsKept s p row fun isKey => ?_,
      fun fact => partly.ledger.factsKept s p fact fun isKey row => ?_⟩
    · subst isKey
      exact keeps p other row
    · subst isKey
      exact keeps p other row
  · intro row mem copy p listed
    have stored : row ∈ d.mirror.roles := roles ▸ mem
    rcases partly.ledger.rowsMade row.slug p listed with old | ⟨isKey, isWanted⟩
    · exact own row stored ((isCopy row).mp copy) p old
    grind

theorem rows_insertRole (fresh : r.id ∉ m.roles.map Role.id) :
    Named (m.roles ++ [r]) (fun id => (id, p) ∈ m.permissions) s ↔
      Named m.roles (fun id => (id, p) ∈ m.permissions) s :=
  named_append fun stored => fresh (m.integrity.permissions _ stored)

theorem Isolated.of_insert (own : OwnGrants mod d) {r : Role} {info : RoleInfo}
    (isNew : r.origin = .ofModule ∧ info.moduleName = mod)
    (inserted : d.insertRole r info = some post) :
    Isolated mod given d post := by
  obtain ⟨fresh, named, rfl⟩ := TenantData.insertRole_eq_some inserted
  have sameInfo : ∀ row ∈ d.mirror.roles,
      Function.update d.roleInfo r.id info row.id = d.roleInfo row.id := fun _ =>
    TenantData.roleInfo_insert fresh.1
  have newCopy : ∀ row, row ∈ d.mirror.roles ++ [r] → row ∉ d.mirror.roles →
      row = r := fun row mem other =>
    List.mem_singleton.mp ((List.mem_append.mp mem).resolve_left other)
  refine
    { (Isolated.refl own : Isolated mod given d d) with
      rolesKept := fun row mem _ => ⟨List.mem_append_left _ mem, sameInfo row mem⟩
      rolesOld := ?_
      copiesKept := ?_
      grants := fun s p _ _ => ⟨rows_insertRole fresh.1, Iff.rfl⟩
      kept := fun s p _ => ⟨(rows_insertRole fresh.1).mpr, fun fact => fact⟩
      own := ?_ }
  · intro row mem other
    by_cases stored : row ∈ d.mirror.roles
    · exact ⟨stored, sameInfo row stored⟩
    · rw [newCopy row mem stored] at other
      refine absurd ⟨isNew.1, ?_⟩ other
      simp [isNew.2]
  · intro row mem copy
    refine ⟨row, List.mem_append_left _ mem, rfl, rfl, copy.1, ?_⟩
    exact (congrArg RoleInfo.moduleName (sameInfo row mem)).trans copy.2
  · intro row mem copy p listed
    have old := (rows_insertRole fresh.1).mp listed
    obtain ⟨stored, storedMem, sameSlug, -⟩ := old
    by_cases isOld : row ∈ d.mirror.roles
    · have sameModule := congrArg RoleInfo.moduleName (sameInfo row isOld)
      exact own row isOld ⟨copy.1, sameModule.symm.trans copy.2⟩ p
        ((rows_insertRole fresh.1).mp listed)
    · rw [newCopy row mem isOld] at sameSlug
      grind

theorem rows_retireModuleRole {id : RoleID} : Named (m.toTables.retireModuleRole id retired).roles
        (fun id => (id, p) ∈ m.permissions) s ↔
      Named m.roles (fun id => (id, p) ∈ m.permissions) s := by
  constructor
  · grind [Tables.of_mem_retireModuleRole, Named]
  · rintro ⟨r, mem, isSlug, listed⟩
    refine ⟨_, List.mem_map_of_mem mem, ?_, ?_⟩
    · split <;> exact isSlug
    · split <;> exact listed

theorem Isolated.of_update (own : OwnGrants mod d) (mem : r ∈ d.mirror.roles)
    (copy : IsCopyOf mod d r) {dn desc : String}
    (updated : d.updateModuleRole r.id dn desc retired = some post) :
    Isolated mod given d post := by
  obtain rfl := TenantData.updateModuleRole_eq_some updated
  have sameModule := fun id => (d.roleInfo_renamed r.id id dn desc).1
  have otherRow : ∀ row ∈ d.mirror.roles, ¬IsCopyOf mod d row →
      row.id ≠ r.id := fun row rowMem other same =>
    other (eq_of_uniqueKey d.mirror.integrity.roles rowMem mem same ▸ copy)
  refine
    { (Isolated.refl own : Isolated mod given d d) with
      rolesKept := ?_
      rolesOld := ?_
      copiesKept := ?_
      grants := fun s p _ _ => ⟨rows_retireModuleRole, Iff.rfl⟩
      kept := fun s p _ => ⟨rows_retireModuleRole.mpr, fun fact => fact⟩
      own := ?_ }
  · intro row rowMem other
    have differs := otherRow row rowMem other
    refine ⟨mem_updateWhere.mpr ⟨row, rowMem, ?_⟩, Function.update_of_ne differs _ _⟩
    simp [differs]
  · intro row rowMem other
    obtain ⟨old, stored, sameID, -, sameOrigin, same⟩ :=
      Tables.of_mem_retireModuleRole rowMem
    have oldOther : ¬IsCopyOf mod d old := fun isCopy =>
      other ⟨sameOrigin.trans isCopy.1, (sameModule row.id).trans (sameID ▸ isCopy.2)⟩
    grind
  · intro row rowMem isCopy
    refine ⟨_, List.mem_map_of_mem rowMem, ?_, ?_, ?_, ?_⟩
    · split <;> rfl
    · split <;> rfl
    · split <;> exact isCopy.1
    · refine (sameModule _).trans ?_
      split <;> exact isCopy.2
  · intro row rowMem isCopy p listed
    obtain ⟨old, stored, sameID, sameSlug, sameOrigin, -⟩ :=
      Tables.of_mem_retireModuleRole rowMem
    have oldCopy : IsCopyOf mod d old :=
      ⟨sameOrigin.symm.trans isCopy.1, sameID ▸ (sameModule row.id).symm.trans isCopy.2⟩
    exact own old stored oldCopy p (sameSlug ▸ rows_retireModuleRole.mp listed)

end Isolated

/-! ### Calls -/

/-- Work that stays isolated from `pre` on, however far it gets. -/
abbrev Safe (mod : String) (given : Slug → Permission → Prop) (pre : TenantData)
    {α : Type} (work : Work α) : Prop :=
  Stays (Isolated mod given) pre work

section Safe

variable {mod : String} {given : Slug → Permission → Prop} {known : List Permission}

/-- What setting a role's grants needs: see `Isolated.of_partly`. -/
structure MaySet (mod : String) (given : Slug → Permission → Prop) (d : TenantData)
    (r : Role) (want : Permission → Prop) : Prop where
  listed : Listed d r
  keeps : ∀ p, p.moduleName ≠ mod → d.ledger.rows r.slug p → want p
  gives : ∀ p, p.moduleName ≠ mod → want p → d.ledger.rows r.slug p ∨ given r.slug p
  copies : ∀ row ∈ d.mirror.roles, row.slug = r.slug → IsCopyOf mod d row →
    ∀ p, want p → p.moduleName = mod

variable {want : Permission → Prop} {refs : List Permission} {texts : List String}

theorem MaySet.isolated {d post : TenantData} (may : MaySet mod given d r want)
    (own : OwnGrants mod d) (partly : PartlyAssigned d r want post) :
    Isolated mod given d post :=
  Isolated.of_partly own partly may.keeps may.gives may.copies

theorem builtinRole_isSome {d : TenantData} (mem : r ∈ d.mirror.roles)
    (builtin : r.origin = .builtin) : (builtinRole d r.slug).isSome := by
  grind [builtinRole.eq_1]

theorem not_isCopyOf_of_builtin {d : TenantData} (builtin : r.origin = .builtin) :
    ¬IsCopyOf mod d r := by
  rintro ⟨ofModule, -⟩
  rw [builtin] at ofModule
  cases ofModule

theorem copies_of_builtin {d : TenantData} (mem : r ∈ d.mirror.roles)
    (builtin : r.origin = .builtin) {holds : Prop} :
    ∀ row ∈ d.mirror.roles, row.slug = r.slug → IsCopyOf mod d row → holds := by
  grind [mirror_eq_of_slug, not_isCopyOf_of_builtin]

theorem Isolated.kept_as {pre d : TenantData} (isolated : Isolated mod given pre d)
    (mem : r ∈ pre.mirror.roles) : ∃ row, KeptAs pre r d row := by
  by_cases copy : IsCopyOf mod pre r
  · obtain ⟨row, rowMem, sameID, sameSlug, isCopy⟩ := isolated.copiesKept r mem copy
    exact ⟨row, rowMem, sameID, sameSlug, isCopy.1.trans copy.1.symm, isCopy.2.trans copy.2.symm⟩
  · obtain ⟨stored, same⟩ := isolated.rolesKept r mem copy
    exact ⟨r, stored, rfl, rfl, rfl, congrArg RoleInfo.moduleName same⟩

theorem Reason.isolated {d post : TenantData} (own : OwnGrants mod d)
    (why : Reason mod d r want) (partly : PartlyAssigned d r want post) :
    Isolated mod given d post := by
  cases why with
  | copy listed owned =>
    obtain ⟨row, mem, -, sameSlug, copy⟩ := listed
    refine Isolated.of_partly own partly (fun p other old => ?_)
      (fun p other wanted => absurd (owned p wanted).2 other)
      fun _ _ _ _ p wanted => (owned p wanted).2
    exact absurd (own row mem copy p (sameSlug ▸ old)) other
  | migrated listed keeps becomes =>
    refine Isolated.of_partly own partly (fun p _ => keeps p)
      (fun p other wanted =>
        Or.inl ((becomes p wanted).resolve_right fun isNew => other isNew.1))
      fun row mem sameSlug copy p wanted => ?_
    rcases becomes p wanted with old | isNew
    · exact own row mem copy p (sameSlug ▸ old)
    · exact isNew.1
  | revoked listed builtin keeps fewer =>
    exact Isolated.of_partly own partly keeps (fun p _ wanted =>
      Or.inl (fewer p wanted)) fun row mem sameSlug copy =>
        absurd copy.1 (builtin row mem sameSlug)

/-- A registration of the module leaves the others alone. -/
theorem isolated_walks {defs : List ModuleRoleDef} : Walks mod defs (Isolated mod given) where
  trans := Isolated.trans
  still := fun isolated => Isolated.refl isolated.own
  kept := fun isolated _ mem => isolated.kept_as mem
  permission := fun {d p info} isolated ofModule => by
    refine Isolated.of_same isolated.own rfl rfl rfl rfl rfl (fun _ _ => Iff.rfl)
      fun other foreign => ?_
    have differs : other ≠ p := by
      rintro rfl
      exact foreign ofModule
    refine ⟨Tables.mem_upsertPermission.trans ?_, Function.update_of_ne differs _ _⟩
    simp [differs]
  modules := fun isolated =>
    Isolated.of_same isolated.own rfl rfl rfl rfl rfl (fun _ _ => Iff.rfl) fun _ _ => ⟨Iff.rfl, rfl⟩
  tuples := fun isolated same =>
    Isolated.of_same isolated.own rfl rfl rfl rfl rfl same fun _ _ => ⟨Iff.rfl, rfl⟩
  grants := fun isolated why partly => why.isolated isolated.own partly
  insert := fun isolated _ _ inserted => Isolated.of_insert isolated.own ⟨rfl, rfl⟩ inserted
  update := fun isolated _ listed _ updated => by
    obtain ⟨row, mem, sameID, -, copy⟩ := listed
    exact Isolated.of_update isolated.own mem copy (sameID.symm ▸ updated)

theorem mem_grantedRefs (isRefs : grantedRefs mod known texts = some refs) :
    p ∈ refs ↔ ∃ text ∈ texts, ∃ found, qualify mod text = some found
      ∧ (p = found ∨ (p = found.legacy ∧ p ∈ known)) := by
  induction texts generalizing refs with
  | nil =>
    cases isRefs
    simp
  | cons text rest ih =>
    unfold grantedRefs at isRefs
    split at isRefs
    case h_2 => cases isRefs
    case h_1 found others qualified isOthers =>
      cases isRefs
      have remaining := ih isOthers
      have head : (∃ other, some found = some other
          ∧ (p = other ∨ (p = other.legacy ∧ p ∈ known))) ↔
          p = found ∨ (p = found.legacy ∧ p ∈ known) := by simp
      simp only [List.mem_cons, exists_eq_or_imp, qualified, head, or_assoc]
      apply or_congr_right
      rw [← remaining]
      by_cases isKnown : found.legacy ∈ known
      · rw [if_pos (by simpa using isKnown), List.mem_cons]
        apply or_congr_left
        exact ⟨fun same => ⟨same, same ▸ isKnown⟩, And.left⟩
      · rw [if_neg (by simpa using isKnown)]
        refine ⟨Or.inr, fun mem => mem.resolve_left ?_⟩
        rintro ⟨rfl, stored⟩
        exact isKnown stored

theorem grantedRefs_qualified (isRefs : grantedRefs mod known texts = some refs)
    {text : String} (mem : text ∈ texts) : ∃ found, qualify mod text = some found := by
  induction texts generalizing refs with
  | nil => cases mem
  | cons first rest ih =>
    unfold grantedRefs at isRefs
    grind

end Safe

end TangraAuth.Authz

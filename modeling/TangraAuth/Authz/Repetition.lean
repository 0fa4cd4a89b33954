import TangraAuth.Authz.Convergence

/-!
Contract: the visit of a tenant in which a registration has nothing left to do.

Owns: calls that find what they would write, and each step of a visit on a
converged tenant. Such a visit writes no tuple and withdraws no grant, and it
stops only at a call that fails.

Does not own: the platform's catalogue, and the loop over the tenants.
-/

namespace TangraAuth.Authz

open Library Accounts

/-- Nothing was written but what goes with a permission's reference. -/
structure Unmoved (pre post : TenantData) : Prop where
  status : post.status = pre.status
  mirror : post.mirror = pre.mirror
  roleInfo : post.roleInfo = pre.roleInfo
  modules : post.modules = pre.modules
  tuples : post.tuples = pre.tuples
  version : post.version = pre.version

/-- Every call is answered. -/
def Faultless (fs : CallFaults) : Prop := ∀ number, fs number = none

/-- Work that moves nothing in the tenant. -/
abbrev Idle (fs : CallFaults) (init : TenantData) {α : Type} (work : Work α)
    (returned : α → Prop) : Prop :=
  Maintains (Site.meets (Unmoved init)) (¬Faultless fs) work returned

section Calls

variable {fs : CallFaults} {init d : TenantData} {r : Role}

theorem Unmoved.refl : Unmoved d d := ⟨rfl, rfl, rfl, rfl, rfl, rfl⟩

variable {α : Type} {returned : α → Prop}

theorem call_answered {pre stopped : Site → Prop} {post : α → Site → Prop}
    {stmt : TenantData → Except RegisterError (α × TenantData)}
    (undone : ∀ site, pre site → stopped ⟨site.data, site.calls + 1⟩)
    (done : ∀ site, pre site → ∃ val next, stmt site.data = .ok (val, next)
      ∧ post val ⟨next, site.calls + 1⟩ ∧ stopped ⟨next, site.calls + 1⟩) :
    Triple pre (call fs stmt) post fun site => stopped site ∧ ¬Faultless fs := by
  intro site met
  grind [Meets, Faultless, call]

theorem maintains_call {kept : Site → Prop}
    {stmt : TenantData → Except RegisterError (α × TenantData)}
    (undone : ∀ site, kept site → kept ⟨site.data, site.calls + 1⟩)
    (done : ∀ site, kept site → ∃ val next, stmt site.data = .ok (val, next)
      ∧ kept ⟨next, site.calls + 1⟩ ∧ returned val) :
    Maintains kept (¬Faultless fs) (call fs stmt) returned := by
  refine call_answered undone fun site met => ?_
  grind

theorem Idle.call {stmt : TenantData → Except RegisterError (α × TenantData)}
    (done : ∀ d, Unmoved init d → ∃ val next, stmt d = .ok (val, next)
      ∧ Unmoved init next ∧ returned val) :
    Idle fs init (call fs stmt) returned :=
  maintains_call (fun _ unmoved => unmoved) fun site unmoved => done site.data unmoved

theorem Idle.query {v : TenantData → α} :
    Idle fs init (query fs v) fun val =>
      ∃ d, Unmoved init d ∧ val = v d :=
  Idle.call fun d unmoved => ⟨v d, d, rfl, unmoved, d, unmoved, rfl⟩

theorem Idle.perform {stmt : TenantData → TenantData}
    (stays : ∀ d, Unmoved init d → Unmoved init (stmt d)) :
    Idle fs init (perform fs stmt) fun _ => True :=
  Idle.call fun d unmoved => ⟨(), stmt d, rfl, stays d unmoved, trivial⟩

theorem Idle.setGrants {want : List Permission}
    (same : ∀ p, p ∈ want ↔ p ∈ init.mirror.rolePermissions r.id) :
    Idle fs init (setGrants fs r want) fun _ => True := by
  refine Maintains.bind Idle.query fun current isCurrent => ?_
  obtain ⟨d, unmoved, rfl⟩ := isCurrent
  rw [unmoved.mirror]
  have noAdds : newGrants r.slug (init.mirror.rolePermissions r.id) (dedupe [] want) = [] :=
    newGrants_eq_nil.mpr fun p isWanted =>
      (same p).mp (mem_dedupe.mp isWanted).1
  have noRemoves : newGrants r.slug (dedupe [] want) (init.mirror.rolePermissions r.id) = [] :=
    newGrants_eq_nil.mpr fun p listed =>
      mem_dedupe.mpr ⟨(same p).mpr listed, List.not_mem_nil⟩
  simp only [noAdds, noRemoves, List.isEmpty_nil, Bool.and_self, ↓reduceIte]
  exact Maintains.pure trivial

theorem Idle.addGrants {perms : List Permission}
    (listed : ∀ p ∈ perms, p ∈ init.mirror.rolePermissions r.id) :
    Idle fs init (addGrants fs r perms) fun _ => True := by
  refine Maintains.bind Idle.query fun current isCurrent => ?_
  obtain ⟨d, unmoved, rfl⟩ := isCurrent
  rw [unmoved.mirror]
  refine Maintains.bind (Idle.setGrants fun p => ?_) fun _ _ => Maintains.pure trivial
  grind

end Calls

section Steps

variable {fs : CallFaults} {nid : Nat → RoleID} {reg : Registration}
  {defs : List ModuleRoleDef} {df : ModuleRoleDef} {init : TenantData}
  {mod registrant : String} {perms : List PermissionDef} {r : Role}

/-! ### Permissions and the marker -/

theorem Unmoved.upsertPermission {d : TenantData} {p : Permission} {info : PermissionInfo}
    (unmoved : Unmoved init d) (known : p ∈ init.mirror.catalogue) :
    Unmoved init (d.upsertPermission p info) := by
  refine ⟨unmoved.status, Eq.trans ?_ unmoved.mirror, unmoved.roleInfo, unmoved.modules,
    unmoved.tuples, unmoved.version⟩
  have stored : p ∈ d.mirror.catalogue := unmoved.mirror ▸ known
  unfold TenantData.upsertPermission Tables.upsertPermission
  simp only [stored, ↓reduceIte]

theorem Idle.upsertPermissions {known : Permission → Option String}
    (stored : ∀ p ∈ perms, p.ref mod ∈ init.mirror.catalogue) :
    Idle fs init (upsertPermissions fs mod registrant known perms) fun _ => True := by
  induction perms generalizing known with
  | nil => exact Maintains.pure trivial
  | cons p rest ih =>
    have later := fun other mem => stored other (List.mem_cons_of_mem _ mem)
    unfold Authz.upsertPermissions
    split
    case isTrue => exact ih later
    case isFalse =>
      refine Maintains.bind (Idle.perform fun d unmoved => ?_) fun _ _ =>
        ih later
      exact unmoved.upsertPermission (stored p List.mem_cons_self)

theorem Idle.registerPermissions (valid : validDefs mod perms = true)
    (stored : ∀ p ∈ perms, p.ref mod ∈ init.mirror.catalogue) :
    Idle fs init (registerPermissions fs mod registrant perms) fun _ => True := by
  unfold Authz.registerPermissions
  rw [if_pos valid]
  refine Maintains.bind Idle.query fun known isKnown => ?_
  obtain ⟨d, unmoved, rfl⟩ := isKnown
  have noneNew : ¬(perms.any fun p =>
      (knownDescriptions d (p.ref mod)).isNone) = true := by
    rw [List.any_eq_true]
    rintro ⟨p, mem, isNew⟩
    rw [knownDescriptions, unmoved.mirror, if_pos (stored p mem)] at isNew
    cases isNew
  unfold writeNew
  rw [if_neg noneNew]
  have nothing : Idle fs init (pure () : Work Unit) fun _ => True := Maintains.pure trivial
  exact Maintains.bind nothing fun _ _ =>
    Maintains.bind (Idle.upsertPermissions stored) fun _ _ => Maintains.pure trivial

theorem Idle.migrate (marked : ∃ row, init.tenantModule mod = some row ∧ row.migrated = true) :
    Idle fs init (migrate fs mod) fun _ => True := by
  obtain ⟨row, isRow, isMarked⟩ := marked
  have isNamed : (row.name == mod) = true := by
    have sel := List.find?_some isRow
    exact sel
  have present : (init.modules.any fun row => row.name == mod) = true :=
    List.any_eq_true.mpr ⟨row, List.mem_of_find?_eq_some isRow, isNamed⟩
  have stays : ∀ d, Unmoved init d → Unmoved init (d.ensureTenantModule mod) := by
    intro d unmoved
    refine ⟨unmoved.status, unmoved.mirror, unmoved.roleInfo, ?_, unmoved.tuples, unmoved.version⟩
    unfold TenantData.ensureTenantModule
    simp only [unmoved.modules, present, ↓reduceIte]
  have ensured := @Idle.perform fs init _ stays
  refine Maintains.bind ensured fun _ _ => Maintains.bind Idle.query fun read isRead => ?_
  obtain ⟨d, unmoved, rfl⟩ := isRead
  have found : d.tenantModule mod = some row := by
    unfold TenantData.tenantModule
    rw [unmoved.modules]
    exact isRow
  rw [found]
  simp only [isMarked, ↓reduceIte]
  exact Maintains.pure trivial

/-! ### Role copies -/

/-- A copy in sync has the fields, so its row is not written. -/
theorem Idle.updateCopy (inSync : InSync mod df init) {listed : TenantData}
    (unmoved : Unmoved init listed) (copy : CopyRow mod df.slug init r) :
    Idle fs init (updateCopy fs listed df r) fun _ => True := by
  obtain ⟨sameName, sameDescription, sameRetired⟩ := inSync.fields r copy.1 copy.2
  unfold Authz.updateCopy
  rw [unmoved.roleInfo, if_neg (by simp [sameName, sameDescription, sameRetired])]
  exact Maintains.pure trivial

theorem Idle.syncRole (inSync : InSync mod df init) {listed : TenantData}
    (unmoved : Unmoved init listed) :
    Idle fs init (syncRole fs nid mod listed init.mirror.catalogue df) fun _ => True := by
  have sameCopy : listed.moduleRole mod df.slug = init.moduleRole mod df.slug := by
    unfold TenantData.moduleRole TenantData.isCopy
    rw [unmoved.mirror, unmoved.roleInfo]
  unfold Authz.syncRole
  rw [sameCopy]
  split
  case h_1 r found =>
    obtain ⟨mem, copy, ofSlug⟩ := TenantData.moduleRole_eq_some found
    have row : CopyRow mod df.slug init r :=
      copyRow_iff.mpr ⟨mem, copy.1, copy.2, ofSlug⟩
    refine Maintains.bind (Idle.updateCopy inSync unmoved row) fun _ _ =>
      Maintains.bind (Idle.setGrants fun p => ?_) fun _ _ => Maintains.pure trivial
    exact (inSync.grants r row p).symm
  case h_2 none =>
    split
    case isTrue => exact Maintains.pure trivial
    case isFalse isCurrent =>
      exact absurd (inSync.present (by simpa using isCurrent)) (not_hasCopy_of_moduleRole none)

theorem Idle.syncRoles (inSync : ∀ df ∈ defs, InSync mod df init) :
    Idle fs init (syncRoles fs nid mod defs) fun _ => True := by
  refine Maintains.bind Idle.query fun listed isListed => ?_
  obtain ⟨_, unmoved, rfl⟩ := isListed
  refine Maintains.bind Idle.query fun known isKnown => ?_
  obtain ⟨d, sameKnown, rfl⟩ := isKnown
  rw [sameKnown.mirror]
  exact Maintains.bind (Maintains.each fun df mem =>
    Idle.syncRole (inSync df mem) unmoved) fun _ _ => Maintains.pure trivial

/-! ### Built-in grants -/

theorem Idle.revokeRole (converged : Converged reg defs init)
    (mem : r ∈ init.mirror.roles) (builtin : r.origin = .builtin) :
    Idle fs init (revokeRole fs reg.moduleName reg.grants r) (· = 0) := by
  refine Maintains.bind Idle.query fun current isCurrent => ?_
  obtain ⟨d, unmoved, rfl⟩ := isCurrent
  rw [unmoved.mirror]
  have all : (init.mirror.rolePermissions r.id).all
      (keeps reg.moduleName reg.grants r.slug) = true := by
    refine List.all_eq_true.mpr fun p listed => keeps_iff.mpr ?_
    by_cases ofModule : p.moduleName = reg.moduleName
    · exact Or.inr ((converged.builtins r mem builtin p ofModule).mp listed)
    · exact Or.inl ofModule
  rw [if_pos all]
  exact Maintains.pure rfl

theorem Idle.revokeDeclared (converged : Converged reg defs init) :
    Idle fs init (revokeDeclared fs reg) (· = 0) := by
  have qualified : (reg.grants.all fun grant => grant.permissions.all fun text =>
      (qualify reg.moduleName text).isSome) = true := by
    refine List.all_eq_true.mpr fun grant mem => List.all_eq_true.mpr fun text isText => ?_
    obtain ⟨refs, isRefs, -⟩ := converged.given grant mem
    obtain ⟨found, isFound⟩ := grantedRefs_qualified isRefs isText
    simp [isFound]
  unfold Authz.revokeDeclared revokeBuiltin
  rw [if_pos qualified]
  split
  case isFalse => exact Maintains.pure rfl
  case isTrue =>
    refine Maintains.bind Idle.query fun roles isRoles => ?_
    obtain ⟨d, unmoved, rfl⟩ := isRoles
    rw [unmoved.mirror]
    refine Maintains.bind (Maintains.each fun r listed => ?_) fun counts allZero =>
      Maintains.pure (List.sum_eq_zero_iff_forall_eq_nat.mpr allZero)
    obtain ⟨mem, builtin⟩ := List.mem_filter.mp listed
    exact Idle.revokeRole converged mem (by simpa using builtin)

theorem Idle.grantBuiltin (converged : Converged reg defs init)
    {grant : BuiltinGrant} (mem : grant ∈ reg.grants) :
    Idle fs init (grantBuiltin fs reg.moduleName grant) fun _ => True := by
  obtain ⟨refs, isRefs, given⟩ := converged.given grant mem
  refine Maintains.bind Idle.query fun known isKnown => ?_
  obtain ⟨d, sameKnown, rfl⟩ := isKnown
  rw [sameKnown.mirror, isRefs]
  refine Maintains.bind Idle.query fun read isRead => ?_
  obtain ⟨d, unmoved, rfl⟩ := isRead
  have sameRole : builtinRole d grant.role = builtinRole init grant.role := by
    unfold builtinRole
    rw [unmoved.mirror]
  rw [sameRole]
  split
  case h_1 => exact Maintains.pure trivial
  case h_2 r found =>
    obtain ⟨stored, isSlug, builtin⟩ := builtinRole_eq_some found
    exact Maintains.bind (Idle.addGrants (given r stored builtin isSlug)) fun _ _ =>
      Maintains.pure trivial

/-- A second visit moves nothing and withdraws nothing. -/
theorem Idle.visit (converged : Converged reg defs init)
    (valid : validDefs reg.moduleName reg.permissions = true)
    (direct : reg.delegate = "") :
    Idle fs init (visit fs nid reg defs) fun visit => visit.revoked = 0 := by
  unfold Authz.visit visitRoles
  refine Maintains.bind (Idle.registerPermissions valid converged.known) fun registered _ =>
    Maintains.bind (Idle.migrate converged.marked) fun _ _ => ?_
  rw [if_neg (not_not.mpr direct)]
  refine Maintains.bind (Idle.syncRoles converged.copies) fun _ _ =>
    Maintains.bind (Idle.revokeDeclared converged) fun revoked isZero => ?_
  exact Maintains.bind (Maintains.each fun grant mem => Idle.grantBuiltin converged mem)
    fun _ _ => Maintains.pure isZero

end Steps

end TangraAuth.Authz

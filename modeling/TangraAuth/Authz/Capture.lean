import TangraAuth.Authz.Isolation

/-!
Contract: the decisions on other modules' permissions that a registration changes.

Owns: the legacy permissions that built-in grants give, the visit of a tenant and
the loop over the tenants, and the exact condition under which a registration
changes a decision on another module's permission.

Does not own: the calls of a registration one by one.
-/

namespace TangraAuth.Authz

open Library Store Accounts

/-! ### Built-in grants and legacy permissions -/

/-- A legacy permission that a built-in grant gives a role that does not list it: one of those
it names that the tenant still has. -/
def GivesBy (init : TenantData) (grant : BuiltinGrant) (p : Permission) : Prop :=
  p ∈ init.mirror.catalogue ∧ (builtinRole init grant.role).isSome ∧ ¬init.ledger.rows grant.role p
    ∧ ∃ text ∈ grant.permissions, parseLegacy text = some p

def GivesLegacy (reg : Registration) (init : TenantData) (s : Slug) (p : Permission) : Prop :=
  ∃ grant ∈ reg.grants, grant.role = s ∧ GivesBy init grant p

section Delivered

variable {fs : CallFaults} {reg : Registration} {init d post : TenantData}
  {grant : BuiltinGrant} {r : Role} {refs : List Permission}

/-- The role got every legacy permission that the grant gives it. -/
def Delivered (init : TenantData) (grant : BuiltinGrant) (d : TenantData) : Prop :=
  ∀ p, GivesBy init grant p → d.ledger.facts grant.role p

/-- Outside the module, a row that is new is granted by a tuple. -/
def Backed (mod : String) (init d : TenantData) : Prop :=
  ∀ s p, p.moduleName ≠ mod → d.ledger.rows s p → ¬init.ledger.rows s p → d.ledger.facts s p

theorem GivesBy.moduleName {p : Permission} (gives : GivesBy init grant p) : p.moduleName = "" := by
  obtain ⟨-, -, -, text, -, parsed⟩ := gives
  simpa [Permission.isLegacy] using (parseLegacy_eq_some_iff.mp parsed).2

/-- A reference of the grant outside the module is a legacy permission that the grant gives,
unless the role lists it. -/
theorem maySet_refs (mem : grant ∈ reg.grants)
    (since : Isolated reg.moduleName (GivesLegacy reg init) init d)
    (found : builtinRole d grant.role = some r)
    (isRefs : grantedRefs reg.moduleName d.mirror.catalogue grant.permissions = some refs) :
    MaySet reg.moduleName (GivesLegacy reg init) d r
      fun p => d.ledger.rows r.slug p ∨ p ∈ refs := by
  obtain ⟨stored, isSlug, builtin⟩ := builtinRole_eq_some found
  refine ⟨⟨r, stored, rfl, rfl⟩, fun _ _ => Or.inl, fun p other isWanted => ?_,
    fun row rowMem sameSlug copy p _ =>
      copies_of_builtin stored builtin row rowMem sameSlug copy⟩
  rcases isWanted with old | isRef
  · exact Or.inl old
  by_cases listed : init.ledger.rows r.slug p
  · exact Or.inl ((since.kept _ _ other).1 listed)
  obtain ⟨text, isText, qualified, isQualified, same | ⟨isLegacy, known⟩⟩ :=
    (mem_grantedRefs isRefs).mp isRef
  · exact absurd (same ▸ (qualify_eq_some.mp isQualified).2.1) other
  · obtain ⟨old, -⟩ := since.rolesOld r stored (not_isCopyOf_of_builtin builtin)
    refine Or.inr ⟨grant, mem, isSlug.symm, (since.catalogue p other).1.mp known,
      isSlug ▸ builtinRole_isSome old builtin, isSlug ▸ listed, text, isText, ?_⟩
    exact isLegacy ▸ (qualify_eq_some.mp isQualified).2.2

theorem Backed.assigned (backed : Backed reg.moduleName init d)
    (assigned : Assigned d r (fun p =>
      d.ledger.rows r.slug p ∨ p ∈ refs) post) :
    Backed reg.moduleName init post := by
  intro slug p other row unlisted
  rw [assigned.ledger] at row ⊢
  by_cases isKey : slug = r.slug
  · subst isKey
    rw [Ledger.assign_rows_self] at row
    rw [Ledger.assign_facts_self]
    exact ⟨fun old => ⟨row, backed r.slug p other old unlisted⟩, fun _ => Or.inl row⟩
  · rw [Ledger.assign_rows_other isKey] at row
    rw [Ledger.assign_facts_other isKey]
    exact backed slug p other row unlisted

theorem delivered_of_assigned (named : reg.moduleName ≠ "")
    (since : Isolated reg.moduleName (GivesLegacy reg init) init d)
    (backed : Backed reg.moduleName init d)
    (isSlug : r.slug = grant.role)
    (isRefs : grantedRefs reg.moduleName d.mirror.catalogue grant.permissions = some refs)
    (assigned : Assigned d r (fun p =>
      d.ledger.rows r.slug p ∨ p ∈ refs) post) :
    Delivered init grant post := by
  intro p gives
  have other : p.moduleName ≠ reg.moduleName :=
    gives.moduleName ▸ named.symm
  obtain ⟨known, -, unlisted, text, isText, parsed⟩ := gives
  have isRef : p ∈ refs := by
    obtain ⟨found, qualified⟩ := grantedRefs_qualified isRefs isText
    have isLegacy := (qualify_eq_some.mp qualified).2.2
    rw [parsed] at isLegacy
    refine (mem_grantedRefs isRefs).mpr ⟨text, isText, found, qualified, Or.inr ⟨?_, ?_⟩⟩
    · exact Option.some.inj isLegacy
    · exact (since.catalogue p other).1.mpr known
  rw [assigned.ledger, ← isSlug, Ledger.assign_facts_self]
  exact ⟨fun old => ⟨Or.inr isRef, backed r.slug p other old (isSlug ▸ unlisted)⟩,
    fun _ => Or.inl (Or.inr isRef)⟩

theorem delivered_of_none (since : Isolated reg.moduleName (GivesLegacy reg init) init d)
    (lacks : builtinRole d grant.role = none) : Delivered init grant d := by
  intro p gives
  obtain ⟨role, found⟩ := Option.isSome_iff_exists.mp gives.2.1
  obtain ⟨stored, isSlug, builtin⟩ := builtinRole_eq_some found
  have kept := (since.rolesKept role stored (not_isCopyOf_of_builtin builtin)).1
  have still := builtinRole_isSome kept builtin
  rw [isSlug, lacks] at still
  cases still

/-- Isolated from the start, with new rows outside the module backed by tuples. -/
def Granting (reg : Registration) (init d : TenantData) : Prop :=
  Isolated reg.moduleName (GivesLegacy reg init) init d ∧ Backed reg.moduleName init d

theorem grantBuiltin_spec (named : reg.moduleName ≠ "")
    (mem : grant ∈ reg.grants) (granting : Granting reg init d) :
    Triple (Site.meets (· = d)) (grantBuiltin fs reg.moduleName grant)
      (fun _ => Site.meets fun post =>
        Isolated reg.moduleName (GivesLegacy reg init) d post
          ∧ Backed reg.moduleName init post ∧ Delivered init grant post)
      (Site.meets (Isolated reg.moduleName (GivesLegacy reg init) d)) := by
  obtain ⟨since, backed⟩ := granting
  have unchanged : ∀ other, other = d → Isolated reg.moduleName (GivesLegacy reg init) d other := by
    rintro other rfl
    exact Isolated.refl since.own
  refine query_bind unchanged fun other same => ?_
  subst same
  split
  case h_1 => exact Triple.fail fun site same => unchanged site.data same
  case h_2 refs isRefs =>
    refine query_bind unchanged fun other same => ?_
    subst same
    split
    case h_1 lacks =>
      refine Triple.pure fun site same => ?_
      rw [Site.meets, same]
      exact ⟨unchanged _ rfl, backed, delivered_of_none since lacks⟩
    case h_2 r found =>
      have may := maySet_refs mem since found isRefs
      refine Triple.returning ((addGrants_listed may.listed).weaken (fun _ same => same)
        (fun _ site assigned => ?_) fun _ partly => may.isolated since.own partly)
      exact ⟨may.isolated since.own assigned.partly, backed.assigned assigned,
        delivered_of_assigned named since backed (builtinRole_eq_some found).2.1 isRefs assigned⟩

theorem Delivered.later (named : reg.moduleName ≠ "") (delivered : Delivered init grant d)
    (isolated : Isolated reg.moduleName (GivesLegacy reg init) d post) :
    Delivered init grant post := fun p gives =>
  (isolated.kept grant.role p (gives.moduleName ▸ named.symm)).2 (delivered p gives)

theorem grantBuiltins_spec (named : reg.moduleName ≠ "") : Triple (Site.meets (Granting reg init))
      (Task.each (grantBuiltin fs reg.moduleName) reg.grants)
      (fun _ => Site.meets fun post => Granting reg init post
        ∧ ∀ grant ∈ reg.grants, Delivered init grant post)
      (Site.meets (Isolated reg.moduleName (GivesLegacy reg init) init)) := by
  have loop := @Triple.each Site RegisterError BuiltinGrant Bool
    (Site.meets (Isolated reg.moduleName (GivesLegacy reg init) init))
    (grantBuiltin fs reg.moduleName) reg.grants
    (fun done => Site.meets fun post => Granting reg init post
      ∧ ∀ grant ∈ done, Delivered init grant post)
  refine (loop fun done grant rest whole => ?_).enter fun _ met => ⟨met, by simp⟩
  apply Site.from
  rintro d ⟨granting, delivered⟩
  refine (grantBuiltin_spec named (by simp [whole]) granting).weaken (fun _ same => same)
    (fun _ next post => ?_) fun _ stopped => granting.1.trans stopped
  refine ⟨⟨granting.1.trans post.1, post.2.1⟩, fun other isDone => ?_⟩
  rcases List.mem_append.mp isDone with isDone | isLast
  · exact (delivered other isDone).later named post.1
  · rw [List.mem_singleton.mp isLast]
    exact post.2.2

variable {nid : Nat → RoleID} {defs : List ModuleRoleDef}

/-- Work before the built-in grants gives nothing outside the module. -/
theorem Safe.quiet {α : Type} {work : Work α}
    (safe : Safe reg.moduleName (fun _ _ => False) init work) :
    Triple (Site.meets (Isolated reg.moduleName (fun _ _ => False) init)) work
      (fun _ => Site.meets (Isolated reg.moduleName (fun _ _ => False) init))
      (Site.meets (Isolated reg.moduleName (GivesLegacy reg init) init)) :=
  safe.stop fun _ stopped =>
    stopped.mono fun _ _ impossible => impossible.elim

theorem Isolated.granting (isolated : Isolated reg.moduleName (fun _ _ => False) init d) :
    Granting reg init d :=
  ⟨isolated.mono fun _ _ impossible => impossible.elim, fun s p other row unlisted =>
    absurd ((isolated.grants s p other id).1.mp row) unlisted⟩

/-- One visit of a tenant: however far it gets, only the given legacy grants are new outside
the module; when it ends, all of them are made. -/
theorem visit_spec (named : reg.moduleName ≠ "") (direct : reg.delegate = "")
    (own : OwnGrants reg.moduleName init) :
    Triple (Site.meets (· = init)) (visit fs nid reg defs)
      (fun _ => Site.meets fun post =>
        Isolated reg.moduleName (GivesLegacy reg init) init post
          ∧ ∀ grant ∈ reg.grants, Delivered init grant post)
      (Site.meets (Isolated reg.moduleName (GivesLegacy reg init) init)) := by
  have begin : ∀ site : Site, site.data = init →
      Site.meets (Isolated reg.moduleName (fun _ _ => False) init) site :=
    fun site same => same ▸ Isolated.refl (same ▸ own)
  have walks := @isolated_walks reg.moduleName (fun _ _ => False) defs
  refine Triple.bind ((Safe.quiet walks.registersPermissions).weaken begin (fun _ _ post => post)
    fun _ stopped => stopped) fun registered => Triple.bind (Safe.quiet walks.migrates) fun _ => ?_
  refine Triple.ite (fun delegated => absurd direct delegated) fun _ => ?_
  refine Triple.bind (Safe.quiet walks.syncsRoles) fun _ =>
    Triple.bind (Safe.quiet (walks.revokesDeclared rfl)) fun _ => ?_
  refine Triple.bind ((grantBuiltins_spec named).enter fun _ met => Isolated.granting met) fun _ =>
    Triple.pure fun _ post => ?_
  exact ⟨post.1.1, post.2⟩

end Delivered

/-! ### Every tenant -/

section World

variable {fs : CallFaults} {nid : Nat → RoleID} {reg : Registration}
  {init w : World} {defs : List ModuleRoleDef}

variable {kept : (TenantID → TenantData) → Prop}

theorem catalogueCall_spec {α : Type} {stmt : Catalogue → α × Catalogue} :
    Triple (fun w : World => kept w.tenants) (catalogueCall fs stmt)
      (fun _ w => kept w.tenants) fun w => kept w.tenants := by
  intro w met
  unfold catalogueCall
  rcases fs w.calls with _ | _ | count <;> exact met

/-- Every tenant is isolated from the registration of this module. -/
def AllIsolated (reg : Registration) (init : World) (tns : TenantID → TenantData) : Prop :=
  ∀ tid, Isolated reg.moduleName (GivesLegacy reg (init.tenants tid)) (init.tenants tid) (tns tid)

theorem GivesLegacy.earlier (named : reg.moduleName ≠ "") {first d : TenantData}
    {given : Slug → Permission → Prop}
    (since : Isolated reg.moduleName given first d) {s : Slug}
    {p : Permission} (gives : GivesLegacy reg d s p) :
    GivesLegacy reg first s p := by
  obtain ⟨grant, mem, isSlug, gives⟩ := gives
  have other : p.moduleName ≠ reg.moduleName := gives.moduleName ▸ named.symm
  obtain ⟨known, hasRole, unlisted, parsed⟩ := gives
  obtain ⟨r, found⟩ := Option.isSome_iff_exists.mp hasRole
  obtain ⟨stored, roleSlug, builtin⟩ := builtinRole_eq_some found
  have old := (since.rolesOld r stored (not_isCopyOf_of_builtin builtin)).1
  exact ⟨grant, mem, isSlug, (since.catalogue p other).1.mp known,
    roleSlug ▸ builtinRole_isSome old builtin,
    fun row => unlisted ((since.kept _ _ other).1 row), parsed⟩

/-- The tenants of `done` got what the registration gives. -/
def AllDelivered (reg : Registration) (init : World) (done : List TenantID)
    (tns : TenantID → TenantData) : Prop :=
  ∀ tid ∈ done, ∀ grant ∈ reg.grants, Delivered (init.tenants tid) grant (tns tid)

variable {tns : TenantID → TenantData}

variable {tid : TenantID} {done : List TenantID}

theorem AllIsolated.update {d : TenantData} (isolated : AllIsolated reg init tns)
    (step : Isolated reg.moduleName (GivesLegacy reg (init.tenants tid)) (tns tid) d) :
    AllIsolated reg init (Function.update tns tid d) := by
  intro other
  by_cases isT : other = tid
  · subst isT
    rw [Function.update_self]
    exact (isolated other).trans step
  · rw [Function.update_of_ne isT]
    exact isolated other

/-- However far a registration gets: every tenant is isolated from it, and those it does not
name are as they were. -/
structure Confined (reg : Registration) (init : World)
    (tns : TenantID → TenantData) : Prop where
  isolated : AllIsolated reg init tns
  unnamed : ∀ tid, tid ∉ reg.tenants → tns tid = init.tenants tid

/-- The loop over the tenants: those of `done` were visited, the others are as they were. -/
structure Visited (reg : Registration) (init : World) (done : List TenantID)
    (tns : TenantID → TenantData) : Prop where
  isolated : AllIsolated reg init tns
  delivered : AllDelivered reg init done tns
  unvisited : ∀ tid, tid ∉ done → tns tid = init.tenants tid

theorem Visited.visit {d : TenantData} (named : reg.moduleName ≠ "")
    (visited : Visited reg init done tns)
    (step : Isolated reg.moduleName (GivesLegacy reg (tns tid)) (tns tid) d)
    (fresh : ∀ grant ∈ reg.grants, Delivered (tns tid) grant d) :
    Visited reg init (done ++ [tid]) (Function.update tns tid d) := by
  have earlier := step.mono fun _ _ gives => gives.earlier named (visited.isolated tid)
  refine ⟨visited.isolated.update earlier, fun other isDone grant mem => ?_, fun other undone => ?_⟩
  · by_cases isT : other = tid
    · subst isT
      rw [Function.update_self]
      by_cases again : other ∈ done
      · exact (visited.delivered other again grant mem).later named earlier
      · exact visited.unvisited other again ▸ fresh grant mem
    · rw [Function.update_of_ne isT]
      have isOld : other ∈ done := by
        rcases List.mem_append.mp isDone with isDone | isLast
        · exact isDone
        · exact absurd (List.mem_singleton.mp isLast) isT
      exact visited.delivered other isOld grant mem
  · simp only [List.mem_append, List.mem_singleton, not_or] at undone
    rw [Function.update_of_ne undone.2]
    exact visited.unvisited other undone.1

theorem visits_spec (named : reg.moduleName ≠ "") (direct : reg.delegate = "") :
    Triple (fun w : World => Visited reg init [] w.tenants)
      (Task.each (fun tid => onTenant tid (visit fs nid reg defs)) reg.tenants)
      (fun _ w => Visited reg init reg.tenants w.tenants)
      (fun w => Confined reg init w.tenants) := by
  have loop := @Triple.each World RegisterError TenantID Visit
    (fun w => Confined reg init w.tenants)
    (fun tid => onTenant tid (visit fs nid reg defs))
    reg.tenants fun done w => Visited reg init done w.tenants
  refine loop fun done tid rest whole => Triple.from fun w visited => ?_
  refine (onTenant_spec (visit_spec named direct (visited.isolated tid).own)).weaken
    (fun _ same => same) (fun _ post out => ?_) fun post out => ?_
  · grind [Visited.visit]
  · obtain ⟨d, step, isAfter⟩ := out
    rw [isAfter]
    refine ⟨visited.isolated.update
      (step.mono fun _ _ gives => gives.earlier named (visited.isolated tid)),
      fun other unnamed => ?_⟩
    grind [Visited.unvisited]

theorem Visited.confined (visited : Visited reg init done tns)
    (part : ∀ tid ∈ done, tid ∈ reg.tenants) :
    Confined reg init tns :=
  ⟨visited.isolated, fun tid unnamed =>
    visited.unvisited tid fun isDone => unnamed (part tid isDone)⟩

theorem catalogueCalls_spec {α β : Type} {stmt : α → Catalogue → β × Catalogue}
    {items : List α} :
    Triple (fun w : World => kept w.tenants)
      (Task.each (fun item => catalogueCall fs (stmt item)) items)
      (fun _ w => kept w.tenants) fun w => kept w.tenants :=
  Triple.each_invariant fun _ _ => catalogueCall_spec

theorem registerRoleDefs_spec : Triple (fun w : World => kept w.tenants)
      (registerRoleDefs fs reg defs)
      (fun _ w => kept w.tenants) fun w => kept w.tenants := by
  refine Triple.ite (fun _ => ?_) fun _ => Triple.pure fun _ met => met
  refine Triple.bind catalogueCalls_spec fun _ => Triple.returning ?_
  refine Triple.ite (fun _ => ?_) fun _ => Triple.pure fun _ met => met
  exact Triple.bind catalogueCall_spec fun _ => Triple.returning catalogueCalls_spec

theorem moduleName_ne_empty (valid : reg.wellFormed = true) : reg.moduleName ≠ "" := by
  simp only [Registration.wellFormed, Bool.and_eq_true] at valid
  exact validModule_ne_empty valid.1.1.1.1.1.1

/-- However far a registration gets, every tenant is isolated from it; when it ends, the
tenants it names got the given legacy grants. -/
theorem register_spec (direct : reg.delegate = "")
    (own : ∀ tid, OwnGrants reg.moduleName (init.tenants tid)) :
    Triple (· = init) (register fs nid reg) (fun _ w => Visited reg init reg.tenants w.tenants)
      (fun w => Confined reg init w.tenants) := by
  have unchanged : Visited reg init [] init.tenants :=
    ⟨fun tid => Isolated.refl (own tid), fun _ none => absurd none List.not_mem_nil, fun _ _ => rfl⟩
  have begin : ∀ w, w = init → Visited reg init [] w.tenants := by
    rintro _ rfl
    exact unchanged
  unfold register Registration.validate
  by_cases valid : reg.wellFormed = true
  · rw [if_pos valid]
    have named := moduleName_ne_empty valid
    have quiet : ∀ {α : Type} {task : Task World RegisterError α},
        Triple (fun w : World => Visited reg init [] w.tenants) task
          (fun _ w => Visited reg init [] w.tenants)
          (fun w => Visited reg init [] w.tenants) →
        Triple (fun w : World => Visited reg init [] w.tenants) task
          (fun _ w => Visited reg init [] w.tenants)
          (fun w => Confined reg init w.tenants) :=
      fun triple => triple.stop fun _ stopped => stopped.confined (by simp)
    refine Triple.ite (fun _ => ?_) fun _ => Triple.fail fun _ same => (begin _ same).confined
      (by simp)
    refine Triple.weaken ?_ begin (fun _ _ post => post) fun _ stopped => stopped
    refine Triple.bind (quiet catalogueCall_spec) fun _ =>
      Triple.bind (quiet catalogueCalls_spec) fun _ =>
      Triple.bind (quiet registerRoleDefs_spec) fun _ =>
      Triple.bind (quiet catalogueCall_spec) fun _ =>
      Triple.returning (visits_spec named direct)
  · rw [if_neg valid]
    exact Triple.fail fun _ same => (begin _ same).confined (by simp)

/-! The statements of a registration on the catalogue name its own module only. -/

/-- The rows and definitions of other modules in the catalogue are as they were. -/
def SparesCatalogue (mod : String) (pre post : World) : Prop :=
  Catalogue.SparesOthers mod pre.catalogue post.catalogue

variable {mod : String}

theorem SparesCatalogue.refl (w : World) : SparesCatalogue mod w w :=
  Catalogue.SparesOthers.refl w.catalogue

theorem SparesCatalogue.trans (first second third : World) (one : SparesCatalogue mod first second)
    (two : SparesCatalogue mod second third) : SparesCatalogue mod first third :=
  Catalogue.SparesOthers.trans one two

theorem catalogueCall_spares {α : Type} {stmt : Catalogue → α × Catalogue}
    (spares : ∀ cat, Catalogue.SparesOthers mod cat (stmt cat).2) :
    Within (SparesCatalogue mod) (catalogueCall fs stmt) := by
  intro w
  unfold catalogueCall
  split
  · exact spares w.catalogue
  · exact spares w.catalogue
  · exact SparesCatalogue.refl w

theorem registerRoleDefs_spares (own : ∀ df ∈ defs, df.moduleName = reg.moduleName) :
    Within (SparesCatalogue reg.moduleName) (registerRoleDefs fs reg defs) := by
  have reads : Within (SparesCatalogue reg.moduleName) (catalogueCall fs fun cat =>
      (cat.roleDefsOf reg.moduleName, cat)) := catalogueCall_spares fun cat => .refl cat
  unfold registerRoleDefs
  split_ifs
  · refine Within.bind SparesCatalogue.trans (Within.each SparesCatalogue.refl
      SparesCatalogue.trans fun df mem => catalogueCall_spares fun cat =>
        cat.upsertModuleRoleDef_sparesOthers (own df mem)) fun _ => ?_
    refine Within.bind SparesCatalogue.trans ?_ fun _ => Within.pure SparesCatalogue.refl _
    unfold retireUndeclared
    split_ifs
    · refine Within.bind SparesCatalogue.trans reads fun _ => Within.bind SparesCatalogue.trans
        (Within.each SparesCatalogue.refl SparesCatalogue.trans fun s _ =>
          catalogueCall_spares fun cat => cat.retireModuleRoleDef_sparesOthers s)
        fun _ => Within.pure SparesCatalogue.refl _
    · exact Within.pure SparesCatalogue.refl _
  · exact Within.pure SparesCatalogue.refl _

/-- However far a registration gets, the catalogue keeps what belongs to other modules. -/
theorem register_spares :
    Within (SparesCatalogue reg.moduleName) (register fs nid reg) := by
  have fails : ∀ error, Within (SparesCatalogue reg.moduleName)
      (Task.fail error : Task World RegisterError RegisterResult) :=
    Within.fail SparesCatalogue.refl
  unfold register Registration.validate
  by_cases valid : reg.wellFormed = true
  · rw [if_pos valid]
    dsimp only
    by_cases allowed : reg.delegateAllowed = true
    case neg =>
      rw [if_neg allowed]
      exact fails _
    rw [if_pos allowed]
    refine Within.bind SparesCatalogue.trans (catalogueCall_spares fun cat =>
      cat.upsertModule_sparesOthers reg.displayName) fun _ => ?_
    refine Within.bind SparesCatalogue.trans (Within.each SparesCatalogue.refl
      SparesCatalogue.trans fun p _ => catalogueCall_spares fun cat =>
        @Catalogue.upsertModulePermission_sparesOthers cat _ (p.ref reg.moduleName) rfl
          p.description) fun _ => ?_
    refine Within.bind SparesCatalogue.trans (registerRoleDefs_spares fun df mem => ?_)
      fun _ => Within.bind SparesCatalogue.trans
        (catalogueCall_spares fun cat => .refl cat) fun _ => ?_
    · obtain ⟨r, -, rfl, -⟩ := Registration.mem_checkRoles mem
      rfl
    · refine Within.bind SparesCatalogue.trans (Within.each SparesCatalogue.refl
        SparesCatalogue.trans fun tid _ w => ?_) fun _ => Within.pure SparesCatalogue.refl _
      exact Catalogue.SparesOthers.refl w.catalogue
  · rw [if_neg valid]
    exact fails _

end World

/-! ### Decisions -/

section Decisions

variable {reg : Registration} {mod : String}
  {given : Slug → Permission → Prop} {init d : TenantData} {uid : UserID}
  {p obj : Permission}

theorem granted_iff_facts {d : TenantData} : Granted d.tuples uid p ↔
      ∃ s, d.ledger.facts s p ∧ Assignee d.tuples uid s :=
  granted_iff

theorem Isolated.assignee (isolated : Isolated mod given init d) {s : Slug} :
    Assignee d.tuples uid s ↔ Assignee init.tuples uid s :=
  assignee_congr isolated.assignments

theorem Isolated.active (isolated : Isolated mod given init d) :
    d.Active uid ↔ init.Active uid := by
  unfold TenantData.Active TenantData.userStatus
  rw [isolated.status, isolated.users]

/-- Another module's permission is evaluated on the object of before. -/
theorem Isolated.resolve (isolated : Isolated mod given init d)
    (named : mod ≠ "") (other : p.moduleName ≠ mod) :
    resolve d.mirror.catalogue p = some obj ↔ resolve init.mirror.catalogue p = some obj := by
  have self := (isolated.catalogue p other).1
  have legacy := (isolated.catalogue p.legacy named.symm).1
  rw [resolve_eq_some, resolve_eq_some, self, legacy]

theorem moduleName_of_resolve (named : mod ≠ "")
    (other : p.moduleName ≠ mod) {known : List Permission}
    (resolved : Authz.resolve known p = some obj) : obj.moduleName ≠ mod := by
  rcases resolve_eq_some.mp resolved with ⟨-, rfl⟩ | ⟨-, -, -, rfl⟩
  · exact other
  · exact named.symm

/-- The registration decides another module's permission: it is not registered, so the legacy
permission decides, which the registration gives to a role of the user. -/
def Captures (reg : Registration) (init : TenantData) (uid : UserID) (p : Permission) : Prop :=
  init.Active uid ∧ p ∉ init.mirror.catalogue ∧ ¬Granted init.tuples uid p.legacy
    ∧ ∃ s, Assignee init.tuples uid s ∧ GivesLegacy reg init s p.legacy

variable {lookup : Lookup}

theorem Isolated.decides_iff (isolated : Isolated mod given init d)
    (named : mod ≠ "") (other : p.moduleName ≠ mod)
    (accurate : lookup.Accurate d.tuples) :
    d.decides lookup uid p = true ↔ init.Active uid ∧ ∃ obj,
        Authz.resolve init.mirror.catalogue p = some obj
        ∧ ∃ s, d.ledger.facts s obj ∧ Assignee init.tuples uid s := by
  rw [TenantData.decides_iff accurate, isolated.active]
  apply and_congr_right
  intro _
  apply exists_congr
  intro obj
  rw [isolated.resolve named other, granted_iff_facts]
  simp only [isolated.assignee]

/-- Outside what it captures, a registration changes no decision on another module. -/
theorem Isolated.decides_eq (isolated : Isolated reg.moduleName (GivesLegacy reg init) init d)
    (named : reg.moduleName ≠ "") (other : p.moduleName ≠ reg.moduleName)
    (ofModule : p.isLegacy = false) {post : Lookup}
    (accurate : lookup.Accurate init.tuples) (afterAccurate : post.Accurate d.tuples)
    (free : ¬Captures reg init uid p) :
    d.decides post uid p = init.decides lookup uid p := by
  rw [Bool.eq_iff_iff, isolated.decides_iff named other afterAccurate,
    TenantData.decides_iff accurate]
  apply and_congr_right
  intro active
  apply exists_congr
  intro obj
  apply and_congr_right
  intro resolved
  rw [granted_iff_facts]
  have foreign := moduleName_of_resolve named other resolved
  constructor
  · rintro ⟨s, fact, assigned⟩
    by_cases gives : GivesLegacy reg init s obj
    · by_contra denied
      rcases resolve_eq_some.mp resolved with ⟨-, rfl⟩ | ⟨unknown, -, -, rfl⟩
      · obtain ⟨grant, -, -, given⟩ := gives
        simp [Permission.isLegacy, given.moduleName] at ofModule
      · exact free ⟨active, unknown, fun granted => denied (granted_iff_facts.mp granted), s,
          assigned, gives⟩
    · exact ⟨s, (isolated.grants s obj foreign gives).2.mp fact, assigned⟩
  · rintro ⟨s, fact, assigned⟩
    exact ⟨s, (isolated.kept s obj foreign).2 fact, assigned⟩

/-- What a registration captures, it allows once it was made. -/
theorem Captures.decides (captures : Captures reg init uid p)
    (isolated : Isolated reg.moduleName (GivesLegacy reg init) init d)
    (delivered : ∀ grant ∈ reg.grants, Delivered init grant d)
    (named : reg.moduleName ≠ "") (other : p.moduleName ≠ reg.moduleName)
    (ofModule : p.isLegacy = false) {post : Lookup}
    (accurate : lookup.Accurate init.tuples) (afterAccurate : post.Accurate d.tuples) :
    init.decides lookup uid p = false ∧ d.decides post uid p = true := by
  obtain ⟨active, unknown, denied, s, assigned, grant, mem, rfl, gives⟩ := captures
  have resolved : Authz.resolve init.mirror.catalogue p = some p.legacy :=
    resolve_eq_some.mpr (Or.inr ⟨unknown, ofModule, gives.1, rfl⟩)
  constructor
  · rw [← Bool.not_eq_true, TenantData.decides_iff accurate]
    rintro ⟨-, obj, isObject, granted⟩
    rw [resolved, Option.some.injEq] at isObject
    exact denied (isObject ▸ granted)
  · rw [isolated.decides_iff named other afterAccurate]
    exact ⟨active, _, resolved, grant.role, delivered grant mem _ gives, assigned⟩

/-- No permission row, role or grant of another module is created, changed or removed. -/
structure ForeignUnchanged (mod : String) (pre post : TenantData) : Prop where
  permissions : ∀ p, p.isLegacy = false → p.moduleName ≠ mod →
    (p ∈ post.mirror.catalogue ↔ p ∈ pre.mirror.catalogue)
      ∧ post.permissionInfo p = pre.permissionInfo p
  rolesKept : ∀ r ∈ pre.mirror.roles, r.origin = .ofModule → (pre.roleInfo r.id).moduleName ≠ mod →
    r ∈ post.mirror.roles ∧ post.roleInfo r.id = pre.roleInfo r.id
  rolesOld : ∀ r ∈ post.mirror.roles, r.origin = .ofModule → (post.roleInfo r.id).moduleName ≠ mod →
    r ∈ pre.mirror.roles ∧ post.roleInfo r.id = pre.roleInfo r.id
  grants : ∀ s p, p.isLegacy = false → p.moduleName ≠ mod →
    (post.ledger.rows s p ↔ pre.ledger.rows s p) ∧ (post.ledger.facts s p ↔ pre.ledger.facts s p)

theorem ForeignUnchanged.refl (mod : String) (d : TenantData) : ForeignUnchanged mod d d where
  permissions := fun _ _ _ => ⟨Iff.rfl, rfl⟩
  rolesKept := fun _ mem _ _ => ⟨mem, rfl⟩
  rolesOld := fun _ mem _ _ => ⟨mem, rfl⟩
  grants := fun _ _ _ _ => ⟨Iff.rfl, Iff.rfl⟩

theorem Isolated.foreignUnchanged
    (isolated : Isolated reg.moduleName (GivesLegacy reg init) init d) :
    ForeignUnchanged reg.moduleName init d where
  permissions := fun p _ other => isolated.catalogue p other
  rolesKept := fun r mem _ other => isolated.rolesKept r mem fun copy => other copy.2
  rolesOld := fun r mem _ other => isolated.rolesOld r mem fun copy => other copy.2
  grants := fun s p ofModule other => by
    refine isolated.grants s p other ?_
    rintro ⟨grant, -, -, gives⟩
    simp [Permission.isLegacy, gives.moduleName] at ofModule

end Decisions

end TangraAuth.Authz

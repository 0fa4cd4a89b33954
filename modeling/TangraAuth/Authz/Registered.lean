import TangraAuth.Authz.Repetition
import TangraAuth.Authz.Tidiness

/-!
Contract: a registration that declares its roles and built-in grants, on the whole
platform.

Owns: the catalogue's role definitions after such a registration, the tenants it
leaves, and what the same registration does when it is made again at once.

Does not own: the work in one tenant, and registrations that stop half-way.
-/

namespace TangraAuth.Authz

open Library Store Accounts

/-! ### The accepted definitions -/

section Accepted

variable {reg : Registration} {seen : List String} {roles : List ModuleRole}
  {df : ModuleRoleDef}

theorem distinct_checkRoles : UniqueKey ModuleRoleDef.slug (reg.checkRoles seen roles).1 := by
  induction roles generalizing seen with
  | nil => exact List.nodup_nil
  | cons r rest ih =>
    unfold Registration.checkRoles
    cases reg.roleProblem seen r with
    | some why => exact ih
    | none =>
      refine List.nodup_cons.mpr ⟨fun again => ?_, ih⟩
      obtain ⟨other, mem, sameSlug⟩ := List.mem_map.mp again
      grind [Registration.mem_checkRoles, Registration.roleDef]

/-- The definitions a registration declares and that are not refused. -/
def Registration.accepted (reg : Registration) : List ModuleRoleDef :=
  (reg.checkRoles [] reg.roles).1

theorem Registration.mem_accepted (mem : df ∈ reg.accepted) :
    df.moduleName = reg.moduleName ∧ df.slug ∈ reg.roles.map ModuleRole.slug
      ∧ validRoleDefSlug df.slug = true := by
  obtain ⟨r, roleMem, rfl, -, valid⟩ := Registration.mem_checkRoles mem
  exact ⟨rfl, List.mem_map_of_mem roleMem, valid⟩

end Accepted

/-! ### The catalogue -/

section Catalogue

variable {cat : Catalogue} {df other : ModuleRoleDef}

theorem Catalogue.mem_upsertModuleRoleDef :
    df.declared ∈ (cat.upsertModuleRoleDef df).2.roleDefs := by
  unfold Catalogue.upsertModuleRoleDef
  split
  case isTrue known =>
    split
    case isTrue same => simpa using same
    case isFalse =>
      obtain ⟨row, mem, sameKey⟩ := List.mem_map.mp known
      refine mem_updateWhere.mpr ⟨row, mem, ?_⟩
      have sameModule : row.moduleName = df.moduleName := congrArg Prod.fst sameKey
      have sameSlug : row.slug = df.slug := congrArg Prod.snd sameKey
      rw [if_pos (beq_iff_eq.mpr sameKey), sameModule, sameSlug]
      rfl
  case isFalse => exact List.mem_append_right _ List.mem_cons_self

theorem Catalogue.mem_upsertModuleRoleDef_of_ne (mem : other ∈ cat.roleDefs)
    (differs : other.key ≠ df.key) :
    other ∈ (cat.upsertModuleRoleDef df).2.roleDefs := by
  unfold Catalogue.upsertModuleRoleDef
  grind

theorem Catalogue.upsertModuleRoleDef_of_mem (mem : df.declared ∈ cat.roleDefs) :
    cat.upsertModuleRoleDef df = (false, cat) := by
  have known : df.key ∈ cat.roleDefs.map ModuleRoleDef.key :=
    List.mem_map.mpr ⟨_, mem, rfl⟩
  unfold Catalogue.upsertModuleRoleDef
  rw [dif_pos known, if_pos (by simpa using mem)]

theorem mem_roleDefsOf {mod : String} : df ∈ cat.roleDefsOf mod ↔
      df ∈ cat.roleDefs ∧ df.moduleName = mod := by
  simp [Catalogue.roleDefsOf]

theorem mem_undeclared {reg : Registration} {current : List ModuleRoleDef} {s : String} :
    s ∈ undeclared reg current ↔ ∃ df ∈ current, df.slug = s
      ∧ df.slug ∉ reg.roles.map ModuleRole.slug ∧ df.retired = false := by
  simp only [undeclared, List.mem_map, List.mem_filter, List.contains_eq_mem, Bool.and_eq_true,
    Bool.not_eq_true', decide_eq_false_iff_not]
  grind

end Catalogue

/-- The catalogue has the accepted definitions of the registration as it declares them, and
every definition it does not declare is retired. -/
structure Defined (reg : Registration) (cat : Catalogue) : Prop where
  accepted : ∀ df ∈ reg.accepted, df.declared ∈ cat.roleDefs
  undeclared : undeclared reg (cat.roleDefsOf reg.moduleName) = []

section Definitions

variable {fs : CallFaults} {reg : Registration} {w : World}

variable {α : Type} {stmt : Catalogue → α × Catalogue} {pre : World → Prop}
  {current : List ModuleRoleDef}

theorem catalogueCall_answered {stopped : World → Prop} {post : α → World → Prop}
    (undone : ∀ now, pre now → stopped { now with calls := now.calls + 1 })
    (done : ∀ now, pre now → post (stmt now.catalogue).1
          { now with catalogue := (stmt now.catalogue).2, calls := now.calls + 1 }
        ∧ stopped { now with catalogue := (stmt now.catalogue).2, calls := now.calls + 1 }) :
    Triple pre (catalogueCall fs stmt) post fun now => stopped now ∧ ¬Faultless fs := by
  intro now met
  unfold catalogueCall
  rcases answered : fs now.calls with _ | count
  · exact (done now met).1
  · have fails : ¬Faultless fs := fun faultless => by
      rw [faultless] at answered
      cases answered
    cases count with
    | zero => exact ⟨undone now met, fails⟩
    | succ count => exact ⟨(done now met).2, fails⟩

theorem catalogueCall_fails {post : α → World → Prop}
    (done : ∀ now, pre now → post (stmt now.catalogue).1
      { now with catalogue := (stmt now.catalogue).2, calls := now.calls + 1 }) :
    Triple pre (catalogueCall fs stmt) post fun _ => ¬Faultless fs :=
  (@catalogueCall_answered fs α stmt pre (fun _ => True) post (fun _ _ => trivial)
    fun now met => ⟨done now met, trivial⟩).stop fun _ met => met.2

theorem catalogueCall_rule {post : α → World → Prop}
    (done : ∀ now, pre now → post (stmt now.catalogue).1
      { now with catalogue := (stmt now.catalogue).2, calls := now.calls + 1 }) :
    Triple pre (catalogueCall fs stmt) post fun _ => True :=
  (catalogueCall_fails done).stop fun _ _ => trivial

/-- The loop over the accepted definitions: those of `stored` are in the catalogue. -/
structure Storing (w : World) (stored : List ModuleRoleDef) (now : World) : Prop where
  tenants : now.tenants = w.tenants
  accepted : ∀ df ∈ stored, df.declared ∈ now.catalogue.roleDefs

theorem storeAccepted_spec : Triple (Storing w [])
      (Task.each (fun df => catalogueCall fs fun cat =>
        cat.upsertModuleRoleDef df) reg.accepted)
      (fun _ => Storing w reg.accepted) fun _ => True := by
  refine Triple.each fun done df rest whole => ?_
  refine catalogueCall_rule fun now storing => ⟨storing.tenants, fun other isDone => ?_⟩
  rcases List.mem_append.mp isDone with isDone | isLast
  · refine Catalogue.mem_upsertModuleRoleDef_of_ne (storing.accepted other isDone) fun sameKey => ?_
    have ne : UniqueKey ModuleRoleDef.slug reg.accepted := distinct_checkRoles
    rw [UniqueKey, whole, List.map_append, List.nodup_append] at ne
    exact ne.2.2 _ (List.mem_map_of_mem isDone) _ List.mem_cons_self (congrArg Prod.snd sameKey)
  · rw [List.mem_singleton.mp isLast]
    exact Catalogue.mem_upsertModuleRoleDef

/-- The loop over the definitions to retire: what is not retired was read as such, and its turn
has not come. -/
structure Retiring (reg : Registration) (w : World) (current : List ModuleRoleDef)
    (done : List String) (now : World) : Prop
    extends Storing w reg.accepted now where
  pending : ∀ df ∈ now.catalogue.roleDefsOf reg.moduleName,
    df.retired = false → df ∈ current ∧ df.slug ∉ done

theorem Retiring.step {done : List String} {s : String} {now : World}
    (retiring : Retiring reg w current done now)
    (isUndeclared : s ∈ undeclared reg current) :
    Retiring reg w current (done ++ [s])
      { now with
        catalogue := now.catalogue.retireModuleRoleDef reg.moduleName s
        calls := now.calls + 1 } := by
  obtain ⟨_, -, isSlug, absent, -⟩ := mem_undeclared.mp isUndeclared
  rw [isSlug] at absent
  refine ⟨⟨retiring.tenants, fun df mem => ?_⟩, fun df mem isCurrent => ?_⟩
  · refine mem_updateWhere.mpr ⟨_, retiring.accepted df mem, if_neg fun matched => ?_⟩
    have sameKey : df.declared.key = (reg.moduleName, s) := beq_iff_eq.mp matched
    have sameSlug : df.slug = s := congrArg Prod.snd sameKey
    exact absent (sameSlug ▸ (Registration.mem_accepted mem).2.1)
  · obtain ⟨stored, ofModule⟩ := mem_roleDefsOf.mp mem
    obtain ⟨old, oldMem, ⟨-, rfl⟩ | ⟨unmatched, rfl⟩⟩ := of_mem_updateWhere stored
    · cases isCurrent
    · obtain ⟨read, waiting⟩ := retiring.pending df (mem_roleDefsOf.mpr ⟨oldMem, ofModule⟩)
        isCurrent
      refine ⟨read, fun isDone => ?_⟩
      rcases List.mem_append.mp isDone with isDone | isLast
      · exact waiting isDone
      · have matched : df.key = (reg.moduleName, s) := by
          rw [ModuleRoleDef.key, ofModule, List.mem_singleton.mp isLast]
        simp [matched] at unmatched

theorem Retiring.defined {now : World}
    (retiring : Retiring reg w current (undeclared reg current) now) :
    Defined reg now.catalogue := by
  refine ⟨retiring.accepted, List.eq_nil_iff_forall_not_mem.mpr fun s left => ?_⟩
  obtain ⟨df, mem, rfl, absent, isCurrent⟩ := mem_undeclared.mp left
  obtain ⟨read, notDone⟩ := retiring.pending df mem isCurrent
  exact notDone (mem_undeclared.mpr ⟨df, read, rfl, absent, isCurrent⟩)

theorem registerRoleDefs_defined (direct : reg.delegate = "")
    (declares : reg.declaresRoles = true) :
    Triple (fun now : World => now.tenants = w.tenants) (registerRoleDefs fs reg reg.accepted)
      (fun _ now => now.tenants = w.tenants ∧ Defined reg now.catalogue)
      fun _ => True := by
  unfold registerRoleDefs retireUndeclared
  rw [if_pos direct, if_pos declares]
  refine Triple.bind (storeAccepted_spec.enter fun now same => ⟨same, by simp⟩) fun chg => ?_
  have reading := @catalogueCall_rule fs _ (fun cat => (cat.roleDefsOf reg.moduleName, cat))
    (Storing w reg.accepted)
    (fun current now => Retiring reg w current [] now)
    fun now storing => ⟨⟨storing.tenants, storing.accepted⟩,
      fun df mem _ => ⟨mem, List.not_mem_nil⟩⟩
  refine Triple.returning (Triple.bind reading fun current => ?_)
  have retire := @Triple.each World RegisterError String Unit (fun _ => True)
    (fun s => catalogueCall fs fun cat =>
      ((), cat.retireModuleRoleDef reg.moduleName s))
    (undeclared reg current) (Retiring reg w current)
    fun done s rest whole => catalogueCall_rule fun now retiring =>
      retiring.step (by simp [whole])
  exact Triple.bind retire fun _ => Triple.pure fun now retiring =>
    ⟨retiring.tenants, retiring.defined⟩

end Definitions

/-! ### A registration that ends -/

section Ended

variable {fs : CallFaults} {nid : Nat → RoleID} {reg : Registration}
  {w post : World} {res : RegisterResult}

/-- The catalogue and the tenants that the registration names are as it declares. -/
structure Applied (reg : Registration) (w post : World) : Prop where
  defined : Defined reg post.catalogue
  tenants : ∀ tid ∈ reg.tenants, ConvergedFrom reg (post.catalogue.roleDefsOf reg.moduleName)
      (w.tenants tid) (post.tenants tid)

theorem onTenant_catalogue {α : Type} {tid : TenantID} {work : Work α} {cat : Catalogue} :
    Triple (fun now : World => now.catalogue = cat) (onTenant tid work)
      (fun _ now => now.catalogue = cat) fun now => now.catalogue = cat := by
  intro now same
  unfold onTenant
  rcases work ⟨now.tenants tid, now.calls⟩ with ⟨error | val, site⟩ <;> exact same

theorem delegate_eq_empty (declares : reg.declaresRoles = true)
    (allowed : reg.delegateAllowed = true) : reg.delegate = "" := by
  simpa [Registration.delegateAllowed, declares] using allowed

theorem register_applied (declaresRoles : reg.declaresRoles = true)
    (declaresGrants : reg.declaresGrants = true) :
    Triple (· = w) (register fs nid reg) (fun _ post => Applied reg w post) fun _ => True := by
  unfold register Registration.validate
  by_cases valid : reg.wellFormed = true
  case neg =>
    rw [if_neg valid]
    exact Triple.fail fun _ _ => trivial
  rw [if_pos valid]
  refine Triple.ite (fun allowed => ?_) fun _ => Triple.fail fun _ _ => trivial
  have direct := delegate_eq_empty declaresRoles allowed
  refine Triple.weaken ?_ (fun now (same : now = w) => congrArg World.tenants same)
    (fun _ _ met => met) fun _ met => met
  refine Triple.bind (catalogueCall_rule fun _ same => same) fun _ =>
    Triple.bind (Triple.each_invariant fun _ _ => catalogueCall_rule fun _ same => same) fun _ =>
    Triple.bind (registerRoleDefs_defined direct declaresRoles) fun _ => ?_
  have reading := @catalogueCall_rule fs _ (fun cat => (cat.roleDefsOf reg.moduleName, cat))
    (fun now => now.tenants = w.tenants ∧ Defined reg now.catalogue)
    (fun current now => (now.tenants = w.tenants ∧ Defined reg now.catalogue)
      ∧ current = now.catalogue.roleDefsOf reg.moduleName)
    fun _ met => ⟨met, rfl⟩
  refine Triple.bind reading fun current => Triple.from fun now read => ?_
  obtain ⟨⟨tns, defined⟩, rfl⟩ := read
  have visits := @eachTenant_spec now Visit
    (visit fs nid reg (now.catalogue.roleDefsOf reg.moduleName))
    reg.tenants _
    (fun _ => visit_converged (moduleName_ne_empty valid) direct declaresGrants
      (distinct_roleDefsOf now.catalogue reg.moduleName))
    fun first second => ⟨second.converged, fun agrees => second.agreeing (first.agreeing agrees)⟩
  have catalogued : Triple (· = now) (Task.each (fun tid => onTenant tid (visit fs nid reg
        (now.catalogue.roleDefsOf reg.moduleName))) reg.tenants)
      (fun _ last => last.catalogue = now.catalogue) fun _ => True :=
    (Triple.each_invariant fun _ _ => onTenant_catalogue).weaken
      (fun _ same => congrArg World.catalogue same) (fun _ _ met => met) fun _ _ => trivial
  refine Triple.bind ((visits.and catalogued).stop fun _ _ => trivial) fun _ => Triple.pure
    fun last met => ?_
  obtain ⟨visited, sameCatalogue⟩ := met
  refine ⟨sameCatalogue ▸ defined, fun tid mem => ?_⟩
  rw [sameCatalogue, ← tns]
  exact (visited tid).1 mem

end Ended

/-! ### The same registration again -/

/-- No role definition was written, and nothing in the tenants but what goes with a
permission's reference. -/
structure WorldUnmoved (pre post : World) : Prop where
  roleDefs : post.catalogue.roleDefs = pre.catalogue.roleDefs
  tenants : ∀ tid, Unmoved (pre.tenants tid) (post.tenants tid)

section Again

variable {fs : CallFaults} {nid : Nat → RoleID} {reg : Registration}
  {w : World}

/-- Work on the platform that moves nothing. -/
abbrev Rests (fs : CallFaults) (w : World) {α : Type} (task : Task World RegisterError α)
    (returned : α → Prop) : Prop :=
  Maintains (WorldUnmoved w) (¬Faultless fs) task returned

variable {α : Type} {returned : α → Prop}

theorem Rests.catalogueCall {stmt : Catalogue → α × Catalogue}
    (same : ∀ cat, cat.roleDefs = w.catalogue.roleDefs →
      (stmt cat).2.roleDefs = cat.roleDefs ∧ returned (stmt cat).1) :
    Rests fs w (catalogueCall fs stmt) returned := by
  refine catalogueCall_answered (fun now unmoved => ⟨unmoved.roleDefs, unmoved.tenants⟩)
    fun now unmoved => ?_
  obtain ⟨sameDefs, holds⟩ := same now.catalogue unmoved.roleDefs
  have stays : WorldUnmoved w
      { now with catalogue := (stmt now.catalogue).2, calls := now.calls + 1 } :=
    ⟨sameDefs.trans unmoved.roleDefs, unmoved.tenants⟩
  exact ⟨⟨stays, holds⟩, stays⟩

theorem Rests.onTenant {tid : TenantID} {work : Work α}
    (idle : Idle fs (w.tenants tid) work returned) :
    Rests fs w (onTenant tid work) returned := by
  intro now unmoved
  have out := idle ⟨now.tenants tid, now.calls⟩ (unmoved.tenants tid)
  have updated : ∀ d calls, Unmoved (w.tenants tid) d →
      WorldUnmoved w { now with
        tenants := Function.update now.tenants tid d, calls := calls } := by
    intro d calls stays
    refine ⟨unmoved.roleDefs, fun other => ?_⟩
    by_cases isT : other = tid
    · grind
    · grind [WorldUnmoved.tenants]
  unfold Authz.onTenant
  rcases ran : work ⟨now.tenants tid, now.calls⟩ with ⟨error | val, site⟩
  · rw [ran] at out
    exact ⟨updated _ _ out.1, out.2⟩
  · rw [ran] at out
    exact ⟨updated _ _ out.1, out.2⟩

theorem Rests.registerRoleDefs (defined : Defined reg w.catalogue) :
    Rests fs w (registerRoleDefs fs reg reg.accepted) (· = (0, [])) := by
  unfold Authz.registerRoleDefs retireUndeclared
  split
  case isFalse => exact Maintains.pure rfl
  case isTrue =>
    refine Maintains.bind (Maintains.each fun df mem =>
      @Rests.catalogueCall fs w Bool (· = false) (fun cat => cat.upsertModuleRoleDef df)
        fun cat same => ?_) fun chg noneChanged => ?_
    · grind [Defined.accepted, Catalogue.upsertModuleRoleDef_of_mem]
    have noChanges : chg.count true = 0 := List.count_eq_zero.mpr fun isChanged => by
      cases noneChanged true isChanged
    have nothing : ∀ retired, retired = [] → Rests fs w (pure (chg.count true, retired)
          : Task World RegisterError (Nat × List String)) (· = (0, [])) := by
      rintro _ rfl
      exact Maintains.pure (by rw [noChanges])
    refine Maintains.bind ?_ nothing
    split
    case isFalse => exact Maintains.pure rfl
    case isTrue =>
      have reading := @Rests.catalogueCall fs w _ (fun current => undeclared reg current = [])
        (fun cat => (cat.roleDefsOf reg.moduleName, cat))
        fun cat same => ⟨rfl, by
          simp only [Catalogue.roleDefsOf, same]
          exact defined.undeclared⟩
      refine Maintains.bind reading fun current none => ?_
      rw [none]
      exact Maintains.pure rfl

theorem validDefs_of_wellFormed (valid : reg.wellFormed = true) :
    validDefs reg.moduleName reg.permissions = true := by
  simp only [Registration.wellFormed, Bool.and_eq_true, List.all_eq_true, printable] at valid
  simp only [validDefs, Bool.and_eq_true, Bool.or_eq_true, List.all_eq_true]
  grind

/-- Nothing is reported as changed. -/
def RegisterResult.Unchanged (res : RegisterResult) : Prop :=
  res.rolesUpserted = 0 ∧ res.rolesRetired = [] ∧ res.grantsRevoked = 0

/-- On a platform as the registration declares it, the registration moves nothing. -/
theorem Rests.register (valid : reg.wellFormed = true)
    (allowed : reg.delegateAllowed = true) (direct : reg.delegate = "")
    (defined : Defined reg w.catalogue)
    (converged : ∀ tid ∈ reg.tenants, Converged reg (w.catalogue.roleDefsOf reg.moduleName)
        (w.tenants tid)) :
    Rests fs w (register fs nid reg) RegisterResult.Unchanged := by
  unfold Authz.register Registration.validate
  rw [if_pos valid]
  refine Triple.ite (fun _ => ?_) fun refused => absurd allowed refused
  have quietCall : ∀ {stmt : Catalogue → Unit × Catalogue},
      (∀ cat, (stmt cat).2.roleDefs = cat.roleDefs) →
      Rests fs w (Authz.catalogueCall fs stmt) fun _ => True :=
    fun same => Rests.catalogueCall fun cat _ => ⟨same cat, trivial⟩
  refine Maintains.bind (quietCall fun _ => rfl) fun _ _ =>
    Maintains.bind (Maintains.each fun _ _ => quietCall fun _ => rfl) fun _ _ =>
    Maintains.bind (Rests.registerRoleDefs defined) fun chg noChange => ?_
  have reading := @Rests.catalogueCall fs w _ (· = w.catalogue.roleDefsOf reg.moduleName)
    (fun cat => (cat.roleDefsOf reg.moduleName, cat))
    fun cat same => ⟨rfl, by simp only [Catalogue.roleDefsOf, same]⟩
  refine Maintains.bind reading fun current isCurrent => ?_
  subst isCurrent noChange
  refine Maintains.bind (Maintains.each fun tid mem => Rests.onTenant
    (Idle.visit (converged tid mem) (validDefs_of_wellFormed valid) direct))
    fun visits noneRevoked => Maintains.pure ⟨rfl, rfl, ?_⟩
  refine List.sum_eq_zero_iff_forall_eq_nat.mpr fun count isCount => ?_
  grind

end Again

section Converges

variable {fs : CallFaults} {nid : Nat → RoleID} {reg : Registration}
  {w post : World} {res : RegisterResult}

/-- A registration that ends was valid and was allowed. -/
theorem wellFormed_of_register (ran : register fs nid reg w = (.ok res, post)) :
    reg.wellFormed = true ∧ reg.delegateAllowed = true := by
  unfold register Registration.validate at ran
  by_cases valid : reg.wellFormed = true
  · rw [if_pos valid] at ran
    refine ⟨valid, ?_⟩
    by_contra refused
    simp only [refused] at ran
    cases congrArg Prod.fst ran
  · rw [if_neg valid] at ran
    cases congrArg Prod.fst ran

/-- A registration that declares its roles and built-in grants and ends makes the catalogue and
the tenants it names match it, leaves the grants on other modules' permissions alone, and has
nothing left to do when it is made again at once. -/
theorem declared_registration_converges (declaresRoles : reg.declaresRoles = true)
    (declaresGrants : reg.declaresGrants = true) (tidy : AllTidy w.tenants)
    (ran : register fs nid reg w = (.ok res, post)) :
    Defined reg post.catalogue ∧ (∀ tid ∈ reg.tenants,
        (∀ df ∈ post.catalogue.roleDefsOf reg.moduleName,
          InSync reg.moduleName df (post.tenants tid))
        ∧ (∀ r ∈ (post.tenants tid).mirror.roles, r.origin = .builtin →
          ∀ p, p.moduleName = reg.moduleName → (p ∈ (post.tenants tid).mirror.rolePermissions r.id
              ↔ DeclaredGrant reg r.slug p))
        ∧ ((w.tenants tid).ledger.Agreeing → (post.tenants tid).ledger.Agreeing))
      ∧ (∀ tid s p, p.isLegacy = false → p.moduleName ≠ reg.moduleName →
          ((post.tenants tid).ledger.rows s p ↔ (w.tenants tid).ledger.rows s p)
          ∧ ((post.tenants tid).ledger.facts s p ↔ (w.tenants tid).ledger.facts s p))
      ∧ AllTidy post.tenants
      ∧ ∀ again laterID out last, register again laterID reg post = (out, last) →
          (∀ tid, (last.tenants tid).tuples = (post.tenants tid).tuples
            ∧ (last.tenants tid).version = (post.tenants tid).version)
          ∧ (Faultless again → ∃ repeated, out = .ok repeated)
          ∧ ∀ repeated, out = .ok repeated → repeated.Unchanged := by
  obtain ⟨valid, allowed⟩ := wellFormed_of_register ran
  have direct := delegate_eq_empty declaresRoles allowed
  have applied := (register_applied declaresRoles declaresGrants).ended rfl ran
  have visited := (register_spec direct fun tid => (tidy tid).ownGrants _).ended rfl ran
  have stillTidy := @register_tidy fs nid reg w tidy
  rw [ran] at stillTidy
  refine ⟨applied.defined, fun tid mem => ?_, fun tid s p ofModule other => ?_,
    stillTidy, fun again laterID out last repeats => ?_⟩
  · obtain ⟨converged, agreeing⟩ := applied.tenants tid mem
    exact ⟨converged.copies, converged.builtins, agreeing⟩
  · exact (visited.isolated tid).foreignUnchanged.grants s p ofModule other
  · have rests := @Rests.register again laterID reg post valid allowed direct
      applied.defined (fun tid mem => (applied.tenants tid mem).converged)
      post ⟨rfl, fun _ => Unmoved.refl⟩
    rw [repeats] at rests
    cases out with
    | ok repeated =>
      refine ⟨fun tid => ?_, fun _ => ⟨repeated, rfl⟩, fun _ same => ?_⟩
      · exact ⟨(rests.1.tenants tid).tuples, (rests.1.tenants tid).version⟩
      · cases same
        exact rests.2
    | error error =>
      refine ⟨fun tid => ?_, fun faultless => absurd faultless rests.2, nofun⟩
      exact ⟨(rests.1.tenants tid).tuples, (rests.1.tenants tid).version⟩

end Converges

/-! A module that brings a role for readers and lets members read, registered for a tenant
with one member. -/

def readersRegistration : Registration :=
  { docsRegistration with
    roles := [⟨"reader", "Reader", "Reads documents", ["docs:read"]⟩]
    declaresRoles := true
    grants := [⟨"member", ["docs:read"]⟩]
    declaresGrants := true }

def memberWorld : World where
  catalogue := ⟨[], [], [], Catalogue.defined_nil⟩
  tenants := fun _ => TenantData.withMember 7 [] [] []
  calls := 0

def readersRegistered : Except RegisterError RegisterResult × World :=
  register (fun _ => none) (· + 100) readersRegistration memberWorld

theorem memberWorld_tidy : AllTidy memberWorld.tenants := by
  intro tid
  refine tidy_of_no_module_roles fun r mem => ?_
  have isMem : r = ⟨1, "member", .builtin, false⟩ := List.mem_singleton.mp mem
  rw [isMem]
  nofun

theorem readers_registration_converges : (readersRegistered.1 = .ok ⟨1, [], [], 1, [], 0⟩)
      ∧ ⟨"files", "docs", "read"⟩ ∈ (readersRegistered.2.tenants 1).mirror.rolePermissions 1
      ∧ ∀ again laterID out last,
        register again laterID readersRegistration readersRegistered.2 = (out, last) →
          ∀ repeated, out = .ok repeated → repeated.Unchanged := by
  have ended : readersRegistered.1 = .ok ⟨1, [], [], 1, [], 0⟩ := by decide +kernel
  have ran : readersRegistered = (.ok ⟨1, [], [], 1, [], 0⟩, readersRegistered.2) := by
    rw [← ended, Prod.mk.eta]
  have converges := @declared_registration_converges (fun _ => none) (· + 100) readersRegistration
    memberWorld readersRegistered.2 ⟨1, [], [], 1, [], 0⟩ rfl rfl memberWorld_tidy ran
  refine ⟨ended, ?_, fun again laterID out last repeats =>
    (converges.2.2.2.2 again laterID out last repeats).2.2⟩
  refine ((converges.2.1 1 (by decide)).2.1 ⟨1, "member", .builtin, false⟩ (by decide +kernel) rfl _
    rfl).mpr ?_
  exact ⟨⟨"member", ["docs:read"]⟩, List.mem_cons_self, rfl, "docs:read", List.mem_cons_self,
    by decide⟩

end TangraAuth.Authz

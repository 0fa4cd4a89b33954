import TangraAuth.Authz.Agreement
import TangraAuth.Authz.Register
import TangraAuth.Library.Ledger

/-!
Contract: what one call, and the setting of a role's grants, does to a tenant.

Owns: triples for the calls, the grants of a tenant as a ledger by slug, and the
rule for `setGrants`: it assigns the role's key, and touches nothing else however
far it gets.

Does not own: the loops of a registration.
-/

namespace TangraAuth.Authz

open Library Store Accounts

/-! ### Calls -/

section Calls

variable {fs : CallFaults} {pre after stopped : TenantData → Prop}

/-- A triple about the tenant only. -/
abbrev Site.meets (holds : TenantData → Prop) (site : Site) : Prop := holds site.data

/-- The precondition may be used as a fact about the data the work starts with. -/
theorem Site.from {α : Type} {work : Work α} {pre : TenantData → Prop} {after : α → Site → Prop}
    {stopped : Site → Prop}
    (each : ∀ d, pre d → Triple (Site.meets (· = d)) work after stopped) :
    Triple (Site.meets pre) work after stopped :=
  fun site met => each site.data met site rfl

theorem call_spec {α : Type} {stmt : TenantData → Except RegisterError (α × TenantData)}
    {res : α → TenantData → Prop}
    (done : ∀ d val next, pre d → stmt d = .ok (val, next) → res val next ∧ stopped next)
    (kept : ∀ d, pre d → stopped d) :
    Triple (Site.meets pre) (call fs stmt) (fun val => Site.meets (res val))
      (Site.meets stopped) := by
  intro site met
  unfold call
  rcases out : stmt site.data with error | ⟨val, next⟩
  · grind [Meets]
  · have ended := done _ _ _ met out
    rcases fs site.calls with _ | count
    · exact ended.1
    · cases count with
      | zero => exact kept _ met
      | succ count => exact ended.2

theorem query_spec {α : Type} {v : TenantData → α} (kept : ∀ d, pre d → stopped d) :
    Triple (Site.meets pre) (query fs v) (fun val => Site.meets fun d => pre d ∧ val = v d)
      (Site.meets stopped) := by
  refine call_spec (fun d val next met out => ?_) kept
  cases out
  exact ⟨⟨met, rfl⟩, kept _ met⟩

theorem query_bind {α β : Type} {v : TenantData → α} {next : α → Work β}
    {post : β → Site → Prop} (kept : ∀ d, pre d → stopped d)
    (rest : ∀ d, pre d → Triple (Site.meets (· = d)) (next (v d)) post (Site.meets stopped)) :
    Triple (Site.meets pre) (query fs v >>= next) post (Site.meets stopped) := by
  refine Triple.bind (query_spec kept) fun val => ?_
  rintro site ⟨met, rfl⟩
  exact rest site.data met site rfl

theorem perform_spec {stmt : TenantData → TenantData}
    (done : ∀ d, pre d → after (stmt d) ∧ stopped (stmt d))
    (kept : ∀ d, pre d → stopped d) :
    Triple (Site.meets pre) (perform fs stmt) (fun _ => Site.meets after) (Site.meets stopped) := by
  refine call_spec (fun d val next met out => ?_) kept
  cases out
  exact done d met

theorem executeChecked_spec {stmt : TenantData → Option TenantData}
    (done : ∀ d next, pre d → stmt d = some next → after next ∧ stopped next)
    (kept : ∀ d, pre d → stopped d) :
    Triple (Site.meets pre) (executeChecked fs stmt) (fun _ => Site.meets after)
      (Site.meets stopped) := by
  refine call_spec (fun d val next met out => ?_) kept
  grind

theorem writeTuples_spec {adds removes : List Tuple}
    (done : ∀ d, pre d → after (d.withTuples (write d.tuples adds removes)))
    (kept : ∀ d ts, pre d → (∀ t, (t ∈ ts → t ∈ d.tuples ∨ t ∈ adds)
        ∧ (t ∈ d.tuples → t ∉ removes → t ∈ ts)) →
      stopped { d with tuples := ts }) :
    Triple (Site.meets pre) (writeTuples fs adds removes) (fun _ => Site.meets after)
      (Site.meets stopped) := by
  intro site met
  unfold writeTuples
  rcases written : writeWith maxTuplesPerWrite (fs site.calls) site.data.tuples adds removes
    with ⟨completed, ts⟩
  cases completed with
  | true =>
    have noFault := writeWith_fst.mp (congrArg Prod.fst written)
    have isWritten : ts = write site.data.tuples adds removes := by
      rcases noFault with none | ⟨noAdds, noRemoves⟩
      · rw [none, writeWith_none] at written
        exact (congrArg Prod.snd written).symm
      · rw [noAdds, noRemoves, writeWith_nothing] at written
        rw [noAdds, noRemoves]
        exact (congrArg Prod.snd written).symm
    rw [isWritten]
    exact done _ met
  | false =>
    refine kept _ _ met fun t => ?_
    grind [writeWith_bounds]

theorem writeUnread_spec (done : ∀ d, pre d → after (d.withTuples d.tuples))
    (kept : ∀ d, pre d → stopped d) :
    Triple (Site.meets pre) (writeUnread fs) (fun _ => Site.meets after) (Site.meets stopped) := by
  intro site met
  grind [Meets, writeUnread]

variable {w : World}

theorem onTenant_spec {α : Type} {tid : TenantID} {work : Work α}
    {post : α → TenantData → Prop} {stopped : TenantData → Prop}
    (triple : Triple (Site.meets (· = w.tenants tid)) work
      (fun val => Site.meets (post val)) (Site.meets stopped)) :
    Triple (· = w) (onTenant tid work) (fun val after => ∃ d, post val d
        ∧ after.tenants = Function.update w.tenants tid d)
      (fun after => ∃ d, stopped d ∧ after.tenants = Function.update w.tenants tid d) := by
  intro st same
  subst same
  have out := triple ⟨st.tenants tid, st.calls⟩ rfl
  unfold onTenant
  rcases ran : work ⟨st.tenants tid, st.calls⟩ with ⟨error | val, site⟩
  · rw [ran] at out
    exact ⟨site.data, out, rfl⟩
  · rw [ran] at out
    exact ⟨site.data, out, rfl⟩

/-- The loop over the tenants, for a relation that a second visit keeps. -/
theorem eachTenant_spec {α : Type} {work : Work α} {tns : List TenantID}
    {visited : TenantData → TenantData → Prop}
    (body : ∀ d, Triple (Site.meets (· = d)) work (fun _ => Site.meets (visited d))
      (Site.meets fun _ => True))
    (again : ∀ {first second third}, visited first second → visited second third →
      visited first third) :
    Triple (· = w) (Task.each (fun tid => onTenant tid work) tns) (fun _ after => ∀ tid,
        (tid ∈ tns → visited (w.tenants tid) (after.tenants tid))
          ∧ (tid ∉ tns → after.tenants tid = w.tenants tid))
      fun _ => True := by
  have loop := @Triple.each World RegisterError TenantID α (fun _ => True)
    (fun tid => onTenant tid work) tns fun done after => ∀ tid,
      (tid ∈ done → visited (w.tenants tid) (after.tenants tid))
        ∧ (tid ∉ done → after.tenants tid = w.tenants tid)
  refine (loop fun done tid rest _ => Triple.from fun now sofar => ?_).weaken
    (fun _ same => same ▸ fun _ => ⟨fun none => absurd none List.not_mem_nil, fun _ => rfl⟩)
    (fun _ _ met => met) fun _ _ => trivial
  refine (onTenant_spec (body _)).weaken (fun _ same => same) (fun _ after out other => ?_)
    fun _ _ => trivial
  obtain ⟨d, step, isAfter⟩ := out
  rw [isAfter]
  by_cases isT : other = tid
  · grind
  grind

end Calls

/-! ### The grants of a tenant -/

/-- A tenant without its grants. -/
structure Directory where
  status : TenantStatus
  users : List Account
  roles : List Role
  bindings : List (UserID × RoleID)
  groups : List Group
  members : List Member
  groupRoles : List (GroupID × RoleID)
  catalogue : List Permission
  roleInfo : RoleID → RoleInfo
  permissionInfo : Permission → PermissionInfo
  modules : List TenantModule

variable {p : Permission}

namespace TenantData

def directory (d : TenantData) : Directory where
  status := d.status
  users := d.mirror.users
  roles := d.mirror.roles
  bindings := d.mirror.bindings
  groups := d.mirror.groups
  members := d.mirror.members
  groupRoles := d.mirror.groupRoles
  catalogue := d.mirror.catalogue
  roleInfo := d.roleInfo
  permissionInfo := d.permissionInfo
  modules := d.modules

/-- The permissions of each slug: listed in the mirror, and granted by tuples. -/
def ledger (d : TenantData) : Ledger Slug Permission where
  rows s p :=
    Named d.mirror.roles (fun id => (id, p) ∈ d.mirror.permissions) s
  facts s p := .grant s p ∈ d.tuples

theorem ledger_rows_of_mem {d : TenantData} {r : Role} (mem : r ∈ d.mirror.roles) :
    d.ledger.rows r.slug p ↔ p ∈ d.mirror.rolePermissions r.id := by
  grind [Tables.mem_rolePermissions, named_iff, ledger]

end TenantData

def Tuple.isGrant : Tuple → Bool
  | .grant _ _ => true
  | _ => false

/-- The tuples that say who is assigned to what are those of before. -/
def SameAssignments (pre after : TenantData) : Prop :=
  ∀ t, t.isGrant = false → (t ∈ after.tuples ↔ t ∈ pre.tuples)

variable {s : Slug}

theorem assignee_congr {pre after : Finset Tuple} {uid : UserID}
    (same : ∀ t, t.isGrant = false → (∀ other, t ≠ .roleTenant other) → (t ∈ after ↔ t ∈ pre)) :
    Assignee after uid s ↔ Assignee pre uid s := by
  rw [assignee_iff, assignee_iff, same _ rfl (by simp)]
  apply or_congr_right
  apply exists_congr
  intro gid
  rw [same _ rfl (by simp), same _ rfl (by simp)]

/-- The role's key was assigned. -/
structure Assigned (init : TenantData) (r : Role) (want : Permission → Prop)
    (d : TenantData) : Prop where
  directory : d.directory = init.directory
  assignments : SameAssignments init d
  ledger : d.ledger = init.ledger.assign r.slug want

/-- The role's key was assigned in part. -/
structure PartlyAssigned (init : TenantData) (r : Role) (want : Permission → Prop)
    (d : TenantData) : Prop where
  directory : d.directory = init.directory
  assignments : SameAssignments init d
  ledger : init.ledger.Toward r.slug want d.ledger

section SetGrants

variable {init d : TenantData} {r : Role} {want : Permission → Prop}

theorem Assigned.partly (assigned : Assigned init r want d) : PartlyAssigned init r want d :=
  ⟨assigned.directory, assigned.assignments, assigned.ledger ▸ Ledger.toward_assign⟩

theorem Assigned.of_same (same : ∀ p, want p ↔ init.ledger.rows r.slug p) :
    Assigned init r want init := by
  refine ⟨rfl, fun _ _ => Iff.rfl, (Ledger.change_self fun s p isSlug => ?_).symm⟩
  subst isSlug
  exact same p

theorem Assigned.congr {also : Permission → Prop} (assigned : Assigned init r want d)
    (same : ∀ p, want p ↔ also p) : Assigned init r also d := by
  have equal : want = also := funext fun p => propext (same p)
  exact equal ▸ assigned

theorem PartlyAssigned.refl : PartlyAssigned init r want init :=
  ⟨rfl, fun _ _ => Iff.rfl, Ledger.Toward.refl⟩

variable {fs : CallFaults} {wanted : List Permission}

theorem mem_newGrants {present : List Permission} {t : Tuple} :
    t ∈ newGrants s present wanted ↔ ∃ p, p ∈ wanted ∧ p ∉ present ∧ t = .grant s p := by
  simp [newGrants, grantTuples, mem_missing, and_assoc]

/-- However much of the difference was written, the key is assigned in part. -/
theorem PartlyAssigned.of_tuples (mem : r ∈ init.mirror.roles) {ts : Finset Tuple}
    (bounds : ∀ t, (t ∈ ts → t ∈ init.tuples
        ∨ t ∈ newGrants r.slug (init.mirror.rolePermissions r.id) (dedupe [] wanted))
      ∧ (t ∈ init.tuples →
        t ∉ newGrants r.slug (dedupe [] wanted) (init.mirror.rolePermissions r.id) →
        t ∈ ts)) :
    PartlyAssigned init r (· ∈ wanted) { init with tuples := ts } := by
  refine ⟨rfl, fun t other => ⟨fun stored => ?_, fun stored => ?_⟩,
    { Ledger.Toward.refl with factsKept := ?_, factsMade := ?_ }⟩
  · rcases (bounds t).1 stored with old | isNew
    · exact old
    · obtain ⟨_, -, -, rfl⟩ := mem_newGrants.mp isNew
      cases other
  · refine (bounds t).2 stored fun removed => ?_
    obtain ⟨_, -, -, rfl⟩ := mem_newGrants.mp removed
    cases other
  · intro s p fact settled
    refine (bounds _).2 fact fun removed => ?_
    obtain ⟨_, listed, unwanted, same⟩ := mem_newGrants.mp removed
    cases same
    have isWanted := settled rfl ((TenantData.ledger_rows_of_mem mem).mpr listed)
    exact unwanted (mem_dedupe.mpr ⟨isWanted, List.not_mem_nil⟩)
  · intro s p fact
    rcases (bounds _).1 fact with old | isNew
    · exact Or.inl old
    · obtain ⟨_, isWanted, unlisted, same⟩ := mem_newGrants.mp isNew
      cases same
      exact Or.inr ⟨rfl, (mem_dedupe.mp isWanted).1,
        fun row => unlisted ((TenantData.ledger_rows_of_mem mem).mp row)⟩

theorem rows_replaceAt {m : Mirror} (mem : r ∈ m.roles) : Named m.roles
        (fun id => (id, p) ∈ replaceAt r.id wanted m.permissions) s ↔
      (s = r.slug ∧ p ∈ wanted) ∨ (¬s = r.slug
          ∧ Named m.roles (fun id => (id, p) ∈ m.permissions) s) := by
  have replaced : ∀ id, (id, p) ∈ replaceAt r.id wanted m.permissions ↔
      ((id, p) ∈ m.permissions ∧ id ≠ r.id) ∨ (id = r.id ∧ p ∈ wanted) := fun _ => mem_replaceAt
  rw [named_congr replaced, named_or, named_ne mem, named_eq mem]
  tauto

/-- The tuples after the difference was written. -/
def TenantData.regranted (init : TenantData) (r : Role) (wanted : List Permission) : Finset Tuple :=
  write init.tuples (newGrants r.slug (init.mirror.rolePermissions r.id) (dedupe [] wanted))
    (newGrants r.slug (dedupe [] wanted) (init.mirror.rolePermissions r.id))

theorem PartlyAssigned.regranted (mem : r ∈ init.mirror.roles) : PartlyAssigned init r (· ∈ wanted)
      { init with tuples := init.regranted r wanted } := by
  refine PartlyAssigned.of_tuples mem fun t => ?_
  unfold TenantData.regranted
  rw [mem_write]
  tauto

theorem grant_mem_regranted (mem : r ∈ init.mirror.roles) : .grant s p ∈ init.regranted r wanted ↔
      (init.ledger.assign r.slug (· ∈ wanted)).facts s p := by
  by_cases isRole : s = r.slug
  · subst isRole
    have row : init.ledger.rows r.slug p ↔ p ∈ init.mirror.rolePermissions r.id :=
      TenantData.ledger_rows_of_mem mem
    unfold TenantData.regranted
    rw [Ledger.assign_facts_self, mem_write, mem_newGrants, mem_newGrants]
    simp only [mem_dedupe, List.not_mem_nil, not_false_eq_true, and_true, Tuple.grant.injEq,
      true_and, exists_eq_right', row, ← and_assoc]
    unfold Ledger.Settled TenantData.ledger
    tauto
  · rw [Ledger.assign_facts_other isRole]
    exact ((PartlyAssigned.regranted mem).ledger.unchanged fun same => absurd same isRole).2

theorem Assigned.of_replaced (mem : r ∈ init.mirror.roles)
    (replaced : (init.withTuples (init.regranted r wanted)).replaceRolePermissions r.id
      (dedupe [] wanted) = some d) : Assigned init r (· ∈ wanted) d := by
  unfold TenantData.replaceRolePermissions at replaced
  split at replaced
  case isFalse => cases replaced
  case isTrue =>
    cases replaced
    refine ⟨rfl, (PartlyAssigned.regranted mem).assignments, ?_⟩
    · ext s p
      · refine (rows_replaceAt mem).trans ?_
        by_cases isRole : s = r.slug
        · grind [Ledger.assign_rows_self, mem_dedupe]
        · rw [Ledger.assign_rows_other isRole]
          simp [isRole, TenantData.ledger]
      · exact grant_mem_regranted mem

theorem newGrants_eq_nil {present : List Permission} :
    newGrants s present wanted = [] ↔ ∀ p ∈ wanted, p ∈ present := by
  rw [List.eq_nil_iff_forall_not_mem]
  constructor
  · intro none p isWanted
    by_contra unlisted
    exact none _ (mem_newGrants.mpr ⟨p, isWanted, unlisted, rfl⟩)
  · intro all t written
    obtain ⟨p, isWanted, unlisted, -⟩ := mem_newGrants.mp written
    exact unlisted (all p isWanted)

/-- However far it gets, setting a role's grants touches only what was to change; when it
ends, the role's key is assigned. -/
theorem setGrants_spec (mem : r ∈ init.mirror.roles) :
    Triple (Site.meets (· = init)) (setGrants fs r wanted)
      (fun _ => Site.meets (Assigned init r (· ∈ wanted)))
      (Site.meets (PartlyAssigned init r (· ∈ wanted))) := by
  apply query_bind
  · rintro d rfl
    exact PartlyAssigned.refl
  rintro d rfl
  apply Triple.ite
  · intro nothing
    simp only [Bool.and_eq_true, List.isEmpty_iff, newGrants_eq_nil] at nothing
    apply Triple.pure
    rintro site rfl
    refine Assigned.of_same fun p => ?_
    rw [TenantData.ledger_rows_of_mem mem]
    constructor
    · exact fun isWanted =>
        nothing.1 p (mem_dedupe.mpr ⟨isWanted, List.not_mem_nil⟩)
    · exact fun listed => (mem_dedupe.mp (nothing.2 p listed)).1
  · intro _
    have written : Triple (Site.meets (· = d)) (writeTuples fs
          (newGrants r.slug (d.mirror.rolePermissions r.id) (dedupe [] wanted))
          (newGrants r.slug (dedupe [] wanted) (d.mirror.rolePermissions r.id)))
        (fun _ => Site.meets (· = d.withTuples (d.regranted r wanted)))
        (Site.meets (PartlyAssigned d r (· ∈ wanted))) := by
      apply writeTuples_spec
      · rintro other rfl
        rfl
      · grind [PartlyAssigned.of_tuples]
    have replaced : Triple (Site.meets (· = d.withTuples (d.regranted r wanted)))
        (executeChecked fs fun d => d.replaceRolePermissions r.id (dedupe [] wanted))
        (fun _ => Site.meets (Assigned d r (· ∈ wanted)))
        (Site.meets (PartlyAssigned d r (· ∈ wanted))) := by
      apply executeChecked_spec
      · grind [Assigned.of_replaced, Assigned.partly]
      · rintro other rfl
        have partly := @PartlyAssigned.regranted d r wanted mem
        exact ⟨partly.directory, partly.assignments, partly.ledger⟩
    grind [Triple.bind, Triple.pure]

/-- A row of this id and slug; its other columns may have changed since it was read. -/
def Listed (d : TenantData) (r : Role) : Prop :=
  ∃ row ∈ d.mirror.roles, row.id = r.id ∧ row.slug = r.slug

theorem setGrants_listed (listed : Listed init r) :
    Triple (Site.meets (· = init)) (setGrants fs r wanted)
      (fun _ => Site.meets (Assigned init r (· ∈ wanted)))
      (Site.meets (PartlyAssigned init r (· ∈ wanted))) := by
  obtain ⟨row, mem, sameID, sameSlug⟩ := listed
  have same : setGrants fs r wanted = setGrants fs row wanted := by
    unfold setGrants
    rw [sameID, sameSlug]
  rw [same]
  refine (setGrants_spec mem).weaken (fun _ met => met) (fun _ _ assigned => ?_) fun _ partly => ?_
  · exact ⟨assigned.directory, assigned.assignments, sameSlug ▸ assigned.ledger⟩
  · exact ⟨partly.directory, partly.assignments, sameSlug ▸ partly.ledger⟩

theorem Listed.rows (listed : Listed init r) : init.ledger.rows r.slug p ↔
      p ∈ init.mirror.rolePermissions r.id := by
  grind [TenantData.ledger_rows_of_mem, Listed]

theorem addGrants_listed (listed : Listed init r) :
    Triple (Site.meets (· = init)) (addGrants fs r wanted)
      (fun _ => Site.meets (Assigned init r fun p =>
        init.ledger.rows r.slug p ∨ p ∈ wanted))
      (Site.meets (PartlyAssigned init r fun p =>
        init.ledger.rows r.slug p ∨ p ∈ wanted)) := by
  have want : (fun p => init.ledger.rows r.slug p ∨ p ∈ wanted)
      = (· ∈ init.mirror.rolePermissions r.id ++ wanted) := by
    funext p
    rw [List.mem_append, listed.rows]
  rw [want]
  apply query_bind
  · rintro d rfl
    exact PartlyAssigned.refl
  grind [setGrants_listed, Triple.bind, Triple.pure]

end SetGrants

/-! ### Call after call -/

/-- A call of `setGrants`: which of its own calls fail, and what is wanted. -/
structure SetCall where
  faults : CallFaults
  wanted : List Permission

/-- The calls on one role, one after another; a call that fails leaves what it wrote. -/
def setAll (r : Role) : List SetCall → Site → Site
  | [], site => site
  | call :: rest, site => setAll r rest (setGrants call.faults r call.wanted site).2

/-- Where the mirror and the tuples part, the tuples are as wanted. -/
def Repairable (d : TenantData) (r : Role) (wanted : List Permission) : Prop :=
  ∀ p, (p ∈ wanted → p ∈ d.mirror.rolePermissions r.id → .grant r.slug p ∈ d.tuples)
    ∧ (p ∉ wanted → .grant r.slug p ∈ d.tuples → p ∈ d.mirror.rolePermissions r.id)

section CallAfterCall

variable {site : Site} {r : Role}

theorem setGrants_directory (listed : Listed site.data r) (call : SetCall) :
    (setGrants call.faults r call.wanted site).2.data.directory = site.data.directory := by
  have out := @setGrants_listed site.data r call.faults call.wanted listed site rfl
  rcases ran : setGrants call.faults r call.wanted site with ⟨error | counts, next⟩
  · rw [ran] at out
    exact out.directory
  · rw [ran] at out
    exact out.directory

theorem Listed.of_directory {d next : TenantData} (listed : Listed d r)
    (same : next.directory = d.directory) : Listed next r := by
  have roles : next.mirror.roles = d.mirror.roles := congrArg Directory.roles same
  unfold Listed
  rw [roles]
  exact listed

theorem setAll_listed (listed : Listed site.data r) (history : List SetCall) :
    Listed (setAll r history site).data r := by
  induction history generalizing site with
  | nil => exact listed
  | cons call rest ih =>
    exact ih (listed.of_directory (setGrants_directory listed call))

/-- After any history of calls, one that returns nil grants exactly what it wants when, and
only when, it finds the two stores apart nowhere but where the tuples are as it wants. -/
theorem setGrants_exact_iff {init after : Site} {counts : Nat × Nat}
    (listed : Listed init.data r) (history : List SetCall) (last : SetCall)
    (returned : setGrants last.faults r last.wanted (setAll r history init) = (.ok counts, after)) :
    (∀ p, .grant r.slug p ∈ after.data.tuples ↔ p ∈ last.wanted) ↔
      Repairable (setAll r history init).data r last.wanted := by
  have found := setAll_listed listed history
  have assigned := (setGrants_listed found).ended rfl returned
  refine forall_congr' fun p => ?_
  have fact : .grant r.slug p ∈ after.data.tuples ↔ after.data.ledger.facts r.slug p := Iff.rfl
  rw [fact, assigned.ledger, Ledger.assign_facts_self, Ledger.settled_cases, found.rows]
  change _ ↔ (_ → _ → (setAll r history init).data.ledger.facts r.slug p)
    ∧ (_ → (setAll r history init).data.ledger.facts r.slug p → _)
  tauto

end CallAfterCall

namespace Sample

def reading : Permission := ⟨"docs", "page", "read"⟩

def editing : Permission := ⟨"docs", "page", "edit"⟩

def memberRole : Role := ⟨1, "member", .builtin, false⟩

/-- A role without grants. -/
def ungranted : Site := ⟨TenantData.withMember 7 [reading, editing] [] [], 0⟩

/-- The tuples are written, the rows are not. -/
def broken : SetCall := ⟨fun call => if call = 2 then some 0 else none, [reading]⟩

def undisturbed (wanted : List Permission) : SetCall := ⟨fun _ => none, wanted⟩

end Sample

/-- The same call made again repairs what the first one left. -/
theorem repeated_setGrants_exact :
    ∃ counts after, setGrants (fun _ => none) Sample.memberRole [Sample.reading]
        (setAll Sample.memberRole [Sample.broken] Sample.ungranted) = (.ok counts, after)
      ∧ ∀ p, .grant "member" p ∈ after.data.tuples ↔ p ∈ [Sample.reading] := by
  have listed : Listed Sample.ungranted.data Sample.memberRole :=
    ⟨Sample.memberRole, by decide, rfl, rfl⟩
  have unlisted : Tables.rolePermissions
      (setAll Sample.memberRole [Sample.broken] Sample.ungranted).data.mirror.toTables 1 = [] := rfl
  have ts : (setAll Sample.memberRole [Sample.broken] Sample.ungranted).data.tuples
      = {.roleAssignment "member" 7, .grant "member" Sample.reading} := by decide
  refine ⟨_, _, rfl, (setGrants_exact_iff listed [Sample.broken]
    (Sample.undisturbed [Sample.reading]) rfl).mpr fun p => ⟨fun _ row => ?_, ?_⟩⟩
  · exact absurd (unlisted ▸ row) List.not_mem_nil
  · intro unwanted fact
    rw [ts] at fact
    have granted : p = Sample.reading := by simpa [Sample.memberRole] using fact
    exact absurd (granted ▸ List.mem_singleton_self Sample.reading) unwanted

/-- A call that wants something else leaves the grant of the broken one. -/
theorem broken_grant_survives_setGrants :
    ∃ counts after, setGrants (fun _ => none) Sample.memberRole [Sample.editing]
        (setAll Sample.memberRole [Sample.broken] Sample.ungranted) = (.ok counts, after)
      ∧ .grant "member" Sample.reading ∈ after.data.tuples :=
  ⟨_, _, rfl, by decide⟩

/-! ### Role after role -/

/-- The slugs of these roles were assigned what `want` says. -/
structure AssignedEach (init : TenantData) (roles : List Role) (want : Slug → Permission → Prop)
    (d : TenantData) : Prop where
  directory : d.directory = init.directory
  assignments : SameAssignments init d
  ledger : d.ledger = init.ledger.change (fun s => ∃ r ∈ roles, s = r.slug) want

section Each

variable {init d after : TenantData} {roles done : List Role} {r : Role}
  {want : Slug → Permission → Prop}

theorem AssignedEach.nil : AssignedEach init [] want init :=
  ⟨rfl, fun _ _ => Iff.rfl, (Ledger.change_none (by simp)).symm⟩

theorem AssignedEach.rows_of (assigned : AssignedEach init roles want d) (mem : r ∈ roles) :
    d.ledger.rows r.slug p ↔ want r.slug p := by
  have isKey : (fun s => ∃ other ∈ roles, s = other.slug) r.slug := ⟨r, mem, rfl⟩
  rw [assigned.ledger]
  exact Ledger.change_rows_of isKey

theorem AssignedEach.step (sofar : AssignedEach init done want d)
    (fresh : ∀ other ∈ done, r.slug ≠ other.slug)
    (assigned : Assigned d r (want r.slug) after) :
    AssignedEach init (done ++ [r]) want after := by
  refine ⟨assigned.directory.trans sofar.directory, fun t notGrant =>
    (assigned.assignments t notGrant).trans (sofar.assignments t notGrant), ?_⟩
  have ks : (fun s => ∃ other ∈ done ++ [r], s = other.slug)
      = fun s => (∃ other ∈ done, s = other.slug) ∨ s = r.slug := by
    funext s
    simp [or_and_right, exists_or]
  have apart : ¬∃ other ∈ done, r.slug = other.slug := by
    rintro ⟨other, isDone, same⟩
    exact fresh other isDone same
  rw [ks, assigned.ledger, sofar.ledger]
  grind [Ledger.change_assign]

/-- The loop over roles of distinct slugs, when the step of a role assigns its slug and reads
only that slug. -/
theorem each_assigns {α : Type} {work : Role → Work α} (ne : UniqueKey Role.slug roles)
    (body : ∀ r ∈ roles, ∀ d : TenantData, d.directory = init.directory →
      (∀ p, d.ledger.rows r.slug p ↔ init.ledger.rows r.slug p) →
      Triple (Site.meets (· = d)) (work r)
        (fun _ => Site.meets (Assigned d r (want r.slug))) (Site.meets fun _ => True)) :
    Triple (Site.meets (· = init)) (Task.each work roles)
      (fun _ => Site.meets (AssignedEach init roles want)) (Site.meets fun _ => True) := by
  have loop := @Triple.each Site RegisterError Role α (Site.meets fun _ => True) work roles
    fun done => Site.meets (AssignedEach init done want)
  refine (loop fun done r rest whole => Site.from fun d sofar => ?_).enter fun site same => ?_
  · have fresh : ∀ other ∈ done, r.slug ≠ other.slug := by
      intro other isDone same
      rw [UniqueKey, whole, List.map_append, List.nodup_append] at ne
      exact ne.2.2 _ (List.mem_map_of_mem isDone) _ List.mem_cons_self same.symm
    have rs : ∀ p, d.ledger.rows r.slug p ↔ init.ledger.rows r.slug p := by
      intro p
      rw [sofar.ledger]
      refine Ledger.change_rows_of_not ?_
      rintro ⟨other, isDone, same⟩
      exact fresh other isDone same
    exact (body r (by simp [whole]) d sofar.directory rs).leave fun _ _ assigned =>
      sofar.step fresh assigned
  · rw [Site.meets, show site.data = init from same]
    exact AssignedEach.nil

end Each

end TangraAuth.Authz

import TangraAuth.Authz.Grants

/-!
Contract: the verification of the grants of a rollout, and the removal of the
legacy permissions behind it.

Owns: what a verification loads and reports, the pages of active users, the
removal tenant by tenant, and which decisions change with it.

Does not own: snapshots and their comparison, audit events, and changes that
overlap a removal.
-/

namespace TangraAuth.Authz

open Library Store Accounts

/-! ### What is loaded -/

/-- `scopedBy` are the modules that registered a `resource:action`. -/
structure TenantState where
  scopedBy : String → List String
  legacy : List Permission
  roles : List Role
  grants : RoleID → List Permission
  users : List (UserID × List Permission)

def memberPage : Nat := 1000

namespace TenantData

variable (d : TenantData)

/-- The active users past the cursor, by id. -/
def activeAfter (post : Option UserID) : List UserID :=
  ((d.mirror.users.filter fun u =>
    u.status == .active && post.all (· < u.id)).map Account.id).insertionSort (· ≤ ·)

/-- Page after page until a short one. -/
def drainActive : Nat → Option UserID → List UserID
  | 0, _ => []
  | fuel + 1, post =>
    let page := (d.activeAfter post).take memberPage
    if page.length < memberPage then page else page ++ drainActive fuel page.getLast?

/-- Every full page moves the cursor past some users, so there are fewer pages than users. -/
def activeMembers : List UserID := d.drainActive (d.mirror.users.length + 1) none

def scopedBy (short : String) : List String :=
  ((d.mirror.catalogue.filter fun p =>
    !p.isLegacy && p.short == short).map Permission.moduleName).insertionSort (· ≤ ·)

/-- What the user's roles list, those held through groups included. -/
def effectivePermissions (uid : UserID) : List Permission :=
  dedupe [] ((d.mirror.effectiveRoles uid).flatMap fun r =>
    d.mirror.rolePermissions r.id)

def load : TenantState where
  scopedBy := d.scopedBy
  legacy := d.mirror.catalogue.filter Permission.isLegacy
  roles := d.mirror.roles
  grants := fun id => dedupe [] (d.mirror.rolePermissions id)
  users := d.activeMembers.map fun uid => (uid, d.effectivePermissions uid)

end TenantData

/-! ### What is reported -/

inductive FindingKind where
  | loss
  | pending
  | drift
  | review
deriving DecidableEq, Repr

/-- A finding is about a role or about a user. -/
structure Finding where
  tenantID : TenantID
  kind : FindingKind
  role : Option Slug
  userID : Option UserID
  permission : String
deriving DecidableEq, Repr

structure Report where
  tenants : Nat
  findings : List Finding
deriving DecidableEq, Repr

def Report.count (report : Report) (kind : FindingKind) : Nat :=
  (report.findings.filter fun finding => finding.kind == kind).length

/-- No loss, no pending grant and no drift; a review does not stop a removal. -/
def Report.clean (report : Report) : Bool :=
  report.count .loss == 0 && report.count .pending == 0 && report.count .drift == 0

def byText (left right : Permission) : Prop := left.text ≤ right.text

instance : DecidableRel byText := fun left right => by
  unfold byText
  infer_instance

def sortedRefs (perms : List Permission) : List Permission :=
  perms.insertionSort byText

namespace TenantState

variable (st : TenantState) (tid : TenantID)

/-- The modules that registered a legacy grant without its counterpart among the grants. -/
def lost (grants : List Permission) (grant : Permission) : List String :=
  (st.scopedBy grant.short).filter fun mod =>
    !grants.contains (grant.withModule mod)

def grantFindings (r : Role) (grant : Permission) : List Finding :=
  if !grant.isLegacy then []
  else
    (if (st.scopedBy grant.short).isEmpty then
      [⟨tid, .pending, some r.slug, none, grant.text⟩]
    else [])
    ++ (st.lost (st.grants r.id) grant).map fun mod =>
      ⟨tid, .loss, some r.slug, none, (grant.withModule mod).text⟩

/-- A custom role named like a built-in one that got a module's grants. -/
def reviewFindings (r : Role) : List Finding :=
  if r.origin == .custom && (r.slug == "operator" || r.slug == "auditor") then
    (((sortedRefs (st.grants r.id)).find? fun grant => !grant.isLegacy).map fun grant =>
      ⟨tid, .review, some r.slug, none, grant.text⟩).toList
  else []

def roleFindings (r : Role) : List Finding :=
  (sortedRefs (st.grants r.id)).flatMap (st.grantFindings tid r) ++ st.reviewFindings tid r

def userLosses (uid : UserID) (effective : List Permission) : List Finding :=
  (sortedRefs effective).flatMap fun grant =>
    if !grant.isLegacy then []
    else (st.lost effective grant).map fun mod =>
      ⟨tid, .loss, none, some uid, (grant.withModule mod).text⟩

/-- The grants of modules that the backend does not confirm. -/
def userDrifts (ts : Finset Tuple) (uid : UserID) (effective : List Permission) : List Finding :=
  (((sortedRefs effective).filter fun grant => !grant.isLegacy).filter fun grant =>
    !decide (Granted ts uid grant)).map fun grant =>
      ⟨tid, .drift, none, some uid, grant.text⟩

end TenantState

def sampleSize (sampleUsers : Nat) : Nat := if sampleUsers = 0 then 50 else sampleUsers

/-- The backend is asked about the first users only. -/
def TenantData.findings (d : TenantData) (sampleUsers : Nat) (tid : TenantID) : List Finding :=
  d.load.roles.flatMap (d.load.roleFindings tid)
    ++ d.load.users.zipIdx.flatMap fun e =>
      d.load.userLosses tid e.1.1 e.1.2 ++ if e.2 < sampleSize sampleUsers then
            TenantState.userDrifts tid d.tuples e.1.1 e.1.2
          else []

/-! ### Verification and removal -/

inductive PruneError where
  | refused
  | unavailable
deriving DecidableEq, Repr

structure PruneResult where
  tenants : Nat
  permissions : Nat
  grants : Nat
deriving DecidableEq, Repr

def PruneResult.add (left right : PruneResult) : PruneResult :=
  ⟨left.tenants + right.tenants, left.permissions + right.permissions, left.grants + right.grants⟩

section Calls

variable (fs : CallFaults)

/-- The statements of a tenant's verification only read; one that fails fails the whole. -/
def verify (sampleUsers : Nat) (tns : List TenantID) : Task World RegisterError Report := do
  let findings ← Task.each (fun tid => onTenant tid
      (query fs fun d => d.findings sampleUsers tid)) tns
  pure ⟨tns.length, findings.flatten⟩

/-- The tuples of the legacy grants that the roles list. -/
def TenantState.legacyGrants (st : TenantState) : List Tuple :=
  st.roles.flatMap fun r =>
    ((sortedRefs (st.grants r.id)).filter Permission.isLegacy).flatMap (grantTuples r.slug)

/-- The tuples go first, then the rows. -/
def pruneTenant (dryRun : Bool) : Work PruneResult := do
  let st ← query fs TenantData.load
  if st.legacy.isEmpty && st.legacyGrants.isEmpty then pure ⟨0, 0, 0⟩
  else if dryRun then pure ⟨1, st.legacy.length, st.legacyGrants.length⟩
  else
    writeTuples fs [] st.legacyGrants
    perform fs TenantData.deleteLegacyPermissions
    pure ⟨1, st.legacy.length, st.legacyGrants.length⟩

def pruneTenants (tns : List TenantID) (dryRun : Bool) :
    Task World RegisterError (List PruneResult) :=
  Task.each (fun tid => onTenant tid (pruneTenant fs dryRun)) tns

def pruneLegacy (sampleUsers : Nat) (tns : List TenantID) (dryRun : Bool) :
    Task World PruneError PruneResult := do
  let report ← (verify fs sampleUsers tns).mapError fun _ => .unavailable
  if report.clean then
    let results ← (pruneTenants fs tns dryRun).mapError fun _ => .unavailable
    pure (results.foldl PruneResult.add ⟨0, 0, 0⟩)
  else Task.fail .refused

end Calls

/-! ### The removal -/

theorem Report.of_clean {report : Report} (clean : report.clean = true) {finding : Finding}
    (mem : finding ∈ report.findings) : finding.kind = .review := by
  unfold Report.clean Report.count at clean
  simp only [Bool.and_eq_true, beq_iff_eq, List.length_eq_zero_iff, List.filter_eq_nil_iff] at clean
  rcases finding with ⟨_, kind, _, _, _⟩
  cases kind with
  | review => rfl
  | loss => exact absurd rfl (clean.1.1 _ mem)
  | pending => exact absurd rfl (clean.1.2 _ mem)
  | drift => exact absurd rfl (clean.2 _ mem)

/-- A grant of a permission made before modules. -/
def Tuple.isLegacyGrant : Tuple → Bool
  | .grant _ p => p.isLegacy
  | _ => false

/-- The legacy permissions left the catalogue, and no tuple but legacy grants was removed. -/
structure Pruned (pre post : TenantData) : Prop where
  status : post.status = pre.status
  users : post.mirror.users = pre.mirror.users
  catalogue : ∀ p, p ∈ post.mirror.catalogue ↔ p ∈ pre.mirror.catalogue ∧ p.isLegacy = false
  tuples : ∀ t, t.isLegacyGrant = false → (t ∈ post.tuples ↔ t ∈ pre.tuples)

section Removal

variable {fs : CallFaults} {init d : TenantData} {uid : UserID} {s : Slug}
  {p : Permission}

theorem Pruned.trans {first second third : TenantData} (one : Pruned first second)
    (two : Pruned second third) : Pruned first third where
  status := two.status.trans one.status
  users := two.users.trans one.users
  catalogue := fun p => by
    rw [two.catalogue, one.catalogue, and_assoc, and_self]
  tuples := fun t other => (two.tuples t other).trans (one.tuples t other)

theorem isLegacy_of_mem_legacyGrants {t : Tuple} (mem : t ∈ init.load.legacyGrants) :
    t.isLegacyGrant = true := by
  obtain ⟨r, -, granted⟩ := List.mem_flatMap.mp mem
  obtain ⟨p, kept, isTuple⟩ := List.mem_flatMap.mp granted
  rw [List.mem_singleton.mp isTuple]
  exact (List.mem_filter.mp kept).2

theorem Pruned.of_empty (none : init.load.legacy.isEmpty = true) : Pruned init init where
  status := rfl
  users := rfl
  catalogue := fun p => by
    have scopedOnly := List.filter_eq_nil_iff.mp (List.isEmpty_iff.mp none)
    grind
  tuples := fun _ _ => Iff.rfl

theorem Pruned.of_removed : Pruned init (init.withTuples
      (write init.tuples [] init.load.legacyGrants)).deleteLegacyPermissions where
  status := rfl
  users := rfl
  catalogue := fun p => by
    simp [TenantData.deleteLegacyPermissions, Tables.deleteLegacyPermissions, TenantData.withTuples]
  tuples := fun t other => by
    have kept : t ∉ init.load.legacyGrants := fun mem => by
      rw [isLegacy_of_mem_legacyGrants mem] at other
      cases other
    show t ∈ write init.tuples [] init.load.legacyGrants ↔ _
    simp [mem_write, kept]

theorem pruneTenant_spec : Triple (Site.meets (· = init)) (pruneTenant fs false)
      (fun _ => Site.meets (Pruned init)) (Site.meets fun _ => True) := by
  unfold pruneTenant
  refine query_bind (fun _ _ => trivial) ?_
  rintro d rfl
  refine Triple.ite (fun nothing => ?_) fun _ => ?_
  · simp only [Bool.and_eq_true] at nothing
    exact Triple.pure fun site same => by
      rw [Site.meets, same]
      exact Pruned.of_empty nothing.1
  · rw [if_neg Bool.false_ne_true]
    have written := @writeTuples_spec fs (· = d)
      (· = d.withTuples (write d.tuples [] d.load.legacyGrants)) (fun _ => True) []
      d.load.legacyGrants (fun _ same => same ▸ rfl) fun _ _ _ _ => trivial
    have deleted := @perform_spec fs
      (· = d.withTuples (write d.tuples [] d.load.legacyGrants)) (Pruned d)
      (fun _ => True) TenantData.deleteLegacyPermissions
      (fun _ same => ⟨same ▸ Pruned.of_removed, trivial⟩) fun _ _ => trivial
    grind [Triple.bind, Triple.pure]

theorem Pruned.active (pruned : Pruned init d) : d.Active uid ↔ init.Active uid := by
  unfold TenantData.Active TenantData.userStatus
  rw [pruned.status, pruned.users]

theorem Pruned.granted (pruned : Pruned init d) (ofModule : p.isLegacy = false) :
    Granted d.tuples uid p ↔ Granted init.tuples uid p := by
  rw [granted_iff, granted_iff]
  apply exists_congr
  intro s
  rw [pruned.tuples (.grant s p) ofModule]
  apply and_congr_right
  intro _
  refine assignee_congr fun t other _ => pruned.tuples t ?_
  cases t <;> first | rfl | cases other

/-- A decision on a module's permission rests on its own object only. -/
theorem Pruned.decides_iff (pruned : Pruned init d) (ofModule : p.isLegacy = false)
    {lookup : Lookup} (accurate : lookup.Accurate d.tuples) :
    d.decides lookup uid p = true ↔ init.Active uid ∧ p ∈ init.mirror.catalogue
        ∧ Granted init.tuples uid p := by
  rw [TenantData.decides_iff accurate, pruned.active]
  apply and_congr_right
  intro _
  constructor
  · rintro ⟨obj, resolved, granted⟩
    rcases resolve_eq_some.mp resolved with ⟨known, rfl⟩ | ⟨-, -, known, rfl⟩
    · exact ⟨((pruned.catalogue _).mp known).1, (pruned.granted ofModule).mp granted⟩
    · cases ((pruned.catalogue _).mp known).2
  · rintro ⟨known, granted⟩
    have stays := (pruned.catalogue p).mpr ⟨known, ofModule⟩
    exact ⟨p, resolve_eq_some.mpr (Or.inl ⟨stays, rfl⟩), (pruned.granted ofModule).mpr granted⟩

/-- The legacy permission decides: the one asked for is not registered. -/
def RestsOnLegacy (d : TenantData) (uid : UserID) (p : Permission) : Prop :=
  d.Active uid ∧ p ∉ d.mirror.catalogue ∧ p.legacy ∈ d.mirror.catalogue
    ∧ Granted d.tuples uid p.legacy

theorem Pruned.decides_eq_iff (pruned : Pruned init d) (ofModule : p.isLegacy = false)
    {lookup post : Lookup} (accurate : lookup.Accurate init.tuples)
    (afterAccurate : post.Accurate d.tuples) :
    d.decides post uid p = init.decides lookup uid p ↔ ¬RestsOnLegacy init uid p := by
  have looked : (∃ obj, resolve init.mirror.catalogue p = some obj ∧ Granted init.tuples uid obj)
      ↔ (p ∈ init.mirror.catalogue ∧ Granted init.tuples uid p)
        ∨ (p ∉ init.mirror.catalogue ∧ p.legacy ∈ init.mirror.catalogue
          ∧ Granted init.tuples uid p.legacy) := by
    grind [resolve_eq_some]
  rw [Bool.eq_iff_iff, pruned.decides_iff ofModule afterAccurate,
    TenantData.decides_iff accurate, looked]
  unfold RestsOnLegacy
  tauto

end Removal

section Runs

variable {fs : CallFaults} {w post : World} {tns : List TenantID}
  {tid : TenantID} {sampleUsers : Nat} {uid : UserID} {p : Permission}
  {res : PruneResult} {lookup afterLookup : Lookup}

theorem verifyTenant_spec : Triple (fun now : World => now.tenants = w.tenants)
      (onTenant tid (query fs fun d => d.findings sampleUsers tid))
      (fun findings now => now.tenants = w.tenants
        ∧ (w.tenants tid).findings sampleUsers tid = findings)
      fun _ => True := by
  refine Triple.from fun now unchanged => ?_
  refine (onTenant_spec (query_spec fun d same => same)).weaken (fun _ same => same) ?_
    fun _ _ => trivial
  grind [Function.update_eq_self]

/-- A verification changes nothing and reports what it finds in each tenant. -/
theorem verify_spec :
    Triple (fun now : World => now.tenants = w.tenants) (verify fs sampleUsers tns)
      (fun report now => now.tenants = w.tenants
        ∧ ∀ tid ∈ tns, ∀ finding ∈ (w.tenants tid).findings sampleUsers tid,
          finding ∈ report.findings)
      fun _ => True := by
  unfold verify
  refine Triple.bind (Triple.each_values fun tid _ => verifyTenant_spec) fun lists => ?_
  refine Triple.pure ?_
  rintro now ⟨unchanged, returned⟩
  refine ⟨unchanged, fun tid mem finding found => ?_⟩
  have isLists : tns.map (fun tid => (w.tenants tid).findings sampleUsers tid) = lists := by
    rw [← List.forall₂_eq_eq_eq, List.forall₂_map_left_iff]
    exact returned
  grind

theorem pruneLegacy_spec : Triple (· = w) (pruneLegacy fs sampleUsers tns false)
      (fun _ post =>
        (∀ tid ∈ tns, ∀ finding ∈ (w.tenants tid).findings sampleUsers tid, finding.kind = .review)
        ∧ ∀ tid, (tid ∈ tns → Pruned (w.tenants tid) (post.tenants tid))
            ∧ (tid ∉ tns → post.tenants tid = w.tenants tid))
      fun _ => True := by
  unfold pruneLegacy
  have verified := (@verify_spec fs w tns sampleUsers).enter
    fun now (same : now = w) => congrArg World.tenants same
  refine Triple.bind verified.mapError fun report => ?_
  refine Triple.ite (fun clean => ?_) fun _ => Triple.fail fun _ _ => trivial
  refine Triple.from fun now found => ?_
  have removed := @eachTenant_spec now PruneResult (pruneTenant fs false) tns Pruned
    (fun _ => pruneTenant_spec) Pruned.trans
  refine Triple.bind (Triple.mapError removed) fun results => Triple.pure fun post pruned => ?_
  rw [found.1] at pruned
  exact ⟨fun tid mem finding inTenant =>
    Report.of_clean clean (found.2 tid mem finding inTenant), pruned⟩

/-- After a removal a decision on a module's permission is what it was, unless the legacy
permission decided it. -/
theorem pruneLegacy_keeps_decision_iff
    (ran : pruneLegacy fs sampleUsers tns false w = (.ok res, post))
    (active : (w.tenants tid).userStatus uid = some .active)
    (ofModule : p.isLegacy = false)
    (accurate : lookup.Accurate (w.tenants tid).tuples)
    (afterAccurate : afterLookup.Accurate (post.tenants tid).tuples) :
    (post.tenants tid).decides afterLookup uid p = (w.tenants tid).decides lookup uid p ↔
      tid ∉ tns ∨ (w.tenants tid).status ≠ .active ∨ p ∈ (w.tenants tid).mirror.catalogue
        ∨ p.legacy ∉ (w.tenants tid).mirror.catalogue
        ∨ ¬Granted (w.tenants tid).tuples uid p.legacy := by
  obtain ⟨-, pruned⟩ := pruneLegacy_spec.ended rfl ran
  by_cases named : tid ∈ tns
  · rw [((pruned tid).1 named).decides_eq_iff ofModule accurate afterAccurate]
    unfold RestsOnLegacy TenantData.Active
    tauto
  · have same := (pruned tid).2 named
    refine ⟨fun _ => Or.inl named, fun _ => ?_⟩
    rw [Bool.eq_iff_iff, TenantData.decides_iff afterAccurate, TenantData.decides_iff accurate,
      same]

end Runs

/-! A tenant in which `files` registered `docs:read` and took over its grants, and `mail` has
not registered anything yet. -/

def rolloutTenant : TenantData :=
  TenantData.withMember 7 [⟨"", "docs", "read"⟩, ⟨"files", "docs", "read"⟩]
    [⟨"", "docs", "read"⟩, ⟨"files", "docs", "read"⟩] [⟨"files", true⟩]

def rolloutWorld : World where
  catalogue := ⟨[], [], [], Catalogue.defined_nil⟩
  tenants := fun _ => rolloutTenant
  calls := 0

def rolloutRun : Except PruneError PruneResult × World :=
  pruneLegacy (fun _ => none) 0 [1] false rolloutWorld

/-- The removal is accepted, and members lose what they may do in the module that has not
registered its permission. -/
theorem prune_denies_unregistered_permission : rolloutRun.1 = .ok ⟨1, 1, 1⟩
      ∧ (rolloutWorld.tenants 1).decides (fun _ _ => none) 7 ⟨"mail", "docs", "read"⟩ = true
      ∧ (rolloutRun.2.tenants 1).decides (fun _ _ => none) 7 ⟨"mail", "docs", "read"⟩ = false := by
  refine ⟨?_, ?_, ?_⟩ <;> decide +kernel

theorem prune_keeps_registered_docs : rolloutRun.1 = .ok ⟨1, 1, 1⟩
      ∧ (rolloutRun.2.tenants 1).decides (fun _ _ => none) 7 ⟨"files", "docs", "read"⟩
        = (rolloutWorld.tenants 1).decides (fun _ _ => none) 7 ⟨"files", "docs", "read"⟩ := by
  have ended : rolloutRun.1 = .ok ⟨1, 1, 1⟩ := by decide +kernel
  refine ⟨ended, (@pruneLegacy_keeps_decision_iff (fun _ => none) rolloutWorld rolloutRun.2
    [1] 1 0 7
    ⟨"files", "docs", "read"⟩ ⟨1, 1, 1⟩ (fun _ _ => none) (fun _ _ => none) ?_ rfl rfl
    (fun _ _ _ impossible => by cases impossible)
    (fun _ _ _ impossible => by cases impossible)).mpr ?_⟩
  · rw [← ended]
    rfl
  · exact Or.inr (Or.inr (Or.inl (by decide)))

end TangraAuth.Authz

import TangraAuth.Authz.Agreement
import TangraAuth.Library.Execution

/-!
Contract: the decisions of a tenant over whole runs of calls.

Owns: the run of calls that succeed, from a tenant without users and groups, the
invariant of such a run, and the equality of the model's decisions with the
mirror's effective roles in every state reached.

Does not own: attempts whose write fails.
-/

namespace TangraAuth.Authz

open Library Store Accounts

def Tuple.ofGroup (gid : GroupID) : Tuple → Bool
  | .groupTenant other => other == gid
  | .groupMembership other _ => other == gid
  | .groupRole other _ => other == gid
  | _ => false

/-- The generated id of a new group occurs in no tuple. Generated role and user ids are
compared with the rows by their primary keys. -/
def State.freshID (st : State) : Call → Bool
  | .createGroup _ id _ _ => decide (∀ t ∈ st.tuples, t.ofGroup id = false)
  | _ => true

/-- A call that succeeds. -/
def step (st : State) (c : Call) : Option State :=
  if st.freshID c then
    match execute (plan st.mirror c) none st with
    | (.ok (), next) => some next
    | (.error _, _) => none
  else none

/-- A tenant as it is created: roles with their permissions, no users and no groups. -/
structure EmptyTenant (st : State) : Prop where
  users : st.mirror.users = []
  groups : st.mirror.groups = []
  tuples : ∀ t, t ∈ st.tuples ↔ Expected st.mirror.toTables t

/-- The model grants an active user exactly the permissions of the user's effective roles. -/
def Decides (st : State) : Prop :=
  ∀ u ∈ st.mirror.users, u.status = .active → ∀ p,
    Granted st.tuples u.id p ↔ ∃ r ∈ st.mirror.effectiveRoles u.id,
        p ∈ st.mirror.rolePermissions r.id

def Tuple.carries (s : Slug) : Tuple → Bool
  | .groupRole _ other => other == s
  | _ => false

/-- No group is still assigned the slug under which the call makes a role. -/
def CleanSlug (st : State) (c : Call) : Prop :=
  ∀ s, c.creates = some s → ∀ t ∈ st.tuples, t.carries s = false

variable {st next : State} {c : Call} {m : Mirror} {res : Plan}

theorem CleanSlug.unassigned {s : Slug} (clean : CleanSlug st c)
    (creates : c.creates = some s) (gid : GroupID) :
    .groupRole gid s ∉ st.tuples := by
  intro stored
  have other := clean s creates _ stored
  simp [Tuple.carries] at other

/-! ### The invariant -/

structure Kept (st : State) : Prop where
  agrees : Agrees st.mirror.toTables st.tuples
  active : ∀ u ∈ st.mirror.users, u.status = .active

theorem EmptyTenant.kept (empty : EmptyTenant st) : Kept st where
  agrees :=
    { complete := fun t => (empty.tuples t).mpr
      sound := fun t stored => Or.inl ((empty.tuples t).mp stored) }
  active := by
    rw [empty.users]
    simp

theorem step_eq_some (taken : step st c = some next) :
    st.freshID c = true ∧ ∃ res, Change st.mirror c res ∧ res.after = some next.mirror
      ∧ next.tuples = write st.tuples res.adds res.removes := by
  unfold step at taken
  split at taken
  case isFalse => cases taken
  case isTrue fresh =>
    refine ⟨fresh, ?_⟩
    unfold execute at taken
    grind [writeWith_none, plan_sound]

/-- Calls keep agreement: a new role needs a slug that no group is still assigned, a new
group an unused id, and an accepted account must be new. -/
theorem Change.agrees {fin : Mirror} {ts : Finset Tuple} (change : Change m c res)
    (agrees : Agrees m.toTables ts) (active : ∀ u ∈ m.users, u.status = .active)
    (fresh : State.freshID ⟨m, ts⟩ c = true) (clean : CleanSlug ⟨m, ts⟩ c)
    (done : res.after = some fin) :
    Agrees fin.toTables (write ts res.adds res.removes) := by
  cases change with
  | assignRoles known rs =>
    cases done
    rw [rs]
    exact agrees.replaceBindings known
  | createRole creates unused rs =>
    rw [(checked_eq_some done).2]
    exact agrees.createRole unused.1 (clean.unassigned creates) rs
  | updateRole mem =>
    rw [(checked_eq_some done).2]
    exact agrees.replaceRolePermissions mem
  | removeRole mem rs =>
    cases done
    rw [rs]
    exact agrees.removeRole mem
  | createGroup unused rs =>
    cases done
    rw [rs]
    apply agrees.insertGroup
    intro uid stored
    have other := of_decide_eq_true fresh _ stored
    simp [Tuple.ofGroup] at other
  | addMembers strangers joined rs =>
    cases done
    rw [rs]
    exact agrees.appendMembers _
  | removeStranger =>
    cases done
    exact agrees
  | removeMember =>
    cases done
    exact agrees.removeGroupMember _ _
  | setRoles known rs =>
    cases done
    rw [rs]
    exact agrees.replaceGroupRoles known
  | deleteGroup ofGroup rs =>
    cases done
    rw [rs]
    exact agrees.deleteGroup
  | accept acc known tb ofUser members =>
    cases done
    cases acc with
    | inserted unused rs => exact agrees.accept unused rs known tb ofUser members
    | activated mem status =>
      rw [active _ mem] at status
      cases status

/-- No call but an acceptance touches an account, and that one activates it. -/
theorem Change.active {fin : Mirror} (change : Change m c res)
    (active : ∀ u ∈ m.users, u.status = .active) (done : res.after = some fin) :
    ∀ u ∈ fin.users, u.status = .active := by
  have unchanged : fin.users = m.users → ∀ u ∈ fin.users, u.status = .active :=
    fun same u mem => active u (same ▸ mem)
  cases change with
  | assignRoles _ rs | removeRole _ rs | createGroup _ rs | addMembers _ _ rs
  | setRoles _ rs | deleteGroup _ rs =>
    cases done
    have users := congrArg Tables.users rs
    exact unchanged users
  | createRole _ _ rs =>
    have users := congrArg Tables.users (checked_eq_some done).2
    have pre := congrArg Tables.users rs
    exact unchanged (users.trans pre)
  | updateRole =>
    have users := congrArg Tables.users (checked_eq_some done).2
    exact unchanged users
  | removeStranger | removeMember =>
    cases done
    exact active
  | accept acc known tb _ _ =>
    cases done
    cases acc with
    | activated mem status =>
      rw [active _ mem] at status
      cases status
    | inserted _ rs =>
      have users := congrArg Tables.users tb
      have pre := congrArg Tables.users rs
      intro u mem
      rw [users.trans pre] at mem
      rcases List.mem_append.mp mem with old | isNew
      · exact active u old
      · rw [List.mem_singleton.mp isNew]

theorem Kept.step (kept : Kept st) (clean : CleanSlug st c)
    (taken : step st c = some next) : Kept next := by
  obtain ⟨fresh, res, change, done, isWritten⟩ := step_eq_some taken
  refine ⟨?_, change.active kept.active done⟩
  rw [isWritten]
  exact change.agrees kept.agrees kept.active fresh clean done

/-! ### Decisions over runs -/

/-- From an empty tenant, as long as no role is made under a slug that a group is still
assigned, the model's decisions are the mirror's in every state reached. -/
theorem decisions_follow_mirror {init fin : State} {calls : List Call}
    (empty : EmptyTenant init) (clean : EveryStep step CleanSlug init calls)
    (reaches : run step init calls = some fin) : Decides fin := by
  have kept : Kept fin :=
    run_preserves (fun _ _ _ kept clean taken => kept.step clean taken) empty.kept clean reaches
  intro u _ _ p
  exact kept.agrees.granted_iff_effective

/-! ### A run that breaks the condition, and one that keeps it -/

namespace Sample

def read : Permission := ⟨"billing", "invoices", "read"⟩

def owner : Actor := ⟨false, ["owner"], fun _ => false⟩

def builtinRoles : List Role :=
  [⟨1, "owner", .builtin, false⟩, ⟨2, "admin", .builtin, false⟩, ⟨3, "member", .builtin, false⟩,
    ⟨4, "auditor", .builtin, false⟩]

/-- A tenant with the built-in roles and one permission in its catalogue. -/
def tenant : State where
  mirror :=
    { users := []
      roles := builtinRoles
      bindings := []
      permissions := []
      groups := []
      members := []
      groupRoles := []
      catalogue := [read]
      integrity :=
        { users := List.nodup_nil
          roles := by unfold UniqueKey; decide
          slugs := by unfold UniqueKey; decide
          bindings := by simp
          permissions := by simp
          members := by simp
          groupRoles := by simp } }
  tuples := (builtinRoles.map fun r => Tuple.roleTenant r.slug).toFinset

theorem tenant_empty : EmptyTenant tenant where
  users := rfl
  groups := rfl
  tuples := by
    intro t
    cases t with
    | membership relation => cases relation <;> simp [tenant, Expected, Named]
    | _ => simp [tenant, Expected, Named, Tables.isGroupMember, builtinRoles, eq_comm]

/-- A user joins a group that carries a role of the slug `team`. -/
def joining : List Call :=
  [.accept ⟨1, [3], []⟩ 1 0, .createGroup owner 7 true "ops",
    .createRole owner 10 "team" true [read],
    .setRoles owner 7 [10], .addMembers owner 7 [1] fun _ => 0]

def releasing : List Call :=
  joining ++ [.setRoles owner 7 [], .removeRole 10, .createRole owner 11 "team" true [read]]

def recreating : List Call :=
  joining ++ [.removeRole 10, .createRole owner 11 "team" true [read]]

end Sample

/-- The slug is free again once the group has given the role up. -/
theorem released_slug_decides :
    EmptyTenant Sample.tenant ∧ EveryStep step CleanSlug Sample.tenant Sample.releasing
      ∧ ∃ fin, run step Sample.tenant Sample.releasing = some fin ∧ Decides fin := by
  have clean : EveryStep step CleanSlug Sample.tenant Sample.releasing := by
    iterate 8
      refine ⟨fun s creates => by cases creates <;> decide, ?_⟩
      intro next taken
      cases taken
    trivial
  obtain ⟨fin, reaches⟩ : ∃ fin, run step Sample.tenant Sample.releasing = some fin :=
    ⟨_, rfl⟩
  exact ⟨Sample.tenant_empty, clean, fin, reaches,
    decisions_follow_mirror Sample.tenant_empty clean reaches⟩

/-- The role is removed and its slug used again: the group's members are granted the new
role's permission, which none of their effective roles has. -/
theorem recreated_slug_grants_group : EmptyTenant Sample.tenant ∧ ∃ fin,
      run step Sample.tenant Sample.recreating = some fin ∧ ¬Decides fin := by
  refine ⟨Sample.tenant_empty, _, rfl, ?_⟩
  intro decides
  have granted := (decides ⟨1, 1, .active⟩ (by decide) rfl Sample.read).mp (by decide)
  exact absurd granted (by decide)

end TangraAuth.Authz

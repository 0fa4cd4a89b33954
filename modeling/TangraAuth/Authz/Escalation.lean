import TangraAuth.Authz.Runs

/-!
Contract: what an actor can bring about with the calls that grant permissions.

Owns: the permissions that an added tuple can bring to somebody, the permissions
that the checks of each call admit, and that a call which passed them brings only
what the actor held before it.

Does not own: calls that overlap, and states whose rows and tuples differ.
-/

namespace TangraAuth.Authz

open Library Store Accounts

/-! ### What a write can bring -/

/-- A tuple that is added to the others brings somebody the permission. -/
def Brings (ts : Finset Tuple) (p : Permission) : Tuple → Prop
  | .grant _ other => other = p
  | .roleAssignment s _ => .grant s p ∈ ts
  | .groupRole _ s => .grant s p ∈ ts
  | .groupMembership gid _ =>
    ∃ s, .groupRole gid s ∈ ts ∧ .grant s p ∈ ts
  | _ => False

/-- Whatever of its tuples a write stores, a new decision comes from one of the added ones. -/
theorem granted_brought {ts post : Finset Tuple} {adds : List Tuple} {uid : UserID}
    {p : Permission} (within : ∀ t ∈ post, t ∈ ts ∨ t ∈ adds)
    (granted : Granted post uid p) (denied : ¬Granted ts uid p) :
    ∃ t ∈ adds, Brings ts p t := by
  obtain ⟨s, isGrant, assigned⟩ := granted_iff.mp granted
  rcases within _ isGrant with stored | added
  case inr => exact ⟨.grant s p, added, rfl⟩
  -- The grant is an old one, so what is new is the assignment.
  have unassigned : ¬Assignee ts uid s :=
    fun held => denied (granted_iff.mpr ⟨s, stored, held⟩)
  grind [assignee_iff, Brings]

/-! ### What the checks admit -/

/-- The actor of a call that can grant permissions. -/
def Call.grantor : Call → Option Actor
  | .assignRoles a _ _ => some a
  | .createRole a _ _ _ _ => some a
  | .cloneRole a _ _ _ _ => some a
  | .updateRole a _ _ _ => some a
  | .addMembers a _ _ _ => some a
  | .setRoles a _ _ => some a
  | _ => none

/-- A person who is no owner. -/
structure Actor.Bounded (a : Actor) : Prop where
  isUser : a.system = false
  notOwner : a.isOwner = false

variable {t : Tuple}

section Checks

variable {a : Actor} {m : Mirror} {ts : Finset Tuple} {p : Permission}
  {res : Plan}

theorem Actor.Bounded.holds (bounded : a.Bounded) {perms : List Permission}
    (allowed : a.mayGrant perms = true) (mem : p ∈ perms) :
    a.holds p = true := by
  unfold Actor.mayGrant at allowed
  rw [bounded.notOwner, bounded.isUser, Bool.or_false, Bool.or_false, Bool.or_eq_true] at allowed
  grind

variable {r : Role}

theorem mem_grantsOf {tb : Tables} {roles : List Role} (listed : r ∈ roles)
    (held : p ∈ tb.rolePermissions r.id) : p ∈ grantsOf tb roles :=
  List.mem_flatMap.mpr ⟨r, listed, held⟩

variable {rids : List RoleID}

/-- Whoever passes `mayAssign` holds every permission of the roles. -/
theorem Actor.Bounded.holds_of_mayAssign (bounded : a.Bounded)
    (allowed : mayAssign m.toTables a rids = .ok ()) (mem : r ∈ m.roles)
    (listed : r.id ∈ rids) (held : p ∈ m.rolePermissions r.id) :
    a.holds p = true := by
  obtain ⟨roles, among, -, owner | mayGrant⟩ := mayAssign_eq_ok allowed mem listed
  · rw [bounded.notOwner] at owner
    cases owner
  · exact bounded.holds mayGrant (mem_grantsOf among held)

theorem Agrees.mem_rolePermissions (agrees : Agrees m.toTables ts)
    (mem : r ∈ m.roles) (stored : .grant r.slug p ∈ ts) :
    p ∈ m.rolePermissions r.id := by
  obtain ⟨other, otherMem, sameSlug, held⟩ := (agrees.sound _ stored).resolve_right id
  have same := eq_of_uniqueKey m.integrity.slugs otherMem mem sameSlug
  exact Tables.mem_rolePermissions.mpr (same ▸ held)

/-! ### Call by call -/

theorem planAssignRoles_held (bounded : a.Bounded) (agrees : Agrees m.toTables ts)
    {uid : UserID} (planned : planAssignRoles m a uid rids = .ok res)
    (added : t ∈ res.adds) (brings : Brings ts p t) :
    a.holds p = true := by
  obtain ⟨want, next, found, allowed, -, rfl⟩ := planAssignRoles_eq_ok planned
  obtain ⟨r, adding, isTuple⟩ := List.mem_flatMap.mp added
  have mem := (Tables.rolesByID_eq_some found).2 r (mem_missing.mp adding).1
  rcases mem_assignmentTuples.mp isTuple with rfl | ⟨-, rfl⟩
  · exact bounded.holds_of_mayAssign allowed mem (List.mem_map_of_mem adding)
      (agrees.mem_rolePermissions mem brings)
  · exact brings.elim

theorem planCreateRole_held (bounded : a.Bounded) {id : RoleID} {s : Slug} {named : Bool}
    {refs : List Permission} (planned : planCreateRole m a id s named refs = .ok res)
    (added : t ∈ res.adds) (brings : Brings ts p t) :
    a.holds p = true := by
  obtain ⟨perms, next, allowed, -, rfl⟩ := planCreateRole_eq_ok planned
  rcases List.mem_cons.mp added with rfl | added
  · exact brings.elim
  · obtain ⟨other, listed, isTuple⟩ := List.mem_flatMap.mp added
    cases List.mem_singleton.mp isTuple
    exact bounded.holds allowed (brings ▸ listed)

theorem planUpdateRole_held (bounded : a.Bounded) {id : RoleID} {named : Bool}
    {refs : List Permission} (planned : planUpdateRole m a id named refs = .ok res)
    (added : t ∈ res.adds) (brings : Brings ts p t) :
    a.holds p = true := by
  obtain ⟨r, perms, -, -, allowed, rfl⟩ := planUpdateRole_eq_ok planned
  obtain ⟨other, listed, isTuple⟩ := List.mem_flatMap.mp added
  cases List.mem_singleton.mp isTuple
  exact bounded.holds allowed (brings ▸ listed)

variable {gid : GroupID}

theorem refuseAddMembers_eq_none {tb : Tables} {users : List UserID}
    (allowed : refuseAddMembers tb a gid users = none) :
    a.mayGrant (grantsOf tb (tb.rolesOfGroup gid)) = true := by
  grind [refuseAddMembers]

/-- The roles of a group with a grant are rows: no slug without a role has a grant. -/
theorem planAddMembers_held (bounded : a.Bounded) (agrees : Agrees m.toTables ts)
    {userIDs : List UserID} {addedAt : UserID → Int}
    (planned : planAddMembers m a gid userIDs addedAt = .ok res)
    (added : t ∈ res.adds) (brings : Brings ts p t) :
    a.holds p = true := by
  obtain ⟨allowed, next, joined, -, rfl⟩ := planAddMembers_eq_ok planned
  obtain ⟨uid, -, rfl⟩ := List.mem_map.mp added
  obtain ⟨s, carried, stored⟩ := brings
  obtain ⟨r, mem, rfl, held⟩ := (agrees.sound _ stored).resolve_right id
  have ofGroup := Tables.mem_rolesOfGroup.mpr ⟨mem, agrees.groupRole mem carried⟩
  exact bounded.holds (refuseAddMembers_eq_none allowed)
    (mem_grantsOf ofGroup (Tables.mem_rolePermissions.mpr held))

theorem planSetRoles_held (bounded : a.Bounded) (agrees : Agrees m.toTables ts)
    (planned : planSetRoles m a gid rids = .ok res) (added : t ∈ res.adds)
    (brings : Brings ts p t) : a.holds p = true := by
  obtain ⟨-, -, group, want, next, -, found, -, -, allowed, -, rfl⟩ := planSetRoles_eq_ok planned
  obtain ⟨r, adding, isTuple⟩ := List.mem_flatMap.mp added
  cases List.mem_singleton.mp isTuple
  have mem := (Tables.rolesByID_eq_some found).2 r (mem_missing.mp adding).1
  exact bounded.holds allowed (mem_grantsOf adding (agrees.mem_rolePermissions mem brings))

/-- Every tuple that a granting call adds brings permissions its actor holds. -/
theorem plan_held (bounded : a.Bounded) (agrees : Agrees m.toTables ts) {c : Call}
    (grants : c.grantor = some a) (planned : plan m c = .ok res)
    (added : t ∈ res.adds) (brings : Brings ts p t) :
    a.holds p = true := by
  cases c with
  | assignRoles =>
    cases grants
    exact planAssignRoles_held bounded agrees planned added brings
  | createRole =>
    cases grants
    exact planCreateRole_held bounded planned added brings
  | cloneRole =>
    grind [planCloneRole_eq_ok, planCreateRole_held, Call.grantor, plan]
  | updateRole =>
    cases grants
    exact planUpdateRole_held bounded planned added brings
  | addMembers =>
    cases grants
    exact planAddMembers_held bounded agrees planned added brings
  | setRoles =>
    cases grants
    exact planSetRoles_held bounded agrees planned added brings
  | _ => cases grants

end Checks

/-! ### No escalation -/

theorem execute_within {st : State} {planned : Planned} {fault : Option Nat}
    (stored : t ∈ (execute planned fault st).2.tuples) :
    t ∈ st.tuples ∨ ∃ res, planned = .ok res ∧ t ∈ res.adds := by
  cases planned with
  | error refused => exact Or.inl stored
  | ok res =>
    have isWritten : (execute (.ok res) fault st).2.tuples
        = (writeWith maxTuplesPerWrite fault st.tuples res.adds res.removes).2 := by
      unfold execute
      dsimp only
      split
      case h_1 out => rw [out]
      case h_2 out =>
        rw [out]
        split <;> rfl
    rw [isWritten] at stored
    exact (writeWith_bounds.1 stored).imp id fun added => ⟨res, rfl, added⟩

/-- In a state whose rows and tuples agree, whatever an attempt of a granting call makes
granted to somebody was granted before to the person who made it, unless that is an owner. -/
theorem newly_granted_was_held {st : State} {c : Call} {a : Actor} {actorID : UserID}
    (agrees : Agrees st.mirror.toTables st.tuples) (grants : c.grantor = some a)
    (bounded : a.Bounded)
    (asked : ∀ p, a.holds p = true ↔ Granted st.tuples actorID p)
    (fault : Option Nat) (uid : UserID) (p : Permission)
    (granted : Granted (execute (plan st.mirror c) fault st).2.tuples uid p)
    (denied : ¬Granted st.tuples uid p) :
    Granted st.tuples actorID p := by
  cases planned : plan st.mirror c with
  | error refused =>
    rw [planned] at granted
    exact absurd granted denied
  | ok res =>
    have within : ∀ t ∈ (execute (plan st.mirror c) fault st).2.tuples,
        t ∈ st.tuples ∨ t ∈ res.adds := by
      intro t stored
      rcases execute_within stored with old | ⟨other, isPlan, added⟩
      · exact Or.inl old
      · rw [planned] at isPlan
        cases isPlan
        exact Or.inr added
    obtain ⟨t, added, brings⟩ := granted_brought within granted denied
    exact (asked p).mp (plan_held bounded agrees grants planned added brings)

/-- Two members, of whom the first holds a role with a permission. -/
def Sample.staffed : List Call :=
  [.accept ⟨1, [3], []⟩ 1 0, .accept ⟨2, [3], []⟩ 2 0,
    .createRole Sample.owner 10 "team" true [Sample.read], .assignRoles Sample.owner 1 [3, 10]]

/-- The actor for whom the backend answers as it does for the first member. -/
def Sample.holder (ts : Finset Tuple) : Actor :=
  ⟨false, ["member"], fun p => decide (Granted ts 1 p)⟩

theorem Sample.staffed_agrees : ∃ st, run step Sample.tenant Sample.staffed = some st
    ∧ Agrees st.mirror.toTables st.tuples := by
  have clean : EveryStep step CleanSlug Sample.tenant Sample.staffed := by
    iterate 4
      refine ⟨fun s creates => by cases creates <;> decide, ?_⟩
      intro next taken
      cases taken
    trivial
  refine ⟨_, rfl, ?_⟩
  have kept := run_preserves (fun _ _ _ kept clean taken => Kept.step kept clean taken)
    Sample.tenant_empty.kept clean rfl
  exact kept.agrees

/-- The first member passes the role on to the second, who is granted what the first holds. -/
theorem passed_role_was_held : ∃ st, run step Sample.tenant Sample.staffed = some st
      ∧ ¬Granted st.tuples 2 Sample.read
      ∧ Granted (execute (plan st.mirror
          (.assignRoles (Sample.holder st.tuples) 2 [3, 10])) none st).2.tuples 2 Sample.read
      ∧ Granted st.tuples 1 Sample.read := by
  obtain ⟨st, reaches, agrees⟩ := Sample.staffed_agrees
  have out : ¬Granted st.tuples 2 Sample.read ∧ Granted (execute (plan st.mirror
          (.assignRoles (Sample.holder st.tuples) 2 [3, 10])) none st).2.tuples 2 Sample.read := by
    cases reaches
    constructor <;> decide
  obtain ⟨denied, granted⟩ := out
  refine ⟨st, reaches, denied, granted, ?_⟩
  exact newly_granted_was_held agrees rfl ⟨rfl, rfl⟩ (fun _ => decide_eq_true_iff) none 2
    Sample.read granted denied

end TangraAuth.Authz

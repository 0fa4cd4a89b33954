import TangraAuth.Authz.Tuples

/-!
Contract: the calls that change roles, assignments and groups, each as the
checks it makes, the rows it commits before the tuples are written, the tuples
it adds and removes, and the rows it commits after.

Owns: `Assigner`, `Roles` and `Groups` call by call, the acceptance of an
invitation and the reset of a user as far as they touch roles and tuples, and
one attempt of a call against a backend whose write may fail.

Does not own: the tenant guard, display names, audit events, and how the actor's
permissions are decided.
-/

namespace TangraAuth.Authz

open Library Store Accounts

/-- Who makes the call: `holds` is what the decision service answers for the actor. -/
structure Actor where
  system : Bool
  roles : List Slug
  holds : Permission → Bool

def Actor.isOwner (a : Actor) : Bool := a.roles.contains "owner"

def Actor.isAdmin (a : Actor) : Bool := a.isOwner || a.roles.contains "admin"

/-- May manage groups. -/
def Actor.admin (a : Actor) : Bool := a.system || a.isAdmin

inductive Refusal where
  | notFound
  | constraint
  | writeFailed
  | forbidden
  | invalidName
  | nameTaken
  | ownerViaGroup
  | memberCountMismatch
  | selfEscalation
  | lastOwner
  | builtin
  | managedRole
  | roleRetired
  | roleConflict
  | roleRef
  | invalidToken
  | resetNotAllowed
deriving DecidableEq, Repr

/-- What a call that passed its checks does, in order: `before` is committed, the tuples are
written, `after` is committed. -/
structure Plan where
  before : Mirror
  adds : List Tuple
  removes : List Tuple
  after : Option Mirror

/-- A refused call says why and which rows it left. -/
abbrev Planned := Except (Refusal × Mirror) Plan

/-- Rows first, then tuples, then nothing more. -/
def Plan.mirrorFirst (next : Mirror) (adds removes : List Tuple) : Plan :=
  { before := next, adds := adds, removes := removes, after := some next }

/-! ### Shared checks -/

/-- The ids without repetition, in order of first occurrence. -/
def dedupe {α : Type} [DecidableEq α] (seen : List α) : List α → List α
  | [] => []
  | id :: rest => if id ∈ seen then dedupe seen rest else id :: dedupe (id :: seen) rest

def containsSlug (roles : List Role) (s : Slug) : Bool :=
  roles.any fun r => r.slug == s

def privileged (roles : List Role) : Bool :=
  containsSlug roles "owner" || containsSlug roles "admin"

def refuseRetired (roles : List Role) : Bool := roles.any Role.retired

def Actor.mayGrant (a : Actor) (perms : List Permission) : Bool :=
  perms.isEmpty || a.isOwner || a.system || perms.all a.holds

def grantsOf (tb : Tables) (roles : List Role) : List Permission :=
  roles.flatMap fun r => tb.rolePermissions r.id

def mayAssign (tb : Tables) (a : Actor) (rids : List RoleID) : Except Refusal Unit :=
  if rids.isEmpty then .ok ()
  else
    match tb.rolesByID (dedupe [] rids) with
    | none => .error .notFound
    | some roles =>
      if refuseRetired roles then .error .roleRetired
      else if a.isOwner then .ok ()
      else if privileged roles then .error .selfEscalation
      else if a.mayGrant (grantsOf tb roles) then .ok ()
      else .error .selfEscalation

def isAlnum (letter : Char) : Bool :=
  ('a' ≤ letter && letter ≤ 'z') || ('0' ≤ letter && letter ≤ '9')

def reservedSlugs : List Slug := ["owner", "admin", "member", "auditor", "operator"]

/-- One to 63 letters, digits and inner dashes, and no built-in slug. -/
def parseCustomSlug (s : Slug) : Bool :=
  let letters := s.toList
  1 ≤ letters.length && letters.length ≤ 63
    && letters.all (fun letter => isAlnum letter || letter == '-')
    && letters.head?.any isAlnum && letters.getLast?.any isAlnum
    && !reservedSlugs.contains s

/-- Every reference is in the catalogue, and one without a module is kept, not new. -/
def parsePerms (tb : Tables) (kept refs : List Permission) : Option (List Permission) :=
  if refs.all fun ref => tb.catalogue.contains ref && (!ref.isLegacy || kept.contains ref)
  then some (dedupe [] refs) else none

def locked (r : Role) : Option Refusal :=
  match r.origin with
  | .builtin => some .builtin
  | .ofModule => some .managedRole
  | .custom => none

/-! ### Assignment -/

def planAssignRoles (m : Mirror) (a : Actor) (uid : UserID) (rids : List RoleID) : Planned :=
  match m.rolesByID (dedupe [] rids) with
  | none => .error (.notFound, m)
  | some want =>
    let present := m.userRoles uid
    match mayAssign m.toTables a ((missing Role.id present want).map Role.id) with
    | .error refusal => .error (refusal, m)
    | .ok () =>
      if containsSlug present "owner" && !containsSlug want "owner"
          && decide (m.countWithRole "owner" ≤ 1) then
        .error (.lastOwner, m)
      else
        match m.replaceBindings uid (want.map Role.id) with
        | none => .error (.constraint, m)
        | some next =>
          .ok (.mirrorFirst next ((missing Role.id present want).flatMap (assignmentTuples uid))
            ((missing Role.id want present).flatMap (assignmentTuples uid)))

/-! ### Roles -/

/-- `named` says that the display name passes its check. -/
def planCreateRole (m : Mirror) (a : Actor) (id : RoleID) (s : Slug) (named : Bool)
    (refs : List Permission) : Planned :=
  if !named || !parseCustomSlug s then .error (.roleRef, m)
  else
    match parsePerms m.toTables [] refs with
    | none => .error (.roleRef, m)
    | some perms =>
      if !a.mayGrant perms then .error (.selfEscalation, m)
      else
        match m.insertRole ⟨id, s, .custom, false⟩ with
        | none => .error (.roleConflict, m)
        | some next =>
          .ok
            { before := next
              adds := .roleTenant s :: perms.flatMap (grantTuples s)
              removes := []
              after := next.replaceRolePermissions id perms }

def planCloneRole (m : Mirror) (a : Actor) (source id : RoleID) (s : Slug)
    (named : Bool) : Planned :=
  match m.role source with
  | none => .error (.notFound, m)
  | some r =>
    if r.slug = "owner" then .error (.builtin, m)
    else
      planCreateRole m a id s named ((m.rolePermissions source).filter fun p => !p.isLegacy)

def planUpdateRole (m : Mirror) (a : Actor) (id : RoleID) (named : Bool)
    (refs : List Permission) : Planned :=
  match m.role id with
  | none => .error (.notFound, m)
  | some r =>
    match locked r with
    | some refusal => .error (refusal, m)
    | none =>
      let current := m.rolePermissions id
      match parsePerms m.toTables current refs with
      | none => .error (.roleRef, m)
      | some perms =>
        if !a.mayGrant (missing (·) current perms) then
          .error (.selfEscalation, m)
        else if !named then .error (.roleRef, m)
        else
          .ok
            { before := m
              adds := (missing (·) current perms).flatMap (grantTuples r.slug)
              removes := (missing (·) perms current).flatMap (grantTuples r.slug)
              after := m.replaceRolePermissions id perms }

/-- The assignees are the direct ones; the tuples of groups that carry the role stay. -/
def planRemoveRole (m : Mirror) (id : RoleID) : Planned :=
  match m.role id with
  | none => .error (.notFound, m)
  | some r =>
    match locked r with
    | some refusal => .error (refusal, m)
    | none =>
      match m.removeRole id with
      | none => .error (.notFound, m)
      | some next =>
        .ok (.mirrorFirst next [] ((m.roleAssignees id).map (Tuple.roleAssignment r.slug)
            ++ (m.rolePermissions id).flatMap (grantTuples r.slug)
            ++ [.roleTenant r.slug]))

/-! ### Groups -/

def groupBatchMax : Nat := 100

def planCreateGroup (m : Mirror) (a : Actor) (id : GroupID) (named : Bool)
    (name : String) : Planned :=
  if !a.admin then .error (.forbidden, m)
  else if !named then .error (.invalidName, m)
  else
    match m.insertGroup ⟨id, name⟩ with
    | none => .error (.nameTaken, m)
    | some next => .ok (.mirrorFirst next [.groupTenant id] [])

/-- The users one after another, each in a transaction of its own: `added` are those that
were new. An unknown user stops the loop with the rows so far committed. -/
def addEach (gid : GroupID) (addedAt : UserID → Int) :
    List UserID → Mirror → List UserID → Except Mirror (Mirror × List UserID)
  | [], m, added => .ok (m, added)
  | uid :: rest, m, added =>
    if m.isGroupMember gid uid then addEach gid addedAt rest m added
    else
      match m.addGroupMember gid uid (addedAt uid) with
      | none => .error m
      | some (0, next) => addEach gid addedAt rest next added
      | some (_ + 1, next) => addEach gid addedAt rest next (added ++ [uid])

/-- The checks in front of the loop. -/
def refuseAddMembers (tb : Tables) (a : Actor) (gid : GroupID)
    (users : List UserID) : Option Refusal :=
  if !a.admin then some .forbidden
  else
    match tb.group gid with
    | none => some .notFound
    | some _ =>
      let roles := tb.rolesOfGroup gid
      if users.isEmpty || decide (groupBatchMax < users.length) then some .invalidName
      else if privileged roles && !a.isOwner && !a.system then some .selfEscalation
      else if !a.mayGrant (grantsOf tb roles) then some .selfEscalation
      else none

def planAddMembers (m : Mirror) (a : Actor) (gid : GroupID)
    (userIDs : List UserID) (addedAt : UserID → Int) : Planned :=
  match refuseAddMembers m.toTables a gid (dedupe [] userIDs) with
  | some refusal => .error (refusal, m)
  | none =>
    match addEach gid addedAt (dedupe [] userIDs) m [] with
    | .error left => .error (.notFound, left)
    | .ok (next, added) =>
      .ok (.mirrorFirst next (added.map (Tuple.groupMembership gid)) [])

def planRemoveMember (m : Mirror) (a : Actor) (gid : GroupID) (uid : UserID) :
    Planned :=
  if !a.admin then .error (.forbidden, m)
  else
    match m.group gid with
    | none => .error (.notFound, m)
    | some _ =>
      if !m.isGroupMember gid uid then .ok (.mirrorFirst m [] [])
      else
        .ok (.mirrorFirst (m.removeGroupMember gid uid) [] [.groupMembership gid uid])

def planSetRoles (m : Mirror) (a : Actor) (gid : GroupID) (rids : List RoleID) : Planned :=
  if !a.admin then .error (.forbidden, m)
  else
    match m.group gid with
    | none => .error (.notFound, m)
    | some _ =>
      if groupBatchMax < (dedupe [] rids).length then .error (.invalidName, m)
      else
        match m.rolesByID (dedupe [] rids) with
        | none => .error (.notFound, m)
        | some want =>
          let present := m.rolesOfGroup gid
          let adding := missing Role.id present want
          if containsSlug want "owner" then .error (.ownerViaGroup, m)
          else if refuseRetired adding then .error (.roleRetired, m)
          else if privileged adding && !a.isOwner && !a.system then
            .error (.selfEscalation, m)
          else if !a.mayGrant (grantsOf m.toTables adding) then
            .error (.selfEscalation, m)
          else
            match m.replaceGroupRoles gid (want.map Role.id) with
            | none => .error (.constraint, m)
            | some next =>
              .ok (.mirrorFirst next (adding.flatMap (groupRoleTuples gid))
                ((missing Role.id want present).flatMap (groupRoleTuples gid)))

theorem Tables.mem_listGroupMembers {tb : Tables} {gid : GroupID} {post : Option Int}
    {limit : Nat} {mem : Member}
    (listed : mem ∈ tb.listGroupMembers gid post limit) :
    mem ∈ tb.membersAfter gid post := by
  have sorted := List.mem_of_mem_take listed
  exact (List.mem_insertionSort Member.before).mp sorted

/-- Moving the cursor to the last row of a page leaves fewer rows to list. -/
theorem Tables.membersAfter_shrinks {tb : Tables} {gid : GroupID} {post : Option Int}
    {last : Member} (listed : last ∈ tb.membersAfter gid post) :
    (tb.membersAfter gid (some last.addedAt)).length < (tb.membersAfter gid post).length := by
  obtain ⟨-, sel⟩ := List.mem_filter.mp listed
  simp only [Bool.and_eq_true, beq_iff_eq] at sel
  have narrower : tb.membersAfter gid (some last.addedAt)
      = (tb.membersAfter gid post).filter fun mem =>
          decide (last.addedAt < mem.addedAt) := by
    unfold Tables.membersAfter
    rw [List.filter_filter]
    apply List.filter_congr
    intro mem _
    cases post with
    | none => simp [Bool.and_comm]
    | some cursor =>
      grind
  rw [narrower]
  apply List.length_filter_lt_length_iff_exists.mpr
  exact ⟨last, listed, by simp⟩

/-- Page after page until a short one; rows that share the time of a page's last row are
passed over. -/
def drainMembers (tb : Tables) (gid : GroupID) (post : Option Int) : List Member :=
  match _paged : (tb.listGroupMembers gid post groupBatchMax).getLast? with
  | none => []
  | some last =>
    let page := tb.listGroupMembers gid post groupBatchMax
    if page.length < groupBatchMax then page
    else page ++ drainMembers tb gid (some last.addedAt)
termination_by (tb.membersAfter gid post).length
decreasing_by
  exact Tables.membersAfter_shrinks (Tables.mem_listGroupMembers (List.mem_of_getLast? _paged))

/-- The tuples are removed in batches, each a write of one request. -/
def planDeleteGroup (m : Mirror) (a : Actor) (gid : GroupID) (memberCount : Nat) :
    Planned :=
  if !a.admin then .error (.forbidden, m)
  else
    match m.group gid with
    | none => .error (.notFound, m)
    | some _ =>
      if m.countGroupMembers gid ≠ memberCount then
        .error (.memberCountMismatch, m)
      else
        match m.deleteGroup gid with
        | none => .error (.notFound, m)
        | some next =>
          .ok (.mirrorFirst next [] (.groupTenant gid
              :: (m.rolesOfGroup gid).flatMap (groupRoleTuples gid)
              ++ (drainMembers m.toTables gid none).map fun mem =>
                  .groupMembership gid mem.userID))

/-! ### Accounts -/

/-- What acceptance reads of a redeemed invitation. -/
structure Invited where
  email : Email
  roleIDs : List RoleID
  groupIDs : List GroupID

/-- The groups that still exist, each joined; the rest are skipped. -/
def joinGroups (uid : UserID) (addedAt : Int) :
    List GroupID → Mirror → Option (Mirror × List GroupID)
  | [], m => some (m, [])
  | gid :: rest, m =>
    match m.group gid with
    | none => joinGroups uid addedAt rest m
    | some _ =>
      match m.addGroupMember gid uid addedAt with
      | none => none
      | some (_, next) =>
        (joinGroups uid addedAt rest next).map fun (fin, joined) =>
          (fin, gid :: joined)

/-- The account the acceptance activates: a new one, or one that was invited. -/
def acceptAccount (m : Mirror) (invited : Invited) (nid : UserID) :
    Except Refusal (Mirror × UserID) :=
  match m.userByEmail invited.email with
  | none =>
    match m.insertUser ⟨nid, invited.email, .active⟩ with
    | none => .error .constraint
    | some next => .ok (next, nid)
  | some u =>
    match u.status with
    | .invited => .ok (m.updateUserStatus u.id .active, u.id)
    | _ => .error .invalidToken

/-- One transaction: a refusal leaves no row. -/
def planAccept (m : Mirror) (invited : Invited) (nid : UserID) (addedAt : Int) : Planned :=
  match acceptAccount m invited nid with
  | .error refusal => .error (refusal, m)
  | .ok (opened, uid) =>
    match opened.rolesByID invited.roleIDs with
    | none => .error (.notFound, m)
    | some all =>
      let roles := all.filter fun r => !r.retired
      match opened.replaceBindings uid (roles.map Role.id) with
      | none => .error (.constraint, m)
      | some bound =>
        match joinGroups uid addedAt invited.groupIDs bound with
        | none => .error (.constraint, m)
        | some (next, joined) =>
          .ok (.mirrorFirst next (.membership .member uid
              :: joined.map (fun gid => .groupMembership gid uid)
              ++ roles.flatMap (assignmentTuples uid)) [])

/-- The tuples a reset withdraws: those of an account that was accepted. -/
def resetTuples (tb : Tables) (uid : UserID) (wasActive : Bool) : List Tuple :=
  if wasActive then
    .membership .member uid
      :: (tb.userRoleSlugs uid).flatMap fun s =>
          .roleAssignment s uid :: if s = "owner" then [.membership .owner uid] else []
  else []

def planResetUser (m : Mirror) (email : Email) : Planned :=
  match m.userByEmail email with
  | none => .error (.resetNotAllowed, m)
  | some u =>
    if u.status = .active ∨ u.status = .invited then
      .ok (.mirrorFirst (m.updateUserStatus u.id .invited) []
        (resetTuples m.toTables u.id (u.status == .active)))
    else .error (.resetNotAllowed, m)

/-! ### Attempts -/

inductive Call where
  | assignRoles (a : Actor) (uid : UserID) (rids : List RoleID)
  | createRole (a : Actor) (id : RoleID) (s : Slug) (named : Bool)
      (refs : List Permission)
  | cloneRole (a : Actor) (source id : RoleID) (s : Slug) (named : Bool)
  | updateRole (a : Actor) (id : RoleID) (named : Bool) (refs : List Permission)
  | removeRole (id : RoleID)
  | createGroup (a : Actor) (id : GroupID) (named : Bool) (name : String)
  | addMembers (a : Actor) (gid : GroupID) (userIDs : List UserID)
      (addedAt : UserID → Int)
  | removeMember (a : Actor) (gid : GroupID) (uid : UserID)
  | setRoles (a : Actor) (gid : GroupID) (rids : List RoleID)
  | deleteGroup (a : Actor) (gid : GroupID) (memberCount : Nat)
  | accept (invited : Invited) (nid : UserID) (addedAt : Int)

def plan (m : Mirror) : Call → Planned
  | .assignRoles a uid rids => planAssignRoles m a uid rids
  | .createRole a id s named refs => planCreateRole m a id s named refs
  | .cloneRole a source id s named => planCloneRole m a source id s named
  | .updateRole a id named refs => planUpdateRole m a id named refs
  | .removeRole id => planRemoveRole m id
  | .createGroup a id named name => planCreateGroup m a id named name
  | .addMembers a gid userIDs addedAt =>
    planAddMembers m a gid userIDs addedAt
  | .removeMember a gid uid => planRemoveMember m a gid uid
  | .setRoles a gid rids => planSetRoles m a gid rids
  | .deleteGroup a gid memberCount => planDeleteGroup m a gid memberCount
  | .accept invited nid addedAt => planAccept m invited nid addedAt

structure State where
  mirror : Mirror
  tuples : Finset Tuple

/-- One attempt of a planned call: what its caller sees and the state it leaves. `fault` is
the failure of the backend's write, if any. -/
def execute (planned : Planned) (fault : Option Nat) (st : State) : Except Refusal Unit × State :=
  match planned with
  | .error (refusal, left) => (.error refusal, { st with mirror := left })
  | .ok plan =>
    match writeWith maxTuplesPerWrite fault st.tuples plan.adds plan.removes with
    | (false, ts) => (.error .writeFailed, ⟨plan.before, ts⟩)
    | (true, ts) =>
      match plan.after with
      | none => (.error .constraint, ⟨plan.before, ts⟩)
      | some post => (.ok (), ⟨post, ts⟩)

end TangraAuth.Authz

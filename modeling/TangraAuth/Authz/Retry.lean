import TangraAuth.Authz.Runs

/-!
Contract: calls that commit their rows before their tuples, repeated after a
failed write.

Owns: the calls in question, one attempt and the repetition until it returns
nil, and which calls leave the tuples that an undisturbed call leaves.

Does not own: what the calls do, which is taken from their plans.
-/

namespace TangraAuth.Authz

open Library Store Accounts

/-- The calls that commit rows and then write tuples. -/
inductive Request where
  | assignRoles (a : Actor) (uid : UserID) (rids : List RoleID)
  | addMembers (a : Actor) (gid : GroupID) (userIDs : List UserID)
      (addedAt : UserID → Int)
  | removeMember (a : Actor) (gid : GroupID) (uid : UserID)
  | setRoles (a : Actor) (gid : GroupID) (rids : List RoleID)
  | deleteGroup (a : Actor) (gid : GroupID) (memberCount : Nat)
  | removeRole (id : RoleID)
  | resetUser (email : Email)

def Request.plan (m : Mirror) : Request → Planned
  | .assignRoles a uid rids => planAssignRoles m a uid rids
  | .addMembers a gid userIDs addedAt =>
    planAddMembers m a gid userIDs addedAt
  | .removeMember a gid uid => planRemoveMember m a gid uid
  | .setRoles a gid rids => planSetRoles m a gid rids
  | .deleteGroup a gid memberCount => planDeleteGroup m a gid memberCount
  | .removeRole id => planRemoveRole m id
  | .resetUser email => planResetUser m email

/-- The request deletes the row it starts from. -/
def Request.deletes : Request → Bool
  | .deleteGroup _ _ _ => true
  | .removeRole _ => true
  | _ => false

def attempt (req : Request) (fault : Option Nat) (st : State) : Except Refusal Unit × State :=
  execute (req.plan st.mirror) fault st

/-- The request repeated, each attempt with its own fault, until one returns nil. -/
def retry (req : Request) : List (Option Nat) → State → Option State
  | [], _ => none
  | fault :: rest, st =>
    match attempt req fault st with
    | (.ok (), next) => some next
    | (.error _, next) => retry req rest next

/-- However the writes fail: once the request returns nil, the tuples are those of an
undisturbed request. -/
def Converges (req : Request) (st : State) : Prop :=
  ∀ fs fin, retry req fs st = some fin → fin.tuples = (attempt req none st).2.tuples

/-- The rows are already what the request asks for: the user or the group has exactly these
roles, the users are members, the user is none, the account is not active. -/
def Request.settled (tb : Tables) : Request → Prop
  | .assignRoles _ uid rids => ∀ id, id ∈ rids ↔ (uid, id) ∈ tb.bindings
  | .addMembers _ gid userIDs _ => ∀ uid ∈ userIDs, tb.isGroupMember gid uid = true
  | .removeMember _ gid uid => tb.isGroupMember gid uid = false
  | .setRoles _ gid rids => ∀ id, id ∈ rids ↔ (gid, id) ∈ tb.groupRoles
  | .deleteGroup _ _ _ => False
  | .removeRole _ => False
  | .resetUser email => ∀ u, tb.userByEmail email = some u → u.status ≠ .active

/-- The checks of the request do not let it pass. -/
def Request.refused (m : Mirror) (req : Request) : Prop :=
  ∀ plan, req.plan m ≠ .ok plan

/-! ### Attempts -/

section Attempts

variable {req : Request} {st : State} {m : Mirror} {plan : Plan}

theorem plan_after (planned : req.plan m = .ok plan) : plan.after = some plan.before := by
  cases req with
  | assignRoles =>
    obtain ⟨_, _, _, _, _, rfl⟩ := planAssignRoles_eq_ok planned
    rfl
  | setRoles =>
    obtain ⟨_, _, _, _, _, _, _, _, _, _, _, rfl⟩ := planSetRoles_eq_ok planned
    rfl
  | addMembers =>
    obtain ⟨_, _, _, _, rfl⟩ := planAddMembers_eq_ok planned
    rfl
  | removeMember =>
    simp only [Request.plan, planRemoveMember] at planned
    repeat' split at planned
    all_goals cases planned <;> rfl
  | deleteGroup =>
    simp only [Request.plan, planDeleteGroup] at planned
    repeat' split at planned
    all_goals cases planned <;> rfl
  | removeRole =>
    simp only [Request.plan, planRemoveRole] at planned
    repeat' split at planned
    all_goals cases planned <;> rfl
  | resetUser =>
    simp only [Request.plan, planResetUser] at planned
    repeat' split at planned
    all_goals cases planned <;> rfl

theorem attempt_refused {refusal : Refusal} {left : Mirror}
    (refused : req.plan st.mirror = .error (refusal, left)) (fault : Option Nat) :
    attempt req fault st = (.error refusal, { st with mirror := left }) := by
  unfold attempt execute
  rw [refused]

theorem attempt_undisturbed (planned : req.plan st.mirror = .ok plan) : attempt req none st
      = (.ok (), ⟨plan.before, write st.tuples plan.adds plan.removes⟩) := by
  unfold attempt execute
  rw [planned]
  simp only [writeWith_none, plan_after planned]

theorem attempt_nothing (planned : req.plan st.mirror = .ok plan)
    (nothing : plan.adds = [] ∧ plan.removes = []) (fault : Option Nat) :
    attempt req fault st = (.ok (), ⟨plan.before, st.tuples⟩) := by
  unfold attempt execute
  rw [planned]
  simp only [nothing.1, nothing.2, writeWith_nothing, plan_after planned]

theorem attempt_failed (planned : req.plan st.mirror = .ok plan)
    (something : ¬(plan.adds = [] ∧ plan.removes = [])) (count : Nat) :
    attempt req (some count) st = (.error .writeFailed, ⟨plan.before,
      (writeWith maxTuplesPerWrite (some count) st.tuples plan.adds plan.removes).2⟩) := by
  have failed :
      (writeWith maxTuplesPerWrite (some count) st.tuples plan.adds plan.removes).1 = false := by
    rw [← Bool.not_eq_true, writeWith_fst]
    simp [something]
  unfold attempt execute
  grind

theorem retry_of_ok {fault : Option Nat} {next : State}
    (returned : attempt req fault st = (.ok (), next)) (rest : List (Option Nat)) :
    retry req (fault :: rest) st = some next := by
  rw [retry, returned]

theorem retry_of_error {fault : Option Nat} {refusal : Refusal} {next : State}
    (returned : attempt req fault st = (.error refusal, next)) (rest : List (Option Nat)) :
    retry req (fault :: rest) st = retry req rest next := by
  rw [retry, returned]

end Attempts

/-! ### Refused once, refused again -/

variable {a : Actor} {gid : GroupID} {userIDs : List UserID} {addedAt : UserID → Int}

section Refused

variable {m left : Mirror} {refusal : Refusal}

/-- The rows an unknown user leaves behind do not make the user known. -/
theorem planAddMembers_refused
    (refused : planAddMembers m a gid userIDs addedAt = .error (refusal, left)) :
    planAddMembers left a gid userIDs addedAt = .error (refusal, left) := by
  unfold planAddMembers at refused
  split at refused
  case h_1 why checks =>
    cases refused
    unfold planAddMembers
    rw [checks]
  case h_2 checks =>
    split at refused
    case h_2 => cases refused
    case h_1 stopped looped =>
      cases refused
      obtain ⟨⟨rs, tb⟩, stops⟩ := addEach_eq_error looped
      have sameChecks : refuseAddMembers left.toTables a gid (dedupe [] userIDs) = none := by
        rw [tb]
        exact checks
      unfold planAddMembers
      rw [sameChecks, stops]

/-- Only the loop over new members commits rows before it refuses. -/
theorem refused_again {req : Request} (refused : req.plan m = .error (refusal, left)) :
    req.plan left = .error (refusal, left) := by
  suffices unchanged : (∃ a gid userIDs addedAt,
      req = .addMembers a gid userIDs addedAt) ∨ left = m by
    grind [planAddMembers_refused, Request.plan]
  cases req with
  | addMembers a gid userIDs addedAt =>
    exact Or.inl ⟨a, gid, userIDs, addedAt, rfl⟩
  | assignRoles =>
    simp only [Request.plan, planAssignRoles] at refused
    grind
  | removeMember =>
    simp only [Request.plan, planRemoveMember] at refused
    grind
  | setRoles =>
    simp only [Request.plan, planSetRoles] at refused
    grind
  | deleteGroup =>
    simp only [Request.plan, planDeleteGroup] at refused
    grind
  | removeRole =>
    simp only [Request.plan, planRemoveRole] at refused
    grind
  | resetUser =>
    simp only [Request.plan, planResetUser] at refused
    grind

/-- A refused request never returns nil, however often it is repeated. -/
theorem retry_refused {req : Request} {fs : List (Option Nat)} {st : State}
    (refused : req.plan st.mirror = .error (refusal, left)) :
    retry req fs st = none := by
  induction fs generalizing st with
  | nil => rfl
  | cons fault rest ih =>
    rw [retry_of_error (attempt_refused refused fault)]
    exact ih (refused_again refused)

end Refused

/-! ### Repeated after the rows were committed -/

variable {tb : Tables} {want : List Role} {uid : UserID} {rids : List RoleID}

section Again

variable {m : Mirror} {plan : Plan}

theorem planRemoveRole_again {id : RoleID} (planned : planRemoveRole m id = .ok plan) :
    planRemoveRole plan.before id = .error (.notFound, plan.before) := by
  cases planRemoveRole_sound planned with
  | createRole creates => cases creates
  | @removeRole r next mem rs =>
    have gone : next.role r.id = none := by
      rw [rs]
      simp [Tables.role, Tables.removeRole]
    simp only [Plan.mirrorFirst, planRemoveRole, gone]

theorem planDeleteGroup_again {memberCount : Nat}
    (planned : planDeleteGroup m a gid memberCount = .ok plan) :
    ∃ refusal, planDeleteGroup plan.before a gid memberCount = .error (refusal, plan.before) := by
  cases planDeleteGroup_sound planned with
  | createRole creates => cases creates
  | @deleteGroup _ _ _ next _ _ rs =>
    have gone : next.group gid = none := by
      rw [rs]
      simp [Tables.group, Tables.deleteGroup]
    by_cases admin : a.admin = true
    · exact ⟨.notFound, by simp [Plan.mirrorFirst, planDeleteGroup, gone, admin]⟩
    · exact ⟨.forbidden, by simp [Plan.mirrorFirst, planDeleteGroup, admin]⟩

/-- A deletion whose rows are committed does not find its row again. -/
theorem deletes_again {req : Request} (deletes : req.deletes = true)
    (planned : req.plan m = .ok plan) :
    ∃ refusal, req.plan plan.before = .error (refusal, plan.before) := by
  cases req with
  | deleteGroup => exact planDeleteGroup_again planned
  | removeRole => exact ⟨_, planRemoveRole_again planned⟩
  | _ => cases deletes

theorem rolesByID_congr {post : Tables} (same : post.roles = tb.roles) (ids : List RoleID) :
    post.rolesByID ids = tb.rolesByID ids := by
  induction ids with
  | nil => rfl
  | cons id rest ih =>
    rw [Tables.rolesByID, Tables.rolesByID, ih, Tables.role, Tables.role, same]

theorem checked_isSome {guard : Prop} [Decidable guard] {keeps : guard → Integrity tb}
    (met : guard) : ∃ next, checked guard tb keeps = some next :=
  ⟨⟨tb, keeps met⟩, dif_pos met⟩

theorem mem_wanted (known : ∀ wanted ∈ want, wanted ∈ m.roles) {r : Role} :
    r ∈ m.roles ∧ r.id ∈ want.map Role.id ↔ r ∈ want := by
  constructor
  · rintro ⟨mem, isWanted⟩
    obtain ⟨wanted, wantedMem, sameID⟩ := List.mem_map.mp isWanted
    grind [eq_of_uniqueKey, Mirror.integrity, Integrity.roles]
  grind

theorem missing_of_same {left right : List Role} (same : ∀ r, r ∈ left ↔ r ∈ right) :
    missing Role.id left right = [] ∧ missing Role.id right left = [] := by
  constructor
  · exact missing_eq_nil.mpr fun r mem => List.mem_map_of_mem ((same r).mpr mem)
  · exact missing_eq_nil.mpr fun r mem => List.mem_map_of_mem ((same r).mp mem)

/-- The roles held after the bindings are replaced are the wanted ones, so the difference is
empty. -/
theorem planAssignRoles_again (planned : planAssignRoles m a uid rids = .ok plan) :
    ∃ next, planAssignRoles plan.before a uid rids = .ok (.mirrorFirst next [] []) := by
  obtain ⟨want, next, found, -, replaced, rfl⟩ := planAssignRoles_eq_ok planned
  obtain ⟨met, rs⟩ := checked_eq_some replaced
  have known := (Tables.rolesByID_eq_some found).2
  have sameRoles : next.roles = m.roles := by
    rw [rs]
    rfl
  have sameUsers : next.users = m.users := by
    rw [rs]
    rfl
  have held : ∀ r, r ∈ next.userRoles uid ↔ r ∈ want := by
    intro r
    have bound : (uid, r.id) ∈ next.bindings ↔ r.id ∈ want.map Role.id := by
      rw [rs]
      simp [Tables.replaceBindings, mem_replaceAt]
    rw [Mirror.mem_userRoles, sameRoles, bound, mem_wanted known]
  have nothing := missing_of_same held
  have keepsOwner :
      (containsSlug (next.userRoles uid) "owner" && !containsSlug want "owner") = false := by
    have same : containsSlug (next.userRoles uid) "owner" = containsSlug want "owner" := by
      rw [Bool.eq_iff_iff]
      simp only [containsSlug, List.any_eq_true, held]
    rw [same, Bool.and_not_self]
  rw [← sameRoles, ← sameUsers] at met
  obtain ⟨fin, replacedAgain⟩ : ∃ fin, next.replaceBindings uid (want.map Role.id) = some fin :=
    checked_isSome met
  refine ⟨fin, ?_⟩
  unfold planAssignRoles
  rw [Plan.mirrorFirst, rolesByID_congr sameRoles, found]
  simp only [nothing.1, nothing.2, keepsOwner, replacedAgain, List.map_nil, mayAssign,
    List.isEmpty_nil, List.flatMap_nil, Bool.false_and, if_true, Bool.false_eq_true, if_false]

theorem planSetRoles_again (planned : planSetRoles m a gid rids = .ok plan) :
    ∃ next, planSetRoles plan.before a gid rids = .ok (.mirrorFirst next [] []) := by
  obtain ⟨admin, bounded, group, want, next, isGroup, found, ownerless, -, -, replaced, rfl⟩ :=
    planSetRoles_eq_ok planned
  obtain ⟨met, rs⟩ := checked_eq_some replaced
  have known := (Tables.rolesByID_eq_some found).2
  have sameRoles : next.roles = m.roles := by
    rw [rs]
    rfl
  have sameGroups : next.groups = m.groups := by
    rw [rs]
    rfl
  have carried : ∀ r, r ∈ next.rolesOfGroup gid ↔ r ∈ want := by
    intro r
    have linked : (gid, r.id) ∈ next.groupRoles ↔ r.id ∈ want.map Role.id := by
      rw [rs]
      simp [Tables.replaceGroupRoles, mem_replaceAt]
    rw [Tables.mem_rolesOfGroup, sameRoles, linked, mem_wanted known]
  have nothing := missing_of_same carried
  have isGroupAgain : next.group gid = some group := by
    rw [Tables.group, sameGroups]
    exact isGroup
  rw [← sameRoles, ← sameGroups] at met
  obtain ⟨fin, replacedAgain⟩ : ∃ fin, next.replaceGroupRoles gid (want.map Role.id) = some fin :=
    checked_isSome met
  refine ⟨fin, ?_⟩
  unfold planSetRoles
  rw [Plan.mirrorFirst, admin, isGroupAgain]
  have unretired : refuseRetired [] = false := rfl
  have unprivileged : privileged [] = false := rfl
  have mayGrant : a.mayGrant (grantsOf next.toTables []) = true := rfl
  simp only [Bool.not_true, Bool.false_eq_true, if_false, if_neg bounded,
    rolesByID_congr sameRoles, found, nothing.1, nothing.2, ownerless, replacedAgain,
    List.flatMap_nil, unretired, unprivileged, mayGrant, Bool.false_and]

theorem planAddMembers_again (planned : planAddMembers m a gid userIDs addedAt = .ok plan) :
    planAddMembers plan.before a gid userIDs addedAt = .ok (.mirrorFirst plan.before [] []) := by
  unfold planAddMembers at planned
  split at planned
  case h_1 => cases planned
  case h_2 checks =>
    split at planned
    case h_1 => cases planned
    case h_2 next added looped =>
      cases planned
      obtain ⟨fresh, -, rs, -, joined⟩ := addEach_eq_ok looped
      have sameChecks : refuseAddMembers next.toTables a gid (dedupe [] userIDs) = none := by
        rw [rs]
        exact checks
      unfold planAddMembers
      rw [Plan.mirrorFirst, sameChecks, addEach_joined joined]
      rfl

theorem planRemoveMember_again (planned : planRemoveMember m a gid uid = .ok plan) :
    planRemoveMember plan.before a gid uid = .ok (.mirrorFirst plan.before [] []) := by
  unfold planRemoveMember at planned
  have admin := passes_check planned
  have planned := admin.2
  have notMember : ∀ tb : Tables, (tb.removeGroupMember gid uid).isGroupMember gid uid = false := by
    intro tb
    rw [← Bool.not_eq_true, Tables.isGroupMember_iff]
    rintro ⟨row, stored, ofGroup, ofUser⟩
    have kept := (List.mem_filter.mp stored).2
    simp [ofGroup, ofUser] at kept
  split at planned
  case h_1 => cases planned
  case h_2 group isGroup =>
    split at planned
    case isTrue stranger =>
      cases planned
      simp only [planRemoveMember, Plan.mirrorFirst, if_neg admin.1, isGroup, stranger, if_true]
    case isFalse =>
      cases planned
      have isGroup : (m.removeGroupMember gid uid).group gid = some group :=
        isGroup
      have stranger : (m.removeGroupMember gid uid).isGroupMember gid uid
          = false := notMember m.toTables
      simp only [planRemoveMember, Plan.mirrorFirst, if_neg admin.1, isGroup, stranger,
        Bool.not_false, if_true]

/-- A user that was reset is invited, and an invited user has no tuple to withdraw. -/
theorem planResetUser_again {email : Email} (planned : planResetUser m email = .ok plan) :
    ∃ next, planResetUser plan.before email = .ok (.mirrorFirst next [] []) := by
  unfold planResetUser at planned
  split at planned
  case h_1 => cases planned
  case h_2 u found =>
    split at planned
    case isFalse => cases planned
    case isTrue =>
      cases planned
      have reset : (m.updateUserStatus u.id .invited).userByEmail email
          = some { u with status := .invited } := by
        have sameEmail : (fun other : Account => other.email == email)
            ∘ (fun other : Account =>
              if (other.id == u.id) = true then { other with status := .invited } else other)
            = fun other => other.email == email := by
          funext other
          by_cases isUser : other.id = u.id <;> simp [isUser]
        have found : m.users.find? (fun other => other.email == email) = some u := found
        unfold Tables.userByEmail Mirror.updateUserStatus Tables.updateUserStatus updateWhere
        rw [List.find?_map, sameEmail, found]
        simp
      refine ⟨(m.updateUserStatus u.id .invited).updateUserStatus u.id .invited, ?_⟩
      unfold planResetUser
      simp only [Plan.mirrorFirst, reset]
      rfl

/-- Repeated after its rows were committed, a request that deletes nothing finds nothing left
to write. -/
theorem planned_again {req : Request} (deletes : req.deletes = false)
    (planned : req.plan m = .ok plan) :
    ∃ next, req.plan plan.before = .ok (.mirrorFirst next [] []) := by
  cases req with
  | assignRoles => exact planAssignRoles_again planned
  | setRoles => exact planSetRoles_again planned
  | addMembers => exact ⟨_, planAddMembers_again planned⟩
  | removeMember => exact ⟨_, planRemoveMember_again planned⟩
  | resetUser => exact planResetUser_again planned
  | deleteGroup | removeRole => cases deletes

end Again

/-! ### What an undisturbed request writes -/

section Writes

variable {m : Mirror} {ts : Finset Tuple} {plan : Plan}

/-- A tuple that cannot be left over is stored exactly when the rows call for it. -/
theorem Agrees.mem_iff (agrees : Agrees tb ts) (t : Tuple)
    (live : ¬Leftover tb t) : t ∈ ts ↔ Expected tb t :=
  ⟨fun stored => (agrees.sound t stored).resolve_right live, agrees.complete t⟩

/-- Where the rows of the wanted roles call for the tuples that are there already, the wanted
roles are those that have the rows. -/
theorem mem_wanted_of_named (has : RoleID → Prop) (known : ∀ wanted ∈ want, wanted ∈ m.roles)
    (same : ∀ r ∈ m.roles, Named m.roles has r.slug ↔ r.slug ∈ want.map Role.slug) (r : Role) :
    r ∈ m.roles ∧ has r.id ↔ r ∈ want := by
  rw [← mem_wanted known]
  apply and_congr_right
  intro mem
  have hasRole : Named m.roles has r.slug ↔ has r.id := named_iff mem
  have isWanted : Named m.roles (fun id => id ∈ want.map Role.id) r.slug ↔ _ :=
    named_iff mem
  rw [← hasRole, same r mem, ← named_mem known, isWanted]

/-- A write of the tuples that changes nothing is of none. -/
def Plan.Effective (plan : Plan) (ts : Finset Tuple) : Prop :=
  write ts plan.adds plan.removes = ts → plan.adds = [] ∧ plan.removes = []

section Effective

variable (agrees : Agrees m.toTables ts)

include agrees

theorem planAssignRoles_writes (planned : planAssignRoles m a uid rids = .ok plan) :
    plan.Effective ts := by
  intro same
  obtain ⟨want, next, found, -, replaced, rfl⟩ := planAssignRoles_eq_ok planned
  have known := (Tables.rolesByID_eq_some found).2
  have post : Agrees (m.toTables.replaceBindings uid (want.map Role.id)) ts :=
    same ▸ agrees.replaceBindings known
  have held : ∀ r, r ∈ m.userRoles uid ↔ r ∈ want := by
    intro r
    rw [Mirror.mem_userRoles]
    refine mem_wanted_of_named (fun id => (uid, id) ∈ m.bindings) known ?_ r
    intro r _
    have pre := agrees.mem_iff (.roleAssignment r.slug uid) id
    have later := post.mem_iff (.roleAssignment r.slug uid) id
    have replaced : Expected (m.toTables.replaceBindings uid (want.map Role.id))
        (.roleAssignment r.slug uid) ↔ _ := named_replaceAt known
    exact pre.symm.trans (later.trans (replaced.trans (by simp)))
  have nothing := missing_of_same held
  rw [Plan.mirrorFirst, nothing.1, nothing.2]
  exact ⟨rfl, rfl⟩

theorem planSetRoles_writes (planned : planSetRoles m a gid rids = .ok plan) :
    plan.Effective ts := by
  intro same
  obtain ⟨-, -, group, want, next, -, found, -, -, -, replaced, rfl⟩ := planSetRoles_eq_ok planned
  have known := (Tables.rolesByID_eq_some found).2
  have post : Agrees (m.toTables.replaceGroupRoles gid (want.map Role.id)) ts :=
    same ▸ agrees.replaceGroupRoles known
  have carried : ∀ r, r ∈ m.rolesOfGroup gid ↔ r ∈ want := by
    intro r
    rw [Tables.mem_rolesOfGroup]
    refine mem_wanted_of_named (fun id => (gid, id) ∈ m.groupRoles) known ?_ r
    intro r mem
    -- The slug has a role, so the group's tuple for it is not left over.
    have live : ¬r.slug ∉ m.roles.map Role.slug := not_not.mpr (List.mem_map_of_mem mem)
    have pre := agrees.mem_iff (.groupRole gid r.slug) live
    have later := post.mem_iff (.groupRole gid r.slug) live
    have replaced : Expected (m.toTables.replaceGroupRoles gid (want.map Role.id))
        (.groupRole gid r.slug) ↔ _ := named_replaceAt known
    exact pre.symm.trans (later.trans (replaced.trans (by simp)))
  have nothing := missing_of_same carried
  rw [Plan.mirrorFirst, nothing.1, nothing.2]
  exact ⟨rfl, rfl⟩

theorem planAddMembers_writes (planned : planAddMembers m a gid userIDs addedAt = .ok plan) :
    plan.Effective ts := by
  intro same
  cases planAddMembers_sound planned with
  | createRole creates => cases creates
  | @addMembers _ _ _ _ fresh next strangers joined rs =>
    refine ⟨?_, rfl⟩
    apply List.eq_nil_iff_forall_not_mem.mpr
    intro t added
    obtain ⟨uid, isFresh, rfl⟩ := List.mem_map.mp added
    have stored : Tuple.groupMembership gid uid ∈ ts := by
      rw [← same]
      exact mem_write.mpr ⟨Or.inr added, List.not_mem_nil⟩
    have isMem : next.isGroupMember gid uid = true := by
      rw [rs]
      exact Tables.isGroupMember_appendMembers.mpr
        (Or.inr ⟨_, List.mem_map_of_mem isFresh, rfl, rfl⟩)
    obtain ⟨row, rowMem, ofGroup, -⟩ := Tables.isGroupMember_iff.mp isMem
    have present : gid ∈ m.groups.map Group.id := by
      have refers := (next.integrity.members row rowMem).1
      rw [ofGroup, rs] at refers
      exact refers
    have wasMem := (agrees.mem_iff (.groupMembership gid uid) (not_not.mpr present)).mp stored
    rw [Expected, strangers uid isFresh] at wasMem
    cases wasMem

theorem planRemoveMember_writes (planned : planRemoveMember m a gid uid = .ok plan) :
    plan.Effective ts := by
  intro same
  cases planRemoveMember_sound planned with
  | createRole creates => cases creates
  | removeStranger => exact ⟨rfl, rfl⟩
  | removeMember isMem =>
    have stored := agrees.complete (.groupMembership gid uid) isMem
    rw [← same] at stored
    exact absurd List.mem_cons_self (mem_write.mp stored).2

theorem planResetUser_writes {email : Email} (planned : planResetUser m email = .ok plan) :
    plan.Effective ts := by
  intro same
  unfold planResetUser at planned
  split at planned
  case h_1 => cases planned
  case h_2 u found =>
    split at planned
    case isFalse => cases planned
    case isTrue =>
      cases planned
      by_cases isActive : u.status = .active
      · have mem := List.mem_of_find?_eq_some found
        have stored := agrees.complete (.membership .member u.id) ⟨u, mem, rfl, isActive⟩
        rw [← same] at stored
        have kept := (mem_write.mp stored).2
        simp [Plan.mirrorFirst, resetTuples, isActive] at kept
      · simp [Plan.mirrorFirst, resetTuples, isActive]

/-- A request that would leave the tuples of an agreeing state as they are writes nothing. -/
theorem writes_something {req : Request} (deletes : req.deletes = false)
    (planned : req.plan m = .ok plan) : plan.Effective ts := by
  cases req with
  | assignRoles => exact planAssignRoles_writes agrees planned
  | setRoles => exact planSetRoles_writes agrees planned
  | addMembers => exact planAddMembers_writes agrees planned
  | removeMember => exact planRemoveMember_writes agrees planned
  | resetUser => exact planResetUser_writes agrees planned
  | deleteGroup | removeRole => cases deletes

end Effective

/-! ### Requests with nothing to write -/

theorem flatMap_eq_nil {α : Type} {factsOf : α → List Tuple} {items : List α}
    (something : ∀ item, factsOf item ≠ []) : items.flatMap factsOf = [] ↔ items = [] := by
  constructor
  · intro empty
    apply List.eq_nil_iff_forall_not_mem.mpr
    simp_all
  · rintro rfl
    rfl

theorem missing_eq_nil_iff {left right : List Role} :
    missing Role.id left right = [] ∧ missing Role.id right left = [] ↔
      ∀ id, id ∈ right.map Role.id ↔ id ∈ left.map Role.id := by
  simp only [missing_eq_nil]
  constructor
  · grind
  grind

theorem mem_found_ids (found : m.rolesByID (dedupe [] rids) = some want) {id : RoleID} :
    id ∈ want.map Role.id ↔ id ∈ rids := by
  rw [(Tables.rolesByID_eq_some found).1, mem_dedupe]
  simp

/-- A request that passes its checks has nothing to write when the rows are settled. -/
theorem settled_iff {req : Request} (deletes : req.deletes = false)
    (planned : req.plan m = .ok plan) :
    plan.adds = [] ∧ plan.removes = [] ↔ req.settled m.toTables := by
  cases req with
  | assignRoles a uid rids =>
    obtain ⟨want, next, found, -, -, rfl⟩ := planAssignRoles_eq_ok planned
    have nonempty : ∀ r, assignmentTuples uid r ≠ [] := fun r => List.cons_ne_nil _ _
    rw [Plan.mirrorFirst, flatMap_eq_nil nonempty, flatMap_eq_nil nonempty, missing_eq_nil_iff]
    simp only [mem_userRoles_ids, mem_found_ids found, Request.settled]
  | setRoles a gid rids =>
    obtain ⟨-, -, group, want, next, -, found, -, -, -, -, rfl⟩ := planSetRoles_eq_ok planned
    have nonempty : ∀ r, groupRoleTuples gid r ≠ [] := fun r => List.cons_ne_nil _ _
    rw [Plan.mirrorFirst, flatMap_eq_nil nonempty, flatMap_eq_nil nonempty, missing_eq_nil_iff]
    simp only [mem_rolesOfGroup_ids, mem_found_ids found, Request.settled]
  | addMembers a gid userIDs addedAt =>
    constructor
    · intro nothing uid listed
      cases planAddMembers_sound planned with
      | createRole creates => cases creates
      | @addMembers _ _ _ _ fresh next strangers joined rs =>
        cases List.map_eq_nil_iff.mp nothing.1
        have isMem := joined uid (mem_dedupe.mpr ⟨listed, List.not_mem_nil⟩)
        grind [Tables.isGroupMember_appendMembers]
    · intro members
      have joined : ∀ uid ∈ dedupe [] userIDs, m.isGroupMember gid uid = true :=
        fun uid listed => members uid (mem_dedupe.mp listed).1
      simp only [Request.plan, planAddMembers, addEach_joined joined] at planned
      split at planned
      case h_1 => cases planned
      case h_2 =>
        cases planned
        exact ⟨rfl, rfl⟩
  | removeMember a gid uid =>
    cases planRemoveMember_sound planned with
    | createRole creates => cases creates
    | removeStranger stranger => simp [Plan.mirrorFirst, Request.settled, stranger]
    | removeMember isMem => simp [Plan.mirrorFirst, Request.settled, isMem]
  | resetUser email =>
    simp only [Request.plan, planResetUser] at planned
    split at planned
    case h_1 => cases planned
    case h_2 u found =>
      split at planned
      case isFalse => cases planned
      case isTrue =>
        cases planned
        simp only [Plan.mirrorFirst, Request.settled, found, Option.some.injEq, forall_eq']
        grind [resetTuples]
  | deleteGroup | removeRole => cases deletes

end Writes

/-! ### Convergence -/

/-- A failed deletion never returns nil, and a request with nothing to write cannot fail. -/
theorem converges_of_safe {req : Request} {st : State}
    (safe : req.deletes = true ∨ req.refused st.mirror
      ∨ req.settled st.mirror.toTables) : Converges req st := by
  intro fs fin returns
  cases fs with
  | nil => cases returns
  | cons fault rest =>
    cases planned : req.plan st.mirror with
    | error refused =>
      rw [retry_refused planned] at returns
      cases returns
    | ok plan =>
      by_cases nothing : plan.adds = [] ∧ plan.removes = []
      · rw [retry_of_ok (attempt_nothing planned nothing fault)] at returns
        cases returns
        rw [attempt_nothing planned nothing]
      · cases fault with
        | none =>
          rw [retry_of_ok (attempt_undisturbed planned)] at returns
          cases returns
          rw [attempt_undisturbed planned]
        | some count =>
          have deletes : req.deletes = true := by
            by_contra keeps
            have keeps : req.deletes = false := by simpa using keeps
            rcases safe with deletes | refused | settled
            · rw [keeps] at deletes
              cases deletes
            · exact refused plan planned
            · exact nothing ((settled_iff keeps planned).mpr settled)
          obtain ⟨refusal, refused⟩ := deletes_again deletes planned
          rw [retry_of_error (attempt_failed planned nothing count)] at returns
          grind [retry_refused]

/-- Mirror and tuples agreeing before it, a request repeated after failed writes leaves the
tuples of an undisturbed request exactly when it deletes its row, so that a failed one never
returns nil, when it is refused, or when the rows already are what it asks for. -/
theorem retries_converge_iff {req : Request} {st : State}
    (agrees : Agrees st.mirror.toTables st.tuples) :
    Converges req st ↔ req.deletes = true ∨ req.refused st.mirror
        ∨ req.settled st.mirror.toTables := by
  refine ⟨fun converges => ?_, converges_of_safe⟩
  by_cases deletes : req.deletes = true
  · exact Or.inl deletes
  have deletes : req.deletes = false := by simpa using deletes
  cases planned : req.plan st.mirror with
  | error refusal =>
    refine Or.inr (Or.inl fun plan passes => ?_)
    rw [planned] at passes
    cases passes
  | ok plan =>
    refine Or.inr (Or.inr ((settled_iff deletes planned).mp ?_))
    by_contra something
    -- The first write fails at once; the repetition computes its difference from the new rows.
    obtain ⟨next, again⟩ := planned_again deletes planned
    have failed := attempt_failed planned something 0
    rw [writeWith_unstarted] at failed
    have repeated := @attempt_nothing req ⟨plan.before, st.tuples⟩ _ again ⟨rfl, rfl⟩ none
    have returns : retry req [some 0, none] st = some ⟨next, st.tuples⟩ := by
      rw [retry_of_error failed, retry_of_ok repeated]
      rfl
    have same := converges _ _ returns
    rw [attempt_undisturbed planned] at same
    exact something (writes_something agrees deletes planned same.symm)

/-- A tenant with one user and one group. -/
def Sample.grouped : List Call := Sample.joining.take 2

theorem Sample.grouped_agrees : ∃ st, run step Sample.tenant Sample.grouped = some st
    ∧ Agrees st.mirror.toTables st.tuples := by
  have clean : EveryStep step CleanSlug Sample.tenant Sample.grouped := by
    iterate 2
      refine ⟨fun s creates => (nomatch creates), fun next _ => ?_⟩
    trivial
  refine ⟨_, rfl, ?_⟩
  have kept := run_preserves (fun _ _ _ kept clean taken => Kept.step kept clean taken)
    Sample.tenant_empty.kept clean rfl
  exact kept.agrees

/-- The group is deleted: whatever fails, no call returns nil with its tuples half removed. -/
theorem deleteGroup_converges : ∃ st, run step Sample.tenant Sample.grouped = some st
      ∧ Agrees st.mirror.toTables st.tuples
      ∧ Converges (.deleteGroup Sample.owner 7 0) st := by
  obtain ⟨st, reaches, agrees⟩ := Sample.grouped_agrees
  exact ⟨st, reaches, agrees, (retries_converge_iff agrees).mpr (Or.inl rfl)⟩

/-- The write of a new member fails once: the repeated call finds the user to be a member,
writes nothing and returns nil. -/
theorem failed_addMembers_diverges : ∃ st fin, run step Sample.tenant Sample.grouped = some st
      ∧ Agrees st.mirror.toTables st.tuples
      ∧ retry (.addMembers Sample.owner 7 [1] fun _ => 0) [some 0, none] st = some fin
      ∧ fin.tuples ≠ (attempt (.addMembers Sample.owner 7 [1] fun _ => 0) none st).2.tuples := by
  obtain ⟨st, reaches, agrees⟩ := Sample.grouped_agrees
  cases reaches
  refine ⟨_, _, rfl, agrees, rfl, ?_⟩
  decide

end TangraAuth.Authz

import TangraAuth.Authz.Calls

/-!
Contract: what a call that passes its checks does to the mirror and the tuples.

Owns: one relation with a case for each way a call can be planned, and the
lemma that every plan is one of them.

Does not own: what is refused, and whether mirror and tuples agree.
-/

namespace TangraAuth.Authz

open Library Store Accounts

/-! ### Loops of the calls -/

section Dedupe

variable {α : Type} [DecidableEq α]

theorem mem_dedupe {seen ids : List α} {id : α} : id ∈ dedupe seen ids ↔ id ∈ ids ∧ id ∉ seen := by
  induction ids generalizing seen with
  | nil => simp [dedupe]
  | cons first rest ih =>
    by_cases known : first ∈ seen
    · rw [dedupe, if_pos known, ih, List.mem_cons]
      grind
    · rw [dedupe, if_neg known, List.mem_cons, ih, List.mem_cons,
        List.mem_cons]
      constructor
      · grind
      grind

end Dedupe

def Tables.appendMembers (tb : Tables) (rs : List Member) : Tables :=
  { tb with members := tb.members ++ rs }

def newMember (gid : GroupID) (addedAt : UserID → Int) (uid : UserID) : Member :=
  ⟨gid, uid, addedAt uid⟩

theorem Tables.appendMembers_append (tb : Tables) (first second : List Member) :
    (tb.appendMembers first).appendMembers second = tb.appendMembers (first ++ second) := by
  simp [Tables.appendMembers]

variable {gid : GroupID} {uid : UserID}

theorem Tables.isGroupMember_appendMembers {tb : Tables} {rs : List Member} :
    (tb.appendMembers rs).isGroupMember gid uid = true ↔ tb.isGroupMember gid uid = true
        ∨ ∃ row ∈ rs, row.groupID = gid ∧ row.userID = uid := by
  simp only [Tables.isGroupMember_iff, Tables.appendMembers, List.mem_append, or_and_right,
    exists_or]

variable {next : Mirror}

theorem Mirror.addGroupMember_eq_some {m : Mirror} {addedAt : Int} {count : Nat}
    (done : m.addGroupMember gid uid addedAt = some (count, next)) :
    (m.isGroupMember gid uid = true ∧ count = 0 ∧ next = m)
      ∨ (m.isGroupMember gid uid = false ∧ count = 1 ∧ uid ∈ m.users.map Account.id
        ∧ next.toTables = m.toTables.insertMember ⟨gid, uid, addedAt⟩) := by
  unfold Mirror.addGroupMember at done
  split at done
  case isTrue mem =>
    cases done
    exact Or.inl ⟨mem, rfl, rfl⟩
  case isFalse stranger =>
    obtain ⟨inserted, stored, isPair⟩ := Option.map_eq_some_iff.mp done
    cases isPair
    have checks := checked_eq_some stored
    exact Or.inr ⟨by simpa using stranger, rfl, checks.1.2, checks.2⟩

variable {addedAt : UserID → Int} {users pre : List UserID}

theorem addEach_eq_ok {m : Mirror} {added : List UserID}
    (done : addEach gid addedAt users m pre = .ok (next, added)) :
    ∃ fresh, added = pre ++ fresh
      ∧ next.toTables = m.toTables.appendMembers (fresh.map (newMember gid addedAt))
      ∧ (∀ uid ∈ fresh, m.isGroupMember gid uid = false)
      ∧ ∀ uid ∈ users, next.isGroupMember gid uid = true := by
  induction users generalizing m pre with
  | nil =>
    cases done
    exact ⟨[], by simp, by simp [Tables.appendMembers], by simp, by simp⟩
  | cons uid rest ih =>
    rw [addEach] at done
    split at done
    case isTrue isMem =>
      obtain ⟨fresh, isAdded, tb, strangers, joined⟩ := ih done
      refine ⟨fresh, isAdded, tb, strangers, ?_⟩
      intro other listed
      rcases List.mem_cons.mp listed with rfl | listed
      · rw [tb]
        exact Tables.isGroupMember_appendMembers.mpr (Or.inl isMem)
      · exact joined other listed
    case isFalse =>
      split at done
      case h_1 => cases done
      case h_2 one =>
        grind [Mirror.addGroupMember_eq_some, Mirror.addGroupMember]
      case h_3 inserted one =>
        rcases Mirror.addGroupMember_eq_some one with ⟨isMem, -, -⟩ | ⟨stranger, -, -, first⟩
        · contradiction
        have first : inserted.toTables
            = m.toTables.appendMembers [newMember gid addedAt uid] := first
        obtain ⟨fresh, isAdded, tb, strangers, joined⟩ := ih done
        rw [first] at tb strangers
        rw [Tables.appendMembers_append] at tb
        refine ⟨uid :: fresh, ?_, tb, ?_, ?_⟩
        · rw [isAdded, List.append_assoc]
          rfl
        · intro other isFresh
          rcases List.mem_cons.mp isFresh with rfl | isFresh
          · exact stranger
          · have later := strangers other isFresh
            by_contra isMem
            rw [Bool.not_eq_false] at isMem
            rw [Tables.isGroupMember_appendMembers.mpr (Or.inl isMem)] at later
            cases later
        · intro other listed
          rcases List.mem_cons.mp listed with rfl | listed
          · rw [tb]
            exact Tables.isGroupMember_appendMembers.mpr (Or.inr ⟨_, List.mem_cons_self, rfl, rfl⟩)
          · exact joined other listed

theorem addEach_joined {m : Mirror} (joined : ∀ uid ∈ users, m.isGroupMember gid uid = true) :
    addEach gid addedAt users m pre = .ok (m, pre) := by
  induction users with
  | nil => rfl
  | cons uid rest ih =>
    rw [addEach, if_pos (joined uid List.mem_cons_self)]
    grind

/-- A loop stopped by an unknown user leaves rows appended and stops there again. -/
theorem addEach_eq_error {m left : Mirror}
    (stopped : addEach gid addedAt users m pre = .error left) :
    (∃ rs, left.toTables = m.toTables.appendMembers rs)
      ∧ ∀ again, addEach gid addedAt users left again = .error left := by
  induction users generalizing m pre with
  | nil => cases stopped
  | cons uid rest ih =>
    rw [addEach] at stopped
    split at stopped
    case isTrue isMem =>
      obtain ⟨⟨rs, tb⟩, stops⟩ := ih stopped
      refine ⟨⟨rs, tb⟩, ?_⟩
      intro again
      rw [addEach, if_pos, stops]
      rw [tb]
      exact Tables.isGroupMember_appendMembers.mpr (Or.inl isMem)
    case isFalse stranger =>
      split at stopped
      case h_1 unknown =>
        cases stopped
        refine ⟨⟨[], by simp [Tables.appendMembers]⟩, ?_⟩
        intro again
        rw [addEach, if_neg stranger, unknown]
      case h_2 one =>
        grind [Mirror.addGroupMember_eq_some, Mirror.addGroupMember]
      case h_3 inserted one =>
        rcases Mirror.addGroupMember_eq_some one with ⟨isMem, -, -⟩ | ⟨-, -, -, first⟩
        · contradiction
        have first : inserted.toTables = m.toTables.appendMembers [⟨gid, uid, addedAt uid⟩] := first
        obtain ⟨⟨rs, tb⟩, stops⟩ := ih stopped
        rw [first, Tables.appendMembers_append] at tb
        refine ⟨⟨_, tb⟩, ?_⟩
        intro again
        rw [addEach, if_pos, stops]
        rw [tb]
        exact Tables.isGroupMember_appendMembers.mpr (Or.inr ⟨_, List.mem_cons_self, rfl, rfl⟩)

theorem joinGroups_eq_some {addedAt : Int} {groups : List GroupID} {m : Mirror}
    {joined : List GroupID} (done : joinGroups uid addedAt groups m = some (next, joined)) :
    ∃ rs, next.toTables = m.toTables.appendMembers rs
      ∧ (∀ row ∈ rs, row.userID = uid ∧ row.groupID ∈ joined)
      ∧ ∀ gid ∈ joined, next.isGroupMember gid uid = true := by
  induction groups generalizing m joined with
  | nil =>
    cases done
    exact ⟨[], by simp [Tables.appendMembers], by simp, by simp⟩
  | cons gid rest ih =>
    rw [joinGroups] at done
    split at done
    case h_1 => exact ih done
    case h_2 =>
      split at done
      case h_1 => cases done
      case h_2 count entered one =>
        obtain ⟨⟨fin, others⟩, continues, isPair⟩ := Option.map_eq_some_iff.mp done
        cases isPair
        obtain ⟨rs, tb, ofUser, members⟩ := ih continues
        have first : ∃ head : List Member, entered.toTables = m.toTables.appendMembers head
              ∧ (∀ row ∈ head, row.userID = uid ∧ row.groupID = gid)
              ∧ entered.isGroupMember gid uid = true := by
          rcases Mirror.addGroupMember_eq_some one with
            ⟨isMem, -, rfl⟩ | ⟨-, -, -, inserted⟩
          · exact ⟨[], by simp [Tables.appendMembers], by simp, isMem⟩
          · have inserted : entered.toTables
                = m.toTables.appendMembers [⟨gid, uid, addedAt⟩] := inserted
            refine ⟨_, inserted, by simp, ?_⟩
            rw [inserted]
            exact Tables.isGroupMember_appendMembers.mpr (Or.inr ⟨_, List.mem_cons_self, rfl, rfl⟩)
        obtain ⟨head, e, ofEntry, isMem⟩ := first
        refine ⟨head ++ rs, ?_, ?_, ?_⟩
        · rw [tb, e, Tables.appendMembers_append]
        · grind
        · intro other listed
          rcases List.mem_cons.mp listed with rfl | listed
          · rw [tb]
            exact Tables.isGroupMember_appendMembers.mpr (Or.inl isMem)
          · exact members other listed

theorem drainMembers_ofGroup {tb : Tables} {post : Option Int} :
    ∀ mem ∈ drainMembers tb gid post, mem.groupID = gid := by
  have ofPage : ∀ post, ∀ mem ∈ tb.listGroupMembers gid post groupBatchMax, mem.groupID = gid := by
    intro post mem listed
    have sel := (List.mem_filter.mp (Tables.mem_listGroupMembers listed)).2
    simp only [Bool.and_eq_true, beq_iff_eq] at sel
    exact sel.1
  fun_induction drainMembers tb gid post with
  | case1 => simp
  | case2 post last _ page short => exact ofPage post
  | case3 post last _ page long ih =>
    grind

/-! ### What the calls do -/

/-- The slug under which the call makes a role. -/
def Call.creates : Call → Option Slug
  | .createRole _ _ s _ _ => some s
  | .cloneRole _ _ _ s _ => some s
  | _ => none

/-- The account of an acceptance is inserted as active, or was invited and is activated. -/
inductive Opened (m : Mirror) (nid : UserID) : Mirror → UserID → Prop where
  | inserted {opened : Mirror} {email : Email} (fresh : nid ∉ m.users.map Account.id)
      (rs : opened.toTables = m.toTables.insertUser ⟨nid, email, .active⟩) :
      Opened m nid opened nid
  | activated {u : Account} (mem : u ∈ m.users) (status : u.status = .invited) :
      Opened m nid (m.updateUserStatus u.id .active) u.id

inductive Change (m : Mirror) : Call → Plan → Prop where
  | assignRoles {a : Actor} {uid : UserID} {rids : List RoleID} {want : List Role}
      {next : Mirror} (known : ∀ r ∈ want, r ∈ m.roles)
      (rs : next.toTables = m.toTables.replaceBindings uid (want.map Role.id)) :
      Change m (.assignRoles a uid rids) (.mirrorFirst next
          ((missing Role.id (m.userRoles uid) want).flatMap (assignmentTuples uid))
          ((missing Role.id want (m.userRoles uid)).flatMap (assignmentTuples uid)))
  | createRole {c : Call} {id : RoleID} {s : Slug} {perms : List Permission}
      {inserted : Mirror} (creates : c.creates = some s)
      (fresh : id ∉ m.roles.map Role.id ∧ s ∉ m.roles.map Role.slug)
      (rs : inserted.toTables = m.toTables.insertRole ⟨id, s, .custom, false⟩) :
      Change m c
        { before := inserted
          adds := .roleTenant s :: perms.flatMap (grantTuples s)
          removes := []
          after := inserted.replaceRolePermissions id perms }
  | updateRole {a : Actor} {named : Bool} {refs perms : List Permission} {r : Role}
      (mem : r ∈ m.roles) :
      Change m (.updateRole a r.id named refs)
        { before := m
          adds := (missing (·) (m.rolePermissions r.id) perms).flatMap (grantTuples r.slug)
          removes := (missing (·) perms (m.rolePermissions r.id)).flatMap (grantTuples r.slug)
          after := m.replaceRolePermissions r.id perms }
  | removeRole {r : Role} {next : Mirror} (mem : r ∈ m.roles)
      (rs : next.toTables = m.toTables.removeRole r.id) :
      Change m (.removeRole r.id) (.mirrorFirst next []
          ((m.roleAssignees r.id).map (Tuple.roleAssignment r.slug)
            ++ (m.rolePermissions r.id).flatMap (grantTuples r.slug)
            ++ [.roleTenant r.slug]))
  | createGroup {a : Actor} {id : GroupID} {named : Bool} {name : String} {next : Mirror}
      (fresh : id ∉ m.groups.map Group.id)
      (rs : next.toTables = m.toTables.insertGroup ⟨id, name⟩) :
      Change m (.createGroup a id named name) (.mirrorFirst next [.groupTenant id] [])
  | addMembers {a : Actor} {gid : GroupID} {userIDs : List UserID}
      {addedAt : UserID → Int} {fresh : List UserID} {next : Mirror}
      (strangers : ∀ uid ∈ fresh, m.isGroupMember gid uid = false)
      (joined : ∀ uid ∈ dedupe [] userIDs, next.isGroupMember gid uid = true)
      (rs : next.toTables = m.toTables.appendMembers (fresh.map (newMember gid addedAt))) :
      Change m (.addMembers a gid userIDs addedAt)
        (.mirrorFirst next (fresh.map (Tuple.groupMembership gid)) [])
  | removeStranger {a : Actor} {gid : GroupID} {uid : UserID}
      (stranger : m.isGroupMember gid uid = false) :
      Change m (.removeMember a gid uid) (.mirrorFirst m [] [])
  | removeMember {a : Actor} {gid : GroupID} {uid : UserID}
      (isMem : m.isGroupMember gid uid = true) :
      Change m (.removeMember a gid uid)
        (.mirrorFirst (m.removeGroupMember gid uid) [] [.groupMembership gid uid])
  | setRoles {a : Actor} {gid : GroupID} {rids : List RoleID} {want : List Role}
      {next : Mirror} (known : ∀ r ∈ want, r ∈ m.roles)
      (rs : next.toTables = m.toTables.replaceGroupRoles gid (want.map Role.id)) :
      Change m (.setRoles a gid rids) (.mirrorFirst next
          ((missing Role.id (m.rolesOfGroup gid) want).flatMap (groupRoleTuples gid))
          ((missing Role.id want (m.rolesOfGroup gid)).flatMap (groupRoleTuples gid)))
  | deleteGroup {a : Actor} {gid : GroupID} {memberCount : Nat} {next : Mirror}
      {drained : List Member} (ofGroup : ∀ mem ∈ drained, mem.groupID = gid)
      (rs : next.toTables = m.toTables.deleteGroup gid) :
      Change m (.deleteGroup a gid memberCount) (.mirrorFirst next []
          (.groupTenant gid :: (m.rolesOfGroup gid).flatMap (groupRoleTuples gid)
            ++ drained.map fun mem => .groupMembership gid mem.userID))
  | accept {invited : Invited} {nid uid : UserID} {addedAt : Int} {opened next : Mirror}
      {roles : List Role} {joined : List GroupID} {rs : List Member}
      (acc : Opened m nid opened uid)
      (known : ∀ r ∈ roles, r ∈ opened.roles)
      (tb : next.toTables
        = (opened.toTables.replaceBindings uid (roles.map Role.id)).appendMembers rs)
      (ofUser : ∀ row ∈ rs, row.userID = uid ∧ row.groupID ∈ joined)
      (members : ∀ gid ∈ joined, next.isGroupMember gid uid = true) :
      Change m (.accept invited nid addedAt) (.mirrorFirst next (.membership .member uid
            :: joined.map (fun gid => .groupMembership gid uid)
            ++ roles.flatMap (assignmentTuples uid)) [])

variable {m : Mirror} {res : Plan}

theorem passes_check {refused : Prop} [Decidable refused] {refusal : Refusal × Mirror}
    {rest : Planned} (planned : (if refused then .error refusal else rest) = .ok res) :
    ¬refused ∧ rest = .ok res := by
  grind

variable {a : Actor} {rids : List RoleID}

theorem planAssignRoles_eq_ok (planned : planAssignRoles m a uid rids = .ok res) :
    ∃ want next, m.rolesByID (dedupe [] rids) = some want ∧ mayAssign m.toTables a
          ((missing Role.id (m.userRoles uid) want).map Role.id) = .ok ()
      ∧ m.replaceBindings uid (want.map Role.id) = some next
      ∧ res = .mirrorFirst next
          ((missing Role.id (m.userRoles uid) want).flatMap (assignmentTuples uid))
          ((missing Role.id want (m.userRoles uid)).flatMap (assignmentTuples uid)) := by
  unfold planAssignRoles at planned
  grind

theorem planAssignRoles_sound (planned : planAssignRoles m a uid rids = .ok res) :
    Change m (.assignRoles a uid rids) res := by
  obtain ⟨want, next, found, -, replaced, rfl⟩ := planAssignRoles_eq_ok planned
  exact .assignRoles (Tables.rolesByID_eq_some found).2 (checked_eq_some replaced).2

theorem mayAssign_eq_ok {r : Role} (allowed : mayAssign m.toTables a rids = .ok ())
    (mem : r ∈ m.roles) (listed : r.id ∈ rids) :
    ∃ roles, r ∈ roles ∧ refuseRetired roles = false
      ∧ (a.isOwner = true ∨ a.mayGrant (grantsOf m.toTables roles) = true) := by
  unfold mayAssign at allowed
  rw [if_neg (by simp [List.ne_nil_of_mem listed])] at allowed
  split at allowed
  case h_1 => cases allowed
  case h_2 roles found =>
    obtain ⟨ids, known⟩ := Tables.rolesByID_eq_some found
    have among : r.id ∈ roles.map Role.id := by
      rw [ids, mem_dedupe]
      exact ⟨listed, List.not_mem_nil⟩
    obtain ⟨other, otherListed, sameID⟩ := List.mem_map.mp among
    have same := eq_of_uniqueKey m.integrity.roles (known other otherListed) mem sameID
    refine ⟨roles, same ▸ otherListed, ?_⟩
    split_ifs at allowed with retired owner privileged mayGrant
    · exact ⟨Bool.eq_false_iff.mpr retired, Or.inl owner⟩
    · exact ⟨Bool.eq_false_iff.mpr retired, Or.inr mayGrant⟩

variable {id : RoleID} {s : Slug} {named : Bool} {refs : List Permission}

theorem planCreateRole_eq_ok (planned : planCreateRole m a id s named refs = .ok res) :
    ∃ perms next, a.mayGrant perms = true ∧ m.insertRole ⟨id, s, .custom, false⟩ = some next ∧ res =
        { before := next
          adds := .roleTenant s :: perms.flatMap (grantTuples s)
          removes := []
          after := next.replaceRolePermissions id perms } := by
  unfold planCreateRole at planned
  have planned := (passes_check planned).2
  grind

theorem planCreateRole_sound {c : Call} (creates : c.creates = some s)
    (planned : planCreateRole m a id s named refs = .ok res) :
    Change m c res := by
  obtain ⟨perms, next, -, inserted, rfl⟩ := planCreateRole_eq_ok planned
  have checks := checked_eq_some inserted
  exact .createRole creates checks.1 checks.2

variable {source : RoleID} {userIDs : List UserID}

theorem planCloneRole_eq_ok (planned : planCloneRole m a source id s named = .ok res) :
    ∃ refs, planCreateRole m a id s named refs = .ok res := by
  unfold planCloneRole at planned
  grind

theorem planCloneRole_sound (planned : planCloneRole m a source id s named = .ok res) :
    Change m (.cloneRole a source id s named) res := by
  obtain ⟨refs, created⟩ := planCloneRole_eq_ok planned
  exact planCreateRole_sound rfl created

theorem planUpdateRole_eq_ok (planned : planUpdateRole m a id named refs = .ok res) :
    ∃ r perms, r ∈ m.roles ∧ r.id = id
      ∧ a.mayGrant (missing (·) (m.rolePermissions id) perms) = true
      ∧ res =
        { before := m
          adds := (missing (·) (m.rolePermissions id) perms).flatMap (grantTuples r.slug)
          removes := (missing (·) perms (m.rolePermissions id)).flatMap (grantTuples r.slug)
          after := m.replaceRolePermissions id perms } := by
  unfold planUpdateRole at planned
  grind [Tables.role_eq_some]

theorem planUpdateRole_sound (planned : planUpdateRole m a id named refs = .ok res) :
    Change m (.updateRole a id named refs) res := by
  obtain ⟨r, perms, mem, rfl, -, rfl⟩ := planUpdateRole_eq_ok planned
  exact .updateRole mem

theorem planRemoveRole_sound (planned : planRemoveRole m id = .ok res) :
    Change m (.removeRole id) res := by
  unfold planRemoveRole at planned
  split at planned
  case h_1 => cases planned
  case h_2 r found =>
    obtain ⟨mem, rfl⟩ := Tables.role_eq_some found
    split at planned
    case h_1 => cases planned
    case h_2 =>
      split at planned
      case h_1 => cases planned
      case h_2 next removed =>
        cases planned
        exact .removeRole mem (checked_eq_some removed).2

theorem planCreateGroup_sound {id : GroupID} {name : String}
    (planned : planCreateGroup m a id named name = .ok res) :
    Change m (.createGroup a id named name) res := by
  unfold planCreateGroup at planned
  have planned := (passes_check planned).2
  have planned := (passes_check planned).2
  split at planned
  case h_1 => cases planned
  case h_2 next inserted =>
    cases planned
    have checks := checked_eq_some inserted
    exact .createGroup checks.1.1 checks.2

theorem planAddMembers_eq_ok (planned : planAddMembers m a gid userIDs addedAt = .ok res) :
    refuseAddMembers m.toTables a gid (dedupe [] userIDs) = none
      ∧ ∃ next added, addEach gid addedAt (dedupe [] userIDs) m [] = .ok (next, added)
        ∧ res = .mirrorFirst next (added.map (Tuple.groupMembership gid)) [] := by
  grind [planAddMembers]

theorem planAddMembers_sound (planned : planAddMembers m a gid userIDs addedAt = .ok res) :
    Change m (.addMembers a gid userIDs addedAt) res := by
  obtain ⟨-, next, added, looped, rfl⟩ := planAddMembers_eq_ok planned
  obtain ⟨fresh, isAdded, rs, strangers, joined⟩ := addEach_eq_ok looped
  cases isAdded
  exact .addMembers strangers joined rs

theorem planRemoveMember_sound (planned : planRemoveMember m a gid uid = .ok res) :
    Change m (.removeMember a gid uid) res := by
  unfold planRemoveMember at planned
  have planned := (passes_check planned).2
  split at planned
  case h_1 => cases planned
  case h_2 =>
    split at planned
    case isTrue stranger =>
      cases planned
      exact .removeStranger (by simpa using stranger)
    case isFalse isMem =>
      cases planned
      exact .removeMember (by simpa using isMem)

theorem planSetRoles_eq_ok (planned : planSetRoles m a gid rids = .ok res) :
    a.admin = true ∧ ¬groupBatchMax < (dedupe [] rids).length
      ∧ ∃ group want next, m.group gid = some group
        ∧ m.rolesByID (dedupe [] rids) = some want ∧ containsSlug want "owner" = false
        ∧ refuseRetired (missing Role.id (m.rolesOfGroup gid) want) = false
        ∧ a.mayGrant (grantsOf m.toTables (missing Role.id (m.rolesOfGroup gid) want)) = true
        ∧ m.replaceGroupRoles gid (want.map Role.id) = some next
        ∧ res = .mirrorFirst next ((missing Role.id (m.rolesOfGroup gid) want).flatMap
              (groupRoleTuples gid))
            ((missing Role.id want (m.rolesOfGroup gid)).flatMap (groupRoleTuples gid)) := by
  unfold planSetRoles at planned
  have admin := passes_check planned
  have planned := admin.2
  split at planned
  case h_1 => cases planned
  case h_2 group isGroup =>
    grind

theorem planSetRoles_sound (planned : planSetRoles m a gid rids = .ok res) :
    Change m (.setRoles a gid rids) res := by
  obtain ⟨-, -, group, want, next, -, found, -, -, -, replaced, rfl⟩ := planSetRoles_eq_ok planned
  exact .setRoles (Tables.rolesByID_eq_some found).2 (checked_eq_some replaced).2

theorem planDeleteGroup_sound {memberCount : Nat}
    (planned : planDeleteGroup m a gid memberCount = .ok res) :
    Change m (.deleteGroup a gid memberCount) res := by
  unfold planDeleteGroup at planned
  have planned := (passes_check planned).2
  split at planned
  case h_1 => cases planned
  case h_2 =>
    have planned := (passes_check planned).2
    split at planned
    case h_1 => cases planned
    case h_2 next deleted =>
      cases planned
      exact .deleteGroup drainMembers_ofGroup (checked_eq_some deleted).2

variable {invited : Invited} {nid : UserID}

theorem acceptAccount_sound {opened : Mirror}
    (done : acceptAccount m invited nid = .ok (opened, uid)) :
    Opened m nid opened uid := by
  unfold acceptAccount at done
  split at done
  case h_1 =>
    split at done
    case h_1 => cases done
    case h_2 next inserted =>
      cases done
      have checks := checked_eq_some inserted
      exact .inserted checks.1 checks.2
  case h_2 u found =>
    split at done
    case h_1 status =>
      cases done
      exact .activated (List.mem_of_find?_eq_some found) status
    case h_2 => cases done

theorem planAccept_eq_ok {addedAt : Int} (planned : planAccept m invited nid addedAt = .ok res) :
    ∃ opened uid all bound next joined, acceptAccount m invited nid = .ok (opened, uid)
      ∧ opened.rolesByID invited.roleIDs = some all
      ∧ opened.replaceBindings uid ((all.filter fun r => !r.retired).map Role.id) = some bound
      ∧ joinGroups uid addedAt invited.groupIDs bound = some (next, joined)
      ∧ res = .mirrorFirst next (.membership .member uid
            :: joined.map (fun gid => .groupMembership gid uid)
            ++ (all.filter fun r => !r.retired).flatMap (assignmentTuples uid)) [] := by
  unfold planAccept at planned
  grind

theorem planAccept_sound {addedAt : Int} (planned : planAccept m invited nid addedAt = .ok res) :
    Change m (.accept invited nid addedAt) res := by
  obtain ⟨opened, uid, all, bound, next, joined, acc, found, replaced, entered, rfl⟩ :=
    planAccept_eq_ok planned
  obtain ⟨rs, tb, ofUser, members⟩ := joinGroups_eq_some entered
  rw [(checked_eq_some replaced).2] at tb
  refine .accept (acceptAccount_sound acc) ?_ tb ofUser members
  intro r kept
  exact (Tables.rolesByID_eq_some found).2 r (List.mem_of_mem_filter kept)

theorem plan_sound {c : Call} (planned : plan m c = .ok res) : Change m c res := by
  cases c with
  | assignRoles => exact planAssignRoles_sound planned
  | createRole => exact planCreateRole_sound rfl planned
  | cloneRole => exact planCloneRole_sound planned
  | updateRole => exact planUpdateRole_sound planned
  | removeRole => exact planRemoveRole_sound planned
  | createGroup => exact planCreateGroup_sound planned
  | addMembers => exact planAddMembers_sound planned
  | removeMember => exact planRemoveMember_sound planned
  | setRoles => exact planSetRoles_sound planned
  | deleteGroup => exact planDeleteGroup_sound planned
  | accept => exact planAccept_sound planned

end TangraAuth.Authz

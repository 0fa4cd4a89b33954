import Mathlib.Data.Finset.Card
import TangraAuth.Authz.Calls

/-!
Contract: the protection of the last owner. `AssignRoles` and `Deactivate` count the active
holders of the owner role and refuse when at most one is left, whatever the target's status.

Owns: `isLastOwner` and `deactivate` over the tables of a tenant, and when the two refusals
meet exactly the last active owner.

Does not own: the revocation of sessions and the audit events.
-/

namespace TangraAuth.Authz

open Library Store Accounts

inductive DeactivateError where
  | notFound
  | invalidState
  | lastOwner
  deriving DecidableEq, Repr

/-- The target's roles include those of groups; the count is of direct holders. -/
def isLastOwner (tb : Tables) (uid : UserID) : Bool :=
  containsSlug (tb.effectiveRoles uid) "owner" && decide (tb.countWithRole "owner" ≤ 1)

def deactivate (m : Mirror) (uid : UserID) : Except DeactivateError Mirror :=
  match m.users.find? fun u => u.id == uid with
  | none => .error .notFound
  | some u =>
    if u.status = .imported then .error .invalidState
    else if isLastOwner m.toTables uid then .error .lastOwner
    else if u.status = .deactivated then .ok m
    else .ok (m.updateUserStatus uid .deactivated)

/-! ### The last owner -/

section LastOwner

variable (m : Mirror) (uid : UserID)

/-- Bound to the owner role, whatever the status. -/
def OwnerBound : Prop := "owner" ∈ m.userRoleSlugs uid

/-- Holds the owner role, directly or through a group. -/
def ActsAsOwner : Prop := ∃ r ∈ m.effectiveRoles uid, r.slug = "owner"

def HasStatus (status : UserStatus) : Prop :=
  ∃ u ∈ m.users, u.id = uid ∧ u.status = status

structure LastOwner : Prop where
  bound : OwnerBound m uid
  active : HasStatus m uid .active
  alone : ∀ other, other ≠ uid → OwnerBound m other → ¬ HasStatus m other .active

end LastOwner

variable {m : Mirror} {uid : UserID}

theorem containsSlug_owner : containsSlug (m.userRoles uid) "owner" = true ↔ OwnerBound m uid := by
  simp only [containsSlug, List.any_eq_true, beq_iff_eq, Tables.userRoles, List.mem_filter,
    decide_eq_true_eq]
  constructor
  · rintro ⟨r, ⟨-, held⟩, s⟩
    rwa [s] at held
  · intro held
    obtain ⟨r, mem, -, s⟩ := Tables.mem_userRoleSlugs.mp held
    exact ⟨r, ⟨mem, s ▸ held⟩, s⟩

theorem OwnerBound.actsAsOwner (bound : OwnerBound m uid) : ActsAsOwner m uid := by
  obtain ⟨r, mem, row, isOwner⟩ := Tables.mem_userRoleSlugs.mp bound
  exact ⟨r, Tables.mem_effectiveRoles.mpr ⟨mem, Or.inl row⟩, isOwner⟩

theorem ActsAsOwner.mem_users (acts : ActsAsOwner m uid) : uid ∈ m.users.map Account.id := by
  obtain ⟨r, held, -⟩ := acts
  rcases (Tables.mem_effectiveRoles.mp held).2 with row | ⟨mem, isMember, rfl, -⟩
  · exact (m.integrity.bindings _ row).1
  · exact (m.integrity.members _ isMember).2

theorem isLastOwner_iff : isLastOwner m.toTables uid = true ↔
    ActsAsOwner m uid ∧ m.countWithRole "owner" ≤ 1 := by
  simp [isLastOwner, containsSlug, ActsAsOwner]

theorem HasStatus.unique {left right : UserStatus} (one : HasStatus m uid left)
    (two : HasStatus m uid right) : left = right := by
  obtain ⟨u, mem, same, rfl⟩ := one
  obtain ⟨other, otherMem, otherSame, rfl⟩ := two
  rw [eq_of_uniqueKey m.integrity.users mem otherMem (same.trans otherSame.symm)]

/-- The rows counted: no user has two of them, since the slug is unique. -/
theorem countWithRole_le_one_iff (key : m.bindings.Nodup) : m.countWithRole "owner" ≤ 1 ↔
      ∀ left right, OwnerBound m left → HasStatus m left .active →
        OwnerBound m right → HasStatus m right .active → left = right := by
  rw [Tables.countWithRole, ← List.toFinset_card_of_nodup (key.filter _), Finset.card_le_one]
  simp only [List.mem_toFinset, List.mem_filter, Bool.and_eq_true, List.any_eq_true, beq_iff_eq]
  constructor
  · intro single left right leftBound leftActive rightBound rightActive
    obtain ⟨leftRole, leftMem, leftRow, leftSlug⟩ := Tables.mem_userRoleSlugs.mp leftBound
    obtain ⟨rightRole, rightMem, rightRow, rightSlug⟩ := Tables.mem_userRoleSlugs.mp rightBound
    have same := single (left, leftRole.id) ⟨leftRow, ⟨leftRole, leftMem, rfl, leftSlug⟩,
      leftActive⟩
      (right, rightRole.id) ⟨rightRow, ⟨rightRole, rightMem, rfl, rightSlug⟩, rightActive⟩
    exact congrArg Prod.fst same
  · rintro single ⟨left, leftID⟩ ⟨leftRow, ⟨leftRole, leftMem, rfl, leftSlug⟩, leftActive⟩
      ⟨right, rightID⟩ ⟨rightRow, ⟨rightRole, rightMem, rfl, rightSlug⟩, rightActive⟩
    have sameUser := single left right
      (Tables.mem_userRoleSlugs.mpr ⟨leftRole, leftMem, leftRow, leftSlug⟩) leftActive
      (Tables.mem_userRoleSlugs.mpr ⟨rightRole, rightMem, rightRow, rightSlug⟩) rightActive
    have sameRole := eq_of_uniqueKey m.integrity.slugs leftMem rightMem
      (leftSlug.trans rightSlug.symm)
    rw [sameUser, sameRole]

/-- For an active owner, the count is the question asked. -/
theorem lastOwner_iff (key : m.bindings.Nodup) : LastOwner m uid ↔
    OwnerBound m uid ∧ HasStatus m uid .active ∧ m.countWithRole "owner" ≤ 1 := by
  rw [countWithRole_le_one_iff key]
  constructor
  · rintro ⟨bound, active, alone⟩
    have only : ∀ other, OwnerBound m other → HasStatus m other .active →
        other = uid := fun other held present =>
      by_contra fun differs => alone other differs held present
    exact ⟨bound, active, fun left right leftBound leftActive rightBound rightActive =>
      (only left leftBound leftActive).trans (only right rightBound rightActive).symm⟩
  · rintro ⟨bound, active, single⟩
    exact ⟨bound, active, fun other differs held present =>
      differs (single other uid held present bound active)⟩

theorem planAssignRoles_lastOwner_iff {a : Actor} {rids : List RoleID} {want : List Role}
    (found : m.rolesByID (dedupe [] rids) = some want)
    (granted : mayAssign m.toTables a
      ((missing Role.id (m.userRoles uid) want).map Role.id) = .ok ())
    (dropped : containsSlug want "owner" = false) :
    planAssignRoles m a uid rids = .error (.lastOwner, m) ↔
      OwnerBound m uid ∧ m.countWithRole "owner" ≤ 1 := by
  unfold planAssignRoles
  simp only [found, granted]
  split_ifs with last
  all_goals simp only [dropped, Bool.not_false, Bool.and_true, Bool.and_eq_true,
    containsSlug_owner, decide_eq_true_eq] at last
  · exact iff_of_true rfl last
  · refine iff_of_false ?_ last
    split <;> simp

theorem deactivate_lastOwner_iff : deactivate m uid = .error .lastOwner ↔
    ActsAsOwner m uid ∧ ¬ HasStatus m uid .imported ∧ m.countWithRole "owner" ≤ 1 := by
  unfold deactivate
  cases found : m.users.find? fun u => u.id == uid with
  | none =>
    refine iff_of_false nofun ?_
    rintro ⟨acts, -⟩
    obtain ⟨u, mem, same⟩ := List.mem_map.mp acts.mem_users
    simp only [List.find?_eq_none, beq_iff_eq] at found
    exact found u mem same
  | some u =>
    have status : HasStatus m uid .imported ↔ u.status = .imported := by
      have named : u.id = uid := by simpa using List.find?_some found
      have own : HasStatus m uid u.status :=
        ⟨u, List.mem_of_find?_eq_some found, named, rfl⟩
      exact ⟨own.unique, fun imported => imported ▸ own⟩
    rw [status, ← and_left_comm, ← isLastOwner_iff]
    dsimp only
    split_ifs with imported last <;> simp [*]

/-- Removing the owner role, or deactivating, is refused exactly for the last active owner if the
target is active or two others are: an owner who is not active is refused beside a single one.
`Deactivate` also refuses one who is an owner through a group only. -/
theorem last_owner_refusals_exact_iff (m : Mirror) (key : m.bindings.Nodup) (uid : UserID) :
    (∀ (a : Actor) (rids : List RoleID) (want : List Role),
      m.rolesByID (dedupe [] rids) = some want →
      mayAssign m.toTables a ((missing Role.id (m.userRoles uid) want).map Role.id) = .ok () →
      containsSlug (m.userRoles uid) "owner" = true → containsSlug want "owner" = false →
      ((planAssignRoles m a uid rids = .error (.lastOwner, m) ↔ LastOwner m uid) ↔
        HasStatus m uid .active ∨ 2 ≤ m.countWithRole "owner")) ∧
    ((deactivate m uid = .error .lastOwner ↔ LastOwner m uid) ↔
      ¬ ActsAsOwner m uid ∨ HasStatus m uid .imported ∨
        (OwnerBound m uid ∧ HasStatus m uid .active) ∨ 2 ≤ m.countWithRole "owner") := by
  constructor
  · intro a rids want found granted held dropped
    have bound := containsSlug_owner.mp held
    rw [planAssignRoles_lastOwner_iff found granted dropped, lastOwner_iff key]
    grind
  · rw [deactivate_lastOwner_iff, lastOwner_iff key]
    have exclusive : ¬ (HasStatus m uid .imported ∧ HasStatus m uid .active) :=
      fun both => by cases both.1.unique both.2
    have acts : OwnerBound m uid → ActsAsOwner m uid := OwnerBound.actsAsOwner
    grind

/-- The active owner 1 and the deactivated owner 2. -/
def Sample.owners : Mirror where
  users := [⟨1, 1, .active⟩, ⟨2, 2, .deactivated⟩]
  roles := [⟨1, "owner", .builtin, false⟩]
  bindings := [(1, 1), (2, 1)]
  permissions := []
  groups := []
  members := []
  groupRoles := []
  catalogue := []
  integrity := by constructor <;> simp [UniqueKey]

theorem active_owner_is_last :
    deactivate Sample.owners 1 = .error .lastOwner ↔ LastOwner Sample.owners 1 :=
  (last_owner_refusals_exact_iff Sample.owners (by decide) 1).2.mpr
    (.inr (.inr (.inl ⟨(by decide : "owner" ∈ Sample.owners.userRoleSlugs 1),
      ⟨1, 1, .active⟩, by decide, rfl, rfl⟩)))

/-- An owner who is not active loses nothing, yet both calls are refused. -/
theorem inactive_owner_refused :
    planAssignRoles Sample.owners ⟨false, ["owner"], fun _ => true⟩ 2 []
        = .error (.lastOwner, Sample.owners) ∧
      deactivate Sample.owners 2 = .error .lastOwner ∧ ¬ LastOwner Sample.owners 2 := by
  refine ⟨rfl, rfl, fun last => ?_⟩
  exact last.alone 1 (by decide) (by decide : "owner" ∈ Sample.owners.userRoleSlugs 1)
    ⟨⟨1, 1, .active⟩, by decide, rfl, rfl⟩

end TangraAuth.Authz

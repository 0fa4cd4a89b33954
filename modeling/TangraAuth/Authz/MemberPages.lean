import TangraAuth.Authz.Calls
import TangraAuth.Library.Paging

/-!
Contract: which members the deletion of a group visits.

Owns: the members in the order of the query, and that the pages of the deletion list
each of them once exactly when no page ends between members of one instant.

Does not own: members that come or go while the pages are read.
-/

namespace TangraAuth.Authz

open Library Accounts

variable {tb : Tables} {gid : GroupID} {post : Option Int}

instance : IsTrans Member Member.before where
  trans first second third one two := by
    rcases one with earlier | ⟨sameTime, userBefore⟩
    · exact Or.inl (two.elim earlier.trans fun same => same.1 ▸ earlier)
    · rcases two with later | ⟨sameTime', userBefore'⟩
      · exact Or.inl (sameTime ▸ later)
      · exact Or.inr ⟨sameTime.trans sameTime', userBefore.trans userBefore'⟩

instance : Std.Total Member.before where
  total left right := by
    rcases lt_trichotomy left.addedAt right.addedAt with earlier | same | later
    · exact Or.inl (Or.inl earlier)
    · exact (le_total left.userID right.userID).imp (fun pre => Or.inr ⟨same, pre⟩)
        fun pre => Or.inr ⟨same.symm, pre⟩
    · exact Or.inr (Or.inl later)

theorem Member.eq_of_before {left right : Member} (sameGroup : left.groupID = right.groupID)
    (one : Member.before left right) (two : Member.before right left) : left = right := by
  have sameTime : left.addedAt = right.addedAt := by
    rcases one with earlier | ⟨same, -⟩
    · rcases two with later | ⟨same, -⟩ <;> omega
    · exact same
  have sameUser : left.userID = right.userID :=
    le_antisymm (one.resolve_left (by omega)).2 (two.resolve_left (by omega)).2
  cases left
  cases right
  cases sameGroup
  cases sameTime
  cases sameUser
  rfl

/-- The rows behind the cursor, in the order of the query. -/
def Tables.orderedMembers (tb : Tables) (gid : GroupID) (post : Option Int) : List Member :=
  (tb.membersAfter gid post).insertionSort Member.before

theorem orderedMembers_perm : (tb.orderedMembers gid post).Perm (tb.membersAfter gid post) :=
  List.perm_insertionSort Member.before _

theorem orderedMembers_sorted :
    (tb.orderedMembers gid post).Pairwise fun first second =>
      first.addedAt ≤ second.addedAt := by
  refine (List.pairwise_insertionSort Member.before _).imp fun pre => ?_
  unfold Member.before at pre
  omega

theorem membersAfter_some {last : Member} (listed : last ∈ tb.membersAfter gid post) :
    tb.membersAfter gid (some last.addedAt)
      = (tb.membersAfter gid post).filter fun mem =>
          decide (last.addedAt < mem.addedAt) := by
  obtain ⟨-, sel⟩ := List.mem_filter.mp listed
  simp only [Bool.and_eq_true, beq_iff_eq] at sel
  unfold Tables.membersAfter
  rw [List.filter_filter]
  refine List.filter_congr fun mem _ => ?_
  cases post with
  | none => simp [Bool.and_comm]
  | some cursor =>
    have past : cursor < last.addedAt := by simpa using sel.2
    by_cases later : last.addedAt < mem.addedAt
    · have : cursor < mem.addedAt := by omega
      simp [later, this]
    · simp [later]

/-- Moving the cursor filters the order: it is that of `(added_at, user_id)`, and the members
of one group that agree in both are equal. -/
theorem orderedMembers_some {last : Member} (listed : last ∈ tb.membersAfter gid post) :
    tb.orderedMembers gid (some last.addedAt)
      = (tb.orderedMembers gid post).filter fun mem =>
          decide (last.addedAt < mem.addedAt) := by
  refine List.Perm.eq_of_pairwise (fun left right leftMem rightMem one two => ?_)
    (List.pairwise_insertionSort Member.before _)
    ((List.pairwise_insertionSort Member.before _).filter _) ?_
  · have leftGroup := (List.mem_filter.mp (orderedMembers_perm.mem_iff.mp leftMem)).2
    have rightGroup := (List.mem_filter.mp
      (orderedMembers_perm.mem_iff.mp (List.mem_of_mem_filter rightMem))).2
    simp only [Bool.and_eq_true, beq_iff_eq] at leftGroup rightGroup
    exact Member.eq_of_before (leftGroup.1.trans rightGroup.1.symm) one two
  · refine orderedMembers_perm.trans ?_
    rw [membersAfter_some listed]
    exact orderedMembers_perm.symm.filter _

/-- No page of the deletion ends between two members of one instant. -/
def WholePages (tb : Tables) (gid : GroupID) (post : Option Int) : Prop :=
  ∀ pages, WholeKeys Member.addedAt (pages * groupBatchMax) (tb.orderedMembers gid post)

theorem mem_drainMembers {mem : Member} (listed : mem ∈ drainMembers tb gid post) :
    mem ∈ tb.membersAfter gid post := by
  fun_induction drainMembers tb gid post with
  | case1 => cases listed
  | case2 => exact Tables.mem_listGroupMembers listed
  | case3 post last isLast page full ih =>
    rcases List.mem_append.mp listed with onPage | later
    · exact Tables.mem_listGroupMembers onPage
    · have lastListed := Tables.mem_listGroupMembers (List.mem_of_getLast? isLast)
      have mem := ih later
      rw [membersAfter_some lastListed] at mem
      exact List.mem_of_mem_filter mem

section Page

variable {last : Member}
  (isLast : (tb.listGroupMembers gid post groupBatchMax).getLast? = some last)

include isLast

theorem last_listed : last ∈ tb.membersAfter gid post :=
  Tables.mem_listGroupMembers (List.mem_of_getLast? isLast)

/-- Behind a whole page, the order goes on where the page ended. -/
theorem orderedMembers_behind
    (whole : WholeKeys Member.addedAt groupBatchMax (tb.orderedMembers gid post)) :
    tb.orderedMembers gid (some last.addedAt)
      = (tb.orderedMembers gid post).drop groupBatchMax := by
  rw [orderedMembers_some (last_listed isLast)]
  exact filter_lt_eq_drop orderedMembers_sorted isLast whole

theorem wholePages_behind
    (whole : WholeKeys Member.addedAt groupBatchMax (tb.orderedMembers gid post)) :
    WholePages tb gid post ↔ WholePages tb gid (some last.addedAt) := by
  unfold WholePages
  rw [orderedMembers_behind isLast whole]
  constructor
  · intro pages count
    have next := pages (count + 1)
    rw [Nat.succ_mul, Nat.add_comm] at next
    exact (wholeKeys_drop whole _).mp next
  · intro pages count
    cases count with
    | zero =>
      rw [Nat.zero_mul]
      exact fun first mem => absurd mem List.not_mem_nil
    | succ count =>
      rw [Nat.succ_mul, Nat.add_comm]
      exact (wholeKeys_drop whole _).mpr (pages count)

theorem wholeKeys_of_later (later : ∀ mem ∈ (tb.orderedMembers gid post).drop groupBatchMax,
      last.addedAt < mem.addedAt) :
    WholeKeys Member.addedAt groupBatchMax (tb.orderedMembers gid post) := by
  intro first onPage second behind same
  obtain ⟨earlier, isPage⟩ := List.getLast?_eq_some_iff.mp isLast
  have sorted := @orderedMembers_sorted tb gid post
  rw [← List.take_append_drop groupBatchMax (tb.orderedMembers gid post),
    List.pairwise_append] at sorted
  have upTo : first.addedAt ≤ last.addedAt := by
    have pageSorted := sorted.1
    change ((tb.listGroupMembers gid post groupBatchMax)).Pairwise _ at pageSorted
    change first ∈ tb.listGroupMembers gid post groupBatchMax at onPage
    rw [isPage] at onPage pageSorted
    rcases List.mem_append.mp onPage with pre | isFirst
    · exact (List.pairwise_append.mp pageSorted).2.2 first pre last List.mem_cons_self
    · rw [List.mem_singleton.mp isFirst]
  have := later second behind
  omega

end Page

/-- The pages list every row once exactly when they are whole. -/
theorem drainMembers_perm_iff : (drainMembers tb gid post).Perm (tb.membersAfter gid post) ↔
      WholePages tb gid post := by
  fun_induction drainMembers tb gid post with
  | case1 post empty =>
    have none : tb.orderedMembers gid post = [] := by
      have noPage : (tb.orderedMembers gid post).take groupBatchMax = [] :=
        List.getLast?_eq_none_iff.mp empty
      exact (List.take_eq_nil_iff.mp noPage).resolve_left (by decide)
    refine ⟨fun _ pages first mem => ?_, fun _ => none ▸ orderedMembers_perm⟩
    rw [none, List.take_nil] at mem
    cases mem
  | case2 post last isLast page short =>
    have isPage : page = (tb.orderedMembers gid post).take groupBatchMax := rfl
    rw [isPage, List.length_take] at short
    have few : (tb.orderedMembers gid post).length < groupBatchMax := by omega
    refine ⟨fun _ pages first mem second behind => ?_, fun _ => ?_⟩
    · have noRow : (tb.orderedMembers gid post).drop (pages * groupBatchMax) = []
          ∨ pages = 0 := by
        rcases Nat.eq_zero_or_pos pages with zero | positive
        · exact Or.inr zero
        · exact Or.inl (List.drop_eq_nil_of_le
            (few.le.trans (Nat.le_mul_of_pos_left groupBatchMax positive)))
      rcases noRow with none | rfl
      · exact absurd (none ▸ behind) List.not_mem_nil
      · rw [Nat.zero_mul] at mem
        cases mem
    · rw [isPage, List.take_of_length_le few.le]
      exact orderedMembers_perm
  | case3 post last isLast page full ih =>
    -- the rest of the order is what the later pages are to list
    have split : (page ++ drainMembers tb gid (some last.addedAt)).Perm (tb.membersAfter gid post) ↔
        (drainMembers tb gid (some last.addedAt)).Perm
          ((tb.orderedMembers gid post).drop groupBatchMax) := by
      have whole : page ++ (tb.orderedMembers gid post).drop groupBatchMax
          = tb.orderedMembers gid post := List.take_append_drop groupBatchMax _
      have listed := @orderedMembers_perm tb gid post
      rw [← whole] at listed
      exact ⟨fun all => (List.perm_append_left_iff page).mp (all.trans listed.symm),
        fun rest => ((List.perm_append_left_iff page).mpr rest).trans listed⟩
    rw [split]
    constructor
    · intro listed
      have later : ∀ mem ∈ (tb.orderedMembers gid post).drop groupBatchMax,
          last.addedAt < mem.addedAt := by
        intro mem behind
        have drained := mem_drainMembers (listed.mem_iff.mpr behind)
        rw [membersAfter_some (last_listed isLast)] at drained
        simpa using (List.mem_filter.mp drained).2
      have whole := wholeKeys_of_later isLast later
      rw [wholePages_behind isLast whole, ← ih]
      rw [← orderedMembers_behind isLast whole] at listed
      exact listed.trans orderedMembers_perm
    · intro pages
      have whole := pages 1
      rw [Nat.one_mul] at whole
      rw [wholePages_behind isLast whole, ← ih] at pages
      rw [← orderedMembers_behind isLast whole]
      exact pages.trans orderedMembers_perm.symm

/-- A deletion visits each member once, and removes the tuple of each, exactly when its pages
are whole. -/
theorem deleteGroup_visits_members_iff (m : Mirror) (gid : GroupID) :
    ((drainMembers m.toTables gid none).Perm (m.membersAfter gid none)
      ∧ ∀ a memberCount next adds removes,
        planDeleteGroup m a gid memberCount = .ok (.mirrorFirst next adds removes) →
        ∀ mem ∈ m.membersAfter gid none, .groupMembership gid mem.userID ∈ removes) ↔
      WholePages m.toTables gid none := by
  rw [← drainMembers_perm_iff]
  refine ⟨And.left, fun visited => ⟨visited, ?_⟩⟩
  intro a memberCount next adds removes planned mem isMem
  cases found : m.group gid with
  | none =>
    simp only [planDeleteGroup, found] at planned
    split_ifs at planned
  | some group =>
    cases deleted : m.deleteGroup gid with
    | none =>
      simp only [planDeleteGroup, found, deleted] at planned
      split_ifs at planned
    | some kept =>
      simp only [planDeleteGroup, found, deleted] at planned
      split_ifs at planned
      cases planned
      exact List.mem_append_right _ (List.mem_map_of_mem (visited.mem_iff.mpr isMem))

namespace Sample

/-- A group whose 101 members were added at one instant. -/
def crowd : Mirror where
  users := (List.range 101).map fun u => ⟨u, u, .active⟩
  roles := []
  bindings := []
  permissions := []
  groups := [⟨1, "crowd"⟩]
  members := (List.range 101).map fun u => ⟨1, u, 0⟩
  groupRoles := []
  catalogue := []
  integrity :=
    { users := by
        simp only [UniqueKey, List.map_map]
        exact List.nodup_range.map fun _ _ same => same
      roles := List.nodup_nil
      slugs := List.nodup_nil
      bindings := by simp
      permissions := by simp
      members := by simp
      groupRoles := by simp }

end Sample

/-- The first page ends between members of one instant, and the last member is passed over. -/
theorem crowd_loses_member :
    ¬(drainMembers Sample.crowd.toTables 1 none).Perm (Sample.crowd.membersAfter 1 none) := by
  rw [drainMembers_perm_iff]
  intro pages
  have sameInstant : ∀ mem ∈ Sample.crowd.orderedMembers 1 none, mem.addedAt = 0 := by
    intro mem listed
    have stored := List.mem_of_mem_filter (orderedMembers_perm.mem_iff.mp listed)
    obtain ⟨u, -, rfl⟩ := List.mem_map.mp stored
    rfl
  have count : (Sample.crowd.orderedMembers 1 none).length = 101 := by
    rw [orderedMembers_perm.length_eq]
    decide
  obtain ⟨first, onPage⟩ := List.exists_mem_of_ne_nil
    ((Sample.crowd.orderedMembers 1 none).take (1 * groupBatchMax))
    (List.ne_nil_of_length_pos (by rw [List.length_take, count]; decide))
  obtain ⟨second, later⟩ := List.exists_mem_of_ne_nil
    ((Sample.crowd.orderedMembers 1 none).drop (1 * groupBatchMax))
    (List.ne_nil_of_length_pos (by rw [List.length_drop, count]; decide))
  refine pages 1 first onPage second later ?_
  rw [sameInstant first (List.mem_of_mem_take onPage),
    sameInstant second (List.mem_of_mem_drop later)]

end TangraAuth.Authz

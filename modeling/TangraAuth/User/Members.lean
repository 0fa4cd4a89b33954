import TangraAuth.Library.Paging
import TangraAuth.Store.Sessions
import Mathlib.Data.List.Sort

/-!
Contract: the pages in which the active members of a tenant are listed.

Owns: `ListMembers` down to its query, the walk that follows its cursor, and when the walk
lists each member once.

Does not own: who may list, and members that come or go between two pages.
-/

namespace TangraAuth.User

open Library Store

structure UserRow where
  id : UserID
  tenantID : TenantID
  active : Bool

/-- The table, with its primary key. -/
structure Users where
  rows : List UserRow
  keyed : (rows.map UserRow.id).Nodup

def Users.ActiveMember (users : Users) (tid : TenantID) (id : UserID) : Prop :=
  ∃ u ∈ users.rows, u.id = id ∧ u.tenantID = tid ∧ u.active = true

/-- The active members of the tenant in the order of the query. The text of a uuid orders as
the uuid does, so the cursor is an id here; none is the empty text. -/
def Users.active (users : Users) (tid : TenantID) : List UserID :=
  ((users.rows.filter fun u => u.tenantID == tid && u.active).map UserRow.id).insertionSort (· ≤ ·)

def listActiveMemberIDs (users : Users) (tid : TenantID) (post : Option UserID) (limit : Nat)
    (ids : List UserID) : List UserID :=
  if ids ≠ [] then ((users.active tid).filter (· ∈ ids)).take limit
  else ((users.active tid).filter fun id => post.all (· < id)).take limit

def membersMax : Nat := 1000

def pageLimit (limit : Int) : Nat :=
  if limit ≤ 0 ∨ membersMax < limit then membersMax else limit.toNat

def members (users : Users) (tid : TenantID) (post : Option UserID) (limit : Int)
    (ids : List UserID) : List UserID × Option UserID :=
  let ids := ids.take membersMax
  let out := listActiveMemberIDs users tid post (pageLimit limit) ids
  (out, if ids = [] ∧ out.length = pageLimit limit then out.getLast? else none)

/-- `none` is `InvalidArgument`. -/
def listMembers (users : Users) (tid : TenantID) (cursor : Option UserID) (limit : Int)
    (ids : List UserID) : Option (List UserID × Option UserID) :=
  if limit < 0 ∨ limit > membersMax ∨ ids.length > membersMax then none
  else some (members users tid cursor limit ids)

/-- The pages of a caller that follows the cursor until it is empty. -/
def followCursor (users : Users) (tid : TenantID) (limit : Int) (ids : List UserID) :
    Nat → Option UserID → Option (List UserID)
  | 0, _ => none
  | fuel + 1, cursor => do
    let (page, next) ← listMembers users tid cursor limit ids
    match next with
    | none => return page
    | some _ => return page ++ (← followCursor users tid limit ids fuel next)

variable {users : Users} {tid : TenantID}

theorem mem_active {id : UserID} : id ∈ users.active tid ↔ users.ActiveMember tid id := by
  simp [Users.active, Users.ActiveMember, List.mem_insertionSort, and_assoc, and_comm]

theorem active_sorted : (users.active tid).Pairwise (· < ·) := by
  have perm := List.perm_insertionSort (· ≤ ·)
    ((users.rows.filter fun u => u.tenantID == tid && u.active).map UserRow.id)
  have ne : (users.active tid).Nodup :=
    perm.nodup_iff.mpr (users.keyed.sublist (List.filter_sublist.map _))
  exact ((List.pairwise_insertionSort (· ≤ ·) _).and ne).imp fun both =>
    Nat.lt_of_le_of_ne both.1 both.2

/-- The active members behind the cursor. -/
def Users.past (users : Users) (tid : TenantID) (post : Option UserID) : List UserID :=
  (users.active tid).filter fun id => post.all (· < id)

/-- Behind the last member of a page is what the page left. -/
theorem past_getLast {post : Option UserID} {size : Nat} {last : UserID}
    (isLast : ((users.past tid post).take size).getLast? = some last) :
    users.past tid (some last) = (users.past tid post).drop size := by
  have sorted : (users.past tid post).Pairwise (· < ·) := active_sorted.sublist List.filter_sublist
  have onPage := List.mem_of_mem_take (List.mem_of_getLast? isLast)
  have whole : WholeKeys (fun id : UserID => (id : Int)) size (users.past tid post) := by
    intro first mem second later
    have split := sorted
    rw [← List.take_append_drop size (users.past tid post), List.pairwise_append] at split
    have less : first < second := split.2.2 first mem second later
    exact fun same => Nat.ne_of_lt less (Int.ofNat_inj.mp same)
  rw [← filter_lt_eq_drop (sorted.imp fun less => Int.ofNat_le.mpr (Nat.le_of_lt less)) isLast
    whole]
  rw [Users.past, List.mem_filter] at onPage
  rw [Users.past, Users.past, List.filter_filter]
  refine List.filter_congr fun id _ => ?_
  cases post with
  | none => simp
  | some cursor =>
    have passed : cursor < last := by simpa using onPage.2
    simpa using fun later => Nat.lt_trans passed later

variable {limit : Int}

theorem pageLimit_pos : 0 < pageLimit limit := by
  unfold pageLimit membersMax
  split_ifs <;> omega

/-- Without ids the walk lists what is behind the cursor. -/
theorem followCursor_past (inRange : 0 ≤ limit ∧ limit ≤ 1000) {fuel : Nat} {post : Option UserID}
    (enough : (users.past tid post).length < fuel) :
    followCursor users tid limit [] fuel post = some (users.past tid post) := by
  induction fuel generalizing post with
  | zero => omega
  | succ fuel ih =>
    have listed : listMembers users tid post limit []
        = some ((users.past tid post).take (pageLimit limit),
          if ((users.past tid post).take (pageLimit limit)).length = pageLimit limit then
            ((users.past tid post).take (pageLimit limit)).getLast? else none) := by
      simp [listMembers, members, listActiveMemberIDs, Users.past, membersMax, inRange]
    have positive := @pageLimit_pos limit
    rw [followCursor, listed]
    split_ifs with full
    · have filled : (users.past tid post).take (pageLimit limit) ≠ [] := by
        intro empty
        rw [empty] at full
        exact Nat.ne_of_lt positive full
      have isLast := List.getLast?_eq_getLast_of_ne_nil filled
      have left := past_getLast isLast
      rw [List.length_take] at full
      have rest := @ih (some _) (by rw [left, List.length_drop]; omega)
      simp [isLast, rest, left]
    · have all : (users.past tid post).take (pageLimit limit) = users.past tid post := by
        rw [List.length_take] at full
        exact List.take_of_length_le (by omega)
      simp [all]

/-- The walk ends, and lists the active members asked for once each unless there are more of
the given ids than a page holds. -/
theorem followCursor_complete_iff (users : Users) (tid : TenantID) (limit : Int) (ids : List UserID)
    (inRange : 0 ≤ limit ∧ limit ≤ 1000) (few : ids.length ≤ 1000) (fuel : Nat)
    (enough : (users.active tid).length < fuel) :
    ∃ out, followCursor users tid limit ids fuel none = some out
      ∧ ((out.Nodup ∧ ∀ id, id ∈ out ↔ users.ActiveMember tid id ∧ (ids = [] ∨ id ∈ ids))
        ↔ ids = [] ∨ ((users.active tid).filter (· ∈ ids)).length ≤ pageLimit limit) := by
  have ne : (users.active tid).Nodup := active_sorted.imp fun less => Nat.ne_of_lt less
  by_cases unfiltered : ids = []
  · subst unfiltered
    have all : users.past tid none = users.active tid := by simp [Users.past]
    refine ⟨_, followCursor_past inRange (all ▸ enough), iff_of_true ?_ (Or.inl rfl)⟩
    simp [all, ne, mem_active]
  · obtain ⟨fuel, rfl⟩ := Nat.exists_eq_succ_of_ne_zero (Nat.ne_of_gt (Nat.zero_lt_of_lt enough))
    refine ⟨((users.active tid).filter (· ∈ ids)).take (pageLimit limit), ?_, ?_⟩
    · have kept : ids.take 1000 = ids := List.take_of_length_le few
      have accepted : ¬ (limit < 0 ∨ 1000 < limit ∨ 1000 < ids.length) := by omega
      simp [followCursor, listMembers, members, listActiveMemberIDs, membersMax, kept, unfiltered,
        accepted]
    · have asked := ne.filter (· ∈ ids)
      simp only [unfiltered, false_or]
      constructor
      · rintro ⟨-, complete⟩
        have listed := List.subperm_of_subset asked fun id mem =>
          (complete id).mpr (by simpa [mem_active] using mem)
        exact Nat.le_trans listed.length_le (List.length_take_le _ _)
      · intro fits
        rw [List.take_of_length_le fits]
        exact ⟨asked, by simp [mem_active]⟩

def Sample.pair : Users := ⟨[⟨1, 1, true⟩, ⟨2, 1, true⟩], by decide⟩

theorem pages_of_one_complete : ∃ out, followCursor Sample.pair 1 1 [] 3 none = some out
    ∧ out.Nodup ∧ ∀ id, id ∈ out ↔ Sample.pair.ActiveMember 1 id := by
  obtain ⟨out, walked, complete⟩ :=
    followCursor_complete_iff Sample.pair 1 1 [] (by decide) (by decide) 3 (by decide)
  exact ⟨out, walked, by simpa using complete⟩

/-- Both ids are active, and the only page holds one of them. -/
theorem filtered_page_cut : Sample.pair.active 1 = [1, 2]
    ∧ ∀ fuel, followCursor Sample.pair 1 1 [1, 2] (fuel + 1) none = some [1] :=
  ⟨rfl, fun _ => rfl⟩

end TangraAuth.User

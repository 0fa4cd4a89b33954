import TangraAuth.Session.Concurrent

/-!
Contract: what one access of a `Resolve` call does, said once.

Owns: the view or row a call has in hand at each point, the ways it comes by it,
what the access writes, and what it leaves alone.

Does not own: what is known of the view in hand.
-/

namespace TangraAuth.Session.Concurrent

open Library Store

variable {H : Type}

/-- The view a call has in hand and may still cache. -/
def ResolvePoint.view : ResolvePoint H → Option View
  | .version v | .profile v | .stale v | .staleRoles v _ | .sessionMark v
  | .userMark v | .tenantMark v | .touch v | .putView v | .answered v => some v
  | _ => none

/-- The row a call has in hand. -/
def ResolvePoint.row : ResolvePoint H → Option (Store.Session H)
  | .tenant row | .roles row _ _ => some row
  | _ => none

/-- What a row and the views made from it have in common. -/
structure Carried where
  id : SessionID
  expiresAt : Int
  graceUntil : Option Int

def rowCarried (row : Store.Session H) : Carried := ⟨row.id, row.expiresAt, none⟩

def viewCarried (v : View) : Carried := ⟨v.id, v.expiresAt, v.graceUntil⟩

/-- The session of the row or view a call has in hand. -/
def ResolvePoint.carried (point : ResolvePoint H) : Option Carried :=
  (point.row.map rowCarried).or (point.view.map viewCarried)

/-- What a call has in hand, it may still cache. -/
def ResolvePoint.inHand : ResolvePoint H → Bool
  | .answered _ => false
  | point => point.carried.isSome

/-- The roles of the view were read and are not labelled yet. -/
def ResolvePoint.isUnlabelled : ResolvePoint H → Bool
  | .version _ => true
  | _ => false

/-- The roles of the view are being read or labelled with a version. -/
def ResolvePoint.isLoading : ResolvePoint H → Bool
  | .version _ | .staleRoles _ _ => true
  | _ => false

/-- Views of one session with the same expiry, roles, version and grace. -/
structure Alike (chg v : View) : Prop where
  id : chg.id = v.id
  expiresAt : chg.expiresAt = v.expiresAt
  tenantID : chg.tenantID = v.tenantID
  userID : chg.userID = v.userID
  roles : chg.roles = v.roles
  policyVersion : chg.policyVersion = v.policyVersion
  graceUntil : chg.graceUntil = v.graceUntil

theorem Alike.refl (v : View) : Alike v v := ⟨rfl, rfl, rfl, rfl, rfl, rfl, rfl⟩

theorem loadProfile_alike (fs : Faults) (sess : State H) (v : View) :
    Alike (sess.loadProfile fs v) v := by
  unfold State.loadProfile
  split_ifs
  · exact Alike.refl v
  · cases sess.users v.tenantID v.userID <;> exact ⟨rfl, rfl, rfl, rfl, rfl, rfl, rfl⟩

/-! ### Rows and secrets -/

/-- The secret of this hash was handed out for the session. -/
def Issued (ht : Secret → H) (sess : State H) (hash : H) (id : SessionID) : Prop :=
  ∃ sec, (sec, id) ∈ sess.issued ∧ ht sec = hash

theorem Issued.subset {ht : Secret → H} {sess later : State H} {hash : H} {id : SessionID}
    (issued : Issued ht sess hash id) (grows : sess.issued ⊆ later.issued) :
    Issued ht later hash id := by
  obtain ⟨sec, mem, isHash⟩ := issued
  exact ⟨sec, grows mem, isHash⟩

theorem issued_eq {ht : Secret → H} {sess : State H} (issuance : Issuance ht sess) {hash : H}
    {id other : SessionID} (one : Issued ht sess hash id) (two : Issued ht sess hash other) :
    id = other := by
  obtain ⟨sec, issued, rfl⟩ := one
  obtain ⟨otherSec, otherIssued, same⟩ := two
  exact issuance.issuedOnce _ issued _ otherIssued same.symm

/-- A row keeps its identity, and stays revoked. -/
structure RowKept (row kept : Store.Session H) : Prop extends SameIdentity kept row where
  revoked : row.revokedAt.isSome = true → kept.revokedAt.isSome = true

theorem RowKept.refl (row : Store.Session H) : RowKept row row :=
  ⟨SameIdentity.refl row, id⟩

/-- What an access of a `Resolve` call leaves as it is; a mark it sets lasts for the retention. -/
structure AccessFrame (sess next : State H) : Prop where
  now : next.now = sess.now
  roles : next.roles = sess.roles
  versions : next.versions = sess.versions
  issued : next.issued = sess.issued
  rows : ∃ change, next.sessions = sess.sessions.map change ∧ ∀ row, RowKept row (change row)
  marks : ∀ subj mark, sess.marks subj = some mark → next.marks subj = some mark
    ∨ ∃ date, next.marks subj = some ⟨date, some (sess.now + revocationRetention)⟩

theorem AccessFrame.same {sess next : State H} (now : next.now = sess.now)
    (roles : next.roles = sess.roles) (versions : next.versions = sess.versions)
    (issued : next.issued = sess.issued) (rows : next.sessions = sess.sessions)
    (marks : next.marks = sess.marks) : AccessFrame sess next :=
  ⟨now, roles, versions, issued, ⟨id, by rw [rows, List.map_id], RowKept.refl⟩,
    fun _ _ stored => Or.inl (marks ▸ stored)⟩

theorem AccessFrame.refl (sess : State H) : AccessFrame sess sess :=
  .same rfl rfl rfl rfl rfl rfl

theorem accessFrame_updateRows {sess : State H} (matching : Store.Session H → Bool)
    (change : Store.Session H → Store.Session H)
    (keeps : ∀ row, RowKept row (change row)) :
    AccessFrame sess
      { sess with sessions := updateWhere matching change sess.sessions } := by
  refine ⟨rfl, rfl, rfl, rfl, ⟨_, rfl, fun row => ?_⟩, fun _ _ stored => Or.inl stored⟩
  split_ifs
  · exact keeps row
  · exact RowKept.refl row

theorem accessFrame_setMark (sess : State H) (subj : Subject) (date : Int) :
    AccessFrame sess (sess.setMark subj date) := by
  refine { AccessFrame.refl sess with marks := fun other mark stored => ?_ }
  by_cases same : other = subj
  · subst same
    exact Or.inr ⟨date, setMark_marks_self sess other date⟩
  · exact Or.inl ((ExpiringMap.set_apply_of_ne _ _ same _ _).trans stored)

section Frame

variable {ht : Secret → H} {sess next : State H} (frame : AccessFrame sess next)

include frame

theorem AccessFrame.row_kept {row : Store.Session H} (mem : row ∈ sess.sessions) :
    ∃ kept ∈ next.sessions, RowKept row kept := by
  obtain ⟨change, isRows, keeps⟩ := frame.rows
  exact ⟨change row, isRows ▸ List.mem_map_of_mem mem, keeps row⟩

theorem AccessFrame.row_old {row : Store.Session H} (mem : row ∈ next.sessions) :
    ∃ old ∈ sess.sessions, RowKept old row := by
  obtain ⟨change, isRows, keeps⟩ := frame.rows
  rw [isRows] at mem
  obtain ⟨old, oldMem, rfl⟩ := List.mem_map.mp mem
  exact ⟨old, oldMem, keeps old⟩

theorem AccessFrame.issuance (issuance : Issuance ht sess) : Issuance ht next where
  ids := by
    obtain ⟨change, isRows, keeps⟩ := frame.rows
    rw [UniqueKey, isRows, List.map_map]
    exact (List.map_congr_left fun row _ => (keeps row).id) ▸ issuance.ids
  current row mem := by
    obtain ⟨old, oldMem, same⟩ := frame.row_old mem
    rw [same.secretHash, same.id, frame.issued]
    exact issuance.current old oldMem
  issuedOnce := by
    rw [frame.issued]
    exact issuance.issuedOnce

end Frame

variable [DecidableEq H]

/-- How a call comes by what it has in hand after an access. -/
inductive Hands (sess : State H) (hash : H) (now : Int) :
    ResolvePoint H → ResolvePoint H → Prop
  | nothing {point next : ResolvePoint H} (noView : next.view = none)
      (noRow : next.row = none) : Hands sess hash now point next
  | cached (v : View) (found : sess.getView hash = some v)
      (within : v.graceUntil.any (fun deadline => decide (deadline ≤ now)) = false) :
      Hands sess hash now .getView (.stale v)
  | stored (row : Store.Session H)
      (found : getSessionByHash sess.sessions hash = some row) (live : row.revokedAt = none) :
      Hands sess hash now .getByHash (.tenant row)
  | active (row : Store.Session H) (tn : Store.Tenant) (pol : Tenant.Policy) :
      Hands sess hash now (.tenant row) (.roles row tn pol)
  | loaded (row : Store.Session H) (tn : Store.Tenant) (pol : Tenant.Policy) :
      Hands sess hash now (.roles row tn pol) (.version (sess.rowView row tn pol))
  | labelled (v : View) :
      Hands sess hash now (.version v)
        (.profile { v with policyVersion := sess.versions v.tenantID })
  | outdated (v : View) :
      Hands sess hash now (.stale v) (.staleRoles v (sess.versions v.tenantID))
  | reloaded (v : View) (ver : Int) :
      Hands sess hash now (.staleRoles v ver) (.profile
          { v with
            roles := sess.roles v.tenantID v.userID, policyVersion := ver })
  | carried {point next : ResolvePoint H} (v chg : View)
      (isView : point.view = some v) (isChanged : next.view = some chg)
      (alike : Alike chg v) (wasLabelled : point.isUnlabelled = false)
      (settled : next.isLoading = false) : Hands sess hash now point next

/-- What an access does to the cached views: only the view in hand is ever cached, under the
hash of the call's secret. -/
inductive Caches (sess : State H) (hash : H) :
    ResolvePoint H → State H → Prop
  | same {point : ResolvePoint H} {next : State H} (views : next.views = sess.views) :
      Caches sess hash point next
  | evicted {point : ResolvePoint H} {next : State H}
      (views : next.views = sess.views.del hash) : Caches sess hash point next
  | put (v : View) : Caches sess hash (.putView v) (sess.putView hash v)

theorem Caches.stored {sess next : State H} {hash other : H} {point : ResolvePoint H}
    {e : Entry View} (caches : Caches sess hash point next)
    (stored : next.views other = some e) : sess.views other = some e
      ∨ (other = hash ∧ ∃ v, point = .putView v ∧ e.value = v) := by
  cases caches with
  | same views => exact Or.inl (views ▸ stored)
  | evicted views => exact Or.inl (ExpiringMap.del_apply_eq_some (views ▸ stored)).2
  | put v =>
    rcases putView_apply stored with ⟨isHash, rfl⟩ | kept
    · exact Or.inr ⟨isHash, v, rfl, rfl⟩
    · exact Or.inl kept

/-- What a call carries it has carried before, or found in the cache or the table. -/
theorem Hands.carried_cases {sess : State H} {hash : H} {now : Int} {point next : ResolvePoint H}
    {held : Carried} (hands : Hands sess hash now point next)
    (isHeld : next.carried = some held) : point.carried = some held
      ∨ (∃ v, sess.getView hash = some v ∧ held = viewCarried v
        ∧ ∀ deadline, v.graceUntil = some deadline → now < deadline)
      ∨ ∃ row ∈ sess.sessions, row.secretHash = hash ∧ row.revokedAt = none
        ∧ held = rowCarried row := by
  cases hands with
  | nothing noView noRow =>
    rw [ResolvePoint.carried, noView, noRow] at isHeld
    cases isHeld
  | cached v found within =>
    cases isHeld
    refine Or.inr (Or.inl ⟨v, found, rfl, fun deadline isGrace => ?_⟩)
    simpa [isGrace] using within
  | stored row found live =>
    cases isHeld
    obtain ⟨mem, isHash⟩ := getSessionByHash_eq_some found
    exact Or.inr (Or.inr ⟨row, mem, isHash, live, rfl⟩)
  | active | loaded | labelled | outdated | reloaded => exact Or.inl isHeld
  | carried v chg isView isChanged alike =>
    have noRow : ∀ {point : ResolvePoint H} {v : View}, point.view = some v →
        point.row = none := by
      intro point v isView
      cases point with
      | tenant | roles => cases isView
      | _ => rfl
    left
    rw [ResolvePoint.carried, noRow isChanged, isChanged] at isHeld
    rw [ResolvePoint.carried, noRow isView, isView, ← isHeld]
    simp [viewCarried, alike.id, alike.expiresAt, alike.graceUntil]

structure ResolveStep (ht : Secret → H) (sess : State H)
    (c : ResolveCall H) (next : State H) (point : ResolvePoint H) : Prop where
  frame : AccessFrame sess next
  hands : Hands sess (ht c.secret) c.now c.point point
  caches : Caches sess (ht c.secret) c.point next

variable {ht : Secret → H} {sess next : State H} {c : ResolveCall H}
  {point : ResolvePoint H}

theorem checkExpiry_hands {hash : H} {now : Int} {v chg : View}
    (isView : point.view = some v) (alike : Alike chg v)
    (wasLabelled : point.isUnlabelled = false) :
    Hands sess hash now point (checkExpiry now chg) := by
  unfold checkExpiry
  split_ifs
  · exact .nothing rfl rfl
  · exact .nothing rfl rfl
  · exact .carried v chg isView rfl alike wasLabelled rfl

theorem ResolveStep.read (hands : Hands sess (ht c.secret) c.now c.point point) :
    ResolveStep ht sess c sess point :=
  ⟨AccessFrame.refl sess, hands, .same rfl⟩

theorem ResolveStep.pass {v : View} (isView : c.point.view = some v)
    (isNext : point.view = some v) (wasLabelled : c.point.isUnlabelled = false)
    (settled : point.isLoading = false) : ResolveStep ht sess c sess point :=
  .read (.carried v v isView isNext (Alike.refl v) wasLabelled settled)

theorem resolveAct_step {failing : Bool}
    (acted : resolveAct ht sess failing c = some (next, point)) :
    ResolveStep ht sess c next point := by
  obtain ⟨sec, now, late, init⟩ := c
  cases init with
  | getView =>
    simp only [resolveAct] at acted
    split_ifs at acted
    · cases acted
      exact .read (.nothing rfl rfl)
    cases found : sess.getView (ht sec) with
    | none =>
      rw [found] at acted
      cases acted
      exact .read (.nothing rfl rfl)
    | some v =>
      simp only [found] at acted
      split_ifs at acted with past
      · cases acted
        exact .read (.nothing rfl rfl)
      · cases acted
        exact .read (.cached v found (Bool.eq_false_iff.mpr past))
  | getByHash =>
    simp only [resolveAct] at acted
    split_ifs at acted
    · cases acted
      exact .read (.nothing rfl rfl)
    cases found : getSessionByHash sess.sessions (ht sec) with
    | none =>
      rw [found] at acted
      cases acted
      exact .read (.nothing rfl rfl)
    | some row =>
      simp only [found] at acted
      split_ifs at acted with revoked
      · cases acted
        exact .read (.nothing rfl rfl)
      · cases acted
        exact .read (.stored row found (by simpa using revoked))
  | tenant row =>
    simp only [resolveAct] at acted
    split at acted
    · cases acted
      exact .read (.nothing rfl rfl)
    · cases acted
      exact .read (.active row _ _)
  | roles row tn pol =>
    simp only [resolveAct] at acted
    split_ifs at acted
    · cases acted
      exact .read (.nothing rfl rfl)
    · cases acted
      exact .read (.loaded row tn pol)
  | version v =>
    cases acted
    exact .read (.labelled v)
  | profile v =>
    cases acted
    exact .read (checkExpiry_hands rfl (loadProfile_alike _ sess v) rfl)
  | stale v =>
    simp only [resolveAct] at acted
    split_ifs at acted
    · cases acted
      exact .read (checkExpiry_hands rfl (Alike.refl v) rfl)
    · cases acted
      exact .read (.outdated v)
  | staleRoles v ver =>
    simp only [resolveAct] at acted
    split_ifs at acted
    · cases acted
      exact .read (checkExpiry_hands rfl (Alike.refl v) rfl)
    · cases acted
      exact .read (.reloaded v ver)
  | sessionMark v | userMark v =>
    simp only [resolveAct] at acted
    split_ifs at acted
    · cases acted
      exact .read (.nothing rfl rfl)
    · cases acted
      exact .pass rfl rfl rfl rfl
  | tenantMark v =>
    simp only [resolveAct] at acted
    split_ifs at acted
    · cases acted
      exact .read (.nothing rfl rfl)
    · cases acted
      exact .pass rfl rfl rfl rfl
    · cases acted
      exact .pass rfl rfl rfl rfl
  | touch v =>
    simp only [resolveAct] at acted
    split_ifs at acted
    · cases acted
      exact .pass rfl rfl rfl rfl
    · cases acted
      refine ⟨accessFrame_updateRows _ _ fun row => ?_, ?_, .same rfl⟩
      · exact ⟨sameIdentity_touch sess.now row, id⟩
      · exact .carried v _ rfl rfl ⟨rfl, rfl, rfl, rfl, rfl, rfl, rfl⟩ rfl rfl
  | putView v =>
    cases acted
    exact ⟨.same rfl rfl rfl rfl rfl rfl, .carried v v rfl rfl (Alike.refl v) rfl rfl, .put v⟩
  | evict | expireEvict v why =>
    cases acted
    exact ⟨.same rfl rfl rfl rfl rfl rfl, .nothing rfl rfl, .evicted rfl⟩
  | expireDate v why =>
    cases acted
    exact .read (.nothing rfl rfl)
  | expireRevoke v why date =>
    simp only [resolveAct] at acted
    split_ifs at acted
    · cases acted
      exact .read (.nothing rfl rfl)
    · cases acted
      refine ⟨accessFrame_updateRows _ _ fun row => ?_, .nothing rfl rfl, .same rfl⟩
      exact ⟨sameIdentity_revoke sess.now why row, fun _ => rfl⟩
  | expireInsert v why date =>
    simp only [resolveAct] at acted
    split_ifs at acted
    · cases acted
      exact .read (.nothing rfl rfl)
    · cases acted
      exact ⟨.same rfl rfl rfl rfl rfl rfl, .nothing rfl rfl, .same rfl⟩
  | expireMark v date =>
    cases acted
    exact ⟨accessFrame_setMark sess _ date, .nothing rfl rfl, .same rfl⟩
  | answered v => cases acted
  | refused failure => cases acted

end TangraAuth.Session.Concurrent

import TangraAuth.Session.Invariant

/-!
Contract: every operation of the session manager keeps the cache consistent with the rows.

Owns: the preservation lemmas of the revocations and of resolution, and the ways a
resolution can go.

Does not own: operations whose feed insertion fails after the rows were marked;
those leave revoked rows without a mark, and are excluded by hypothesis.
-/

namespace TangraAuth.Session

open Library Store

variable {H : Type} {ht : Secret → H} {life : TenantID → Int} {bound : Int}

/-! ### Revocations -/

variable {st : State H}

theorem Consistent.revokeWithMark (consistent : Consistent ht life bound st)
    (short : bound ≤ revocationRetention) (sel : Store.Session H → Bool) (subj : Subject)
    (tid : TenantID) (why : Reason)
    (covers : ∀ row ∈ st.sessions, sel row = true → ∀ v : View,
      row.id = v.id → row.tenantID = v.tenantID → row.userID = v.userID →
      v.createdAt ≤ st.now → Covers v st.now subj) :
    Consistent ht life bound (State.withMark
        { st with sessions := revokeWhere sel st.now why st.sessions }
        subj tid why) := by
  have marked : Sound ht life bound
      { st with sessions := revokeWhere sel st.now why st.sessions } :=
    consistent.toSound.updateRows _ (sameIdentity_revoke st.now why)
  refine { marked.withMark subj tid why with ended := ?_ }
  intro chg mem revoked
  obtain ⟨row, rowMem, same, pre | ⟨isSelected, -⟩⟩ := of_mem_revokeWhere mem revoked
  · exact (consistent.ended row rowMem pre).mono same.id same.expiresAt (le_refl _)
      (fun _ _ stored => stored)
      (fun _ held => Marked.withMark marked.toLedger held subj tid why)
  · intro hash e stored sameID
    right
    obtain ⟨⟨-, ⟨owner, ownerMem, id, ownerTenant, ownerUser, created, -⟩, -⟩, -⟩ :=
      consistent.views hash e stored
    -- Ids are unique, so the row the view was built from is the selected one.
    have isOwner : row = owner :=
      eq_of_uniqueKey consistent.ids rowMem ownerMem
        (same.id.symm.trans (sameID.symm.trans id.symm))
    subst isOwner
    have past : e.value.createdAt ≤ st.now := by
      rw [← created]
      exact consistent.created row rowMem
    exact marked.marked_withMark short stored
      (covers row rowMem isSelected e.value id ownerTenant ownerUser past)
      tid why

variable {fs : Faults}

theorem publish_writable (writable : fs.FeedWritable) (st : State H) (subj : Subject)
    (tid : TenantID) (why : Reason) :
    st.publish fs ⟨st.now, subj, tid, why⟩ = (st.withMark subj tid why, .ok ()) := by
  rcases publish_cases fs st subj tid why with ⟨refused, -⟩ | ⟨-, published⟩
  · rw [writable] at refused
    cases refused
  · exact published

section

variable (consistent : Consistent ht life bound st) (short : bound ≤ revocationRetention)
  (writable : fs.FeedWritable) (tid : TenantID)

include consistent short writable

theorem Consistent.revokeOne (id : SessionID) (why : Reason) :
    Consistent ht life bound (st.revokeOne fs tid id why).1 := by
  unfold State.revokeOne
  split_ifs with failed
  · exact consistent
  · rw [publish_writable writable]
    apply consistent.revokeWithMark short
    intro row _ isSelected v sameID _ _ _
    simp only [Bool.and_eq_true, beq_iff_eq] at isSelected
    exact isSelected.2.symm.trans sameID

theorem Consistent.revokeTenant (why : Reason) :
    Consistent ht life bound (st.revokeTenant fs tid why).1 := by
  unfold State.revokeTenant
  split_ifs with failed
  · exact consistent
  · rw [publish_writable writable]
    apply consistent.revokeWithMark short
    intro row _ isSelected v _ sameTenant _ past
    rw [beq_iff_eq] at isSelected
    exact ⟨isSelected.symm.trans sameTenant, past⟩

end

/-- While the loop over the listed sessions runs, the revoked rows not yet withdrawn are among
those still to be published. -/
def PartlyEnded (st : State H) (keepID : SessionID) (remaining : List (Store.Session H)) : Prop :=
  ∀ row ∈ st.sessions, row.revokedAt.isSome →
    Withdrawn st row ∨ (row.id ≠ keepID ∧ ∃ listed ∈ remaining, listed.id = row.id)

section Caching

variable [DecidableEq H]

/-- Publishing one listed session withdraws its row and keeps the others as they were. -/
theorem PartlyEnded.publish_head (sound : Sound ht life bound st)
    (short : bound ≤ revocationRetention) {keepID : SessionID} {head : Store.Session H}
    {rest : List (Store.Session H)} (partly : PartlyEnded st keepID (head :: rest))
    (tid : TenantID) (why : Reason) :
    PartlyEnded ((st.withMark (.session head.id) tid why).evictView head.secretHash)
      keepID rest := by
  intro row mem revoked
  have keeps : Withdrawn st row →
      Withdrawn ((st.withMark (.session head.id) tid why).evictView head.secretHash) row := by
    intro withdrawn
    exact withdrawn.mono rfl rfl (le_refl _) (fun _ _ stored => evictView_apply stored)
      (fun _ held => Marked.withMark sound.toLedger held _ tid why)
  rcases partly row mem revoked with withdrawn | ⟨notKept, listed, listedMember, sameID⟩
  · exact Or.inl (keeps withdrawn)
  · rcases List.mem_cons.mp listedMember with rfl | later
    · left
      intro hash e stored same
      right
      have covers : Covers e.value st.now (.session listed.id) :=
        sameID.trans same.symm
      exact sound.marked_withMark short (evictView_apply stored) covers tid why
    · exact Or.inr ⟨notKept, listed, later, sameID⟩

theorem publishOthers_consistent (short : bound ≤ revocationRetention)
    (writable : fs.FeedWritable) (tid : TenantID) (why : Reason) (keepID : SessionID)
    (listed : List (Store.Session H)) (st : State H)
    (sound : Sound ht life bound st) (partly : PartlyEnded st keepID listed) :
    Consistent ht life bound (State.publishOthers fs tid why keepID st listed).1 := by
  induction listed generalizing st with
  | nil =>
    refine { sound with ended := ?_ }
    grind [State.publishOthers, PartlyEnded]
  | cons head rest ih =>
    unfold State.publishOthers
    by_cases kept : head.id = keepID
    · rw [if_pos kept]
      grind [PartlyEnded]
    · rw [if_neg kept]
      rw [publish_writable writable]
      exact ih _ ((sound.withMark _ tid why).evictView _) (partly.publish_head sound short tid why)

section

variable (consistent : Consistent ht life bound st)

include consistent

omit [DecidableEq H] in
/-- Keeping one session: a row the statement marks is listed unless it is expired already. -/
theorem Consistent.partlyEnded_revokeUser (tid : TenantID) (uid : UserID) (why : Reason)
    (keepID : SessionID) :
    PartlyEnded
      { st with
        sessions :=
          revokeUserSessions st.sessions st.now tid uid why (some keepID) }
      keepID (listUserSessions st.sessions st.now tid uid) := by
  intro chg mem revoked
  obtain ⟨row, rowMem, same, pre | ⟨isSelected, unrevoked⟩⟩ :=
    of_mem_revokeWhere mem revoked
  · left
    exact (consistent.ended row rowMem pre).mono same.id same.expiresAt (le_refl _)
      (fun _ _ stored => stored) (fun _ marked => marked)
  · simp only [Bool.and_eq_true, beq_iff_eq, decide_eq_true_eq] at isSelected
    obtain ⟨⟨sameTenant, sameUser⟩, notKept⟩ := isSelected
    by_cases alive : st.now < row.expiresAt
    · right
      rw [same.id]
      refine ⟨fun kept => notKept (congrArg some kept), row, ?_, rfl⟩
      exact mem_listUserSessions.mpr ⟨rowMem, sameTenant, sameUser, unrevoked, alive⟩
    · left
      intro hash e _ _
      left
      rw [same.expiresAt]
      exact not_lt.mp alive

theorem Consistent.revokeUser (short : bound ≤ revocationRetention) (writable : fs.FeedWritable)
    (tid : TenantID) (uid : UserID) (why : Reason) (keepID : Option SessionID) :
    Consistent ht life bound (st.revokeUser fs tid uid why keepID).1 := by
  unfold State.revokeUser
  split_ifs with listing marking
  · exact consistent
  · exact consistent
  · cases keepID with
    | none =>
      dsimp only
      rw [publish_writable writable]
      apply consistent.revokeWithMark short
      intro row _ isSelected v _ _ sameUser past
      simp only [Bool.and_eq_true, beq_iff_eq] at isSelected
      exact ⟨isSelected.1.2.symm.trans sameUser, past⟩
    | some keep =>
      exact publishOthers_consistent short writable tid why keep _ _
        (consistent.toSound.updateRows _ (sameIdentity_revoke st.now why))
        (consistent.partlyEnded_revokeUser tid uid why keep)

theorem Consistent.revoke (short : bound ≤ revocationRetention) (writable : fs.FeedWritable)
    (tid : TenantID) (id : SessionID) (why : Reason) :
    Consistent ht life bound (st.revoke fs tid id why).1 := by
  grind [revokeOne, evictView, State.revoke]

/-! ### Resolution -/

theorem Consistent.expire (short : bound ≤ revocationRetention) (writable : fs.FeedWritable)
    (v : View) (hash : H) (why : Reason) :
    Consistent ht life bound (st.expire fs v hash why) :=
  (consistent.evictView hash).revokeOne short writable v.tenantID v.id why

end

/-- Two views of one session that differ at most in roles, profile and version. -/
structure SameSession (chg v : View) : Prop where
  id : chg.id = v.id
  tenantID : chg.tenantID = v.tenantID
  userID : chg.userID = v.userID
  createdAt : chg.createdAt = v.createdAt
  lastSeen : chg.lastSeen = v.lastSeen
  expiresAt : chg.expiresAt = v.expiresAt
  idle : chg.idle = v.idle
  renewedAt : chg.renewedAt = v.renewedAt
  graceUntil : chg.graceUntil = v.graceUntil

omit [DecidableEq H] in
theorem loadProfile_same (fs : Faults) (st : State H) (v : View) :
    SameSession (st.loadProfile fs v) v := by
  unfold State.loadProfile
  split_ifs
  · constructor <;> rfl
  · cases st.users v.tenantID v.userID <;> constructor <;> rfl

omit [DecidableEq H] in
theorem refreshIfStale_same (fs : Faults) (st : State H) (v : View) :
    SameSession (st.refreshIfStale fs v) v := by
  unfold State.refreshIfStale
  split_ifs
  · constructor <;> rfl
  · constructor <;> rfl
  · obtain ⟨id, tid, uid, createdAt, lastSeen, expiresAt, idle, renewedAt,
      graceUntil⟩ := loadProfile_same fs st
        { v with
          roles := st.roles v.tenantID v.userID
          policyVersion := st.versions v.tenantID }
    exact ⟨id, tid, uid, createdAt, lastSeen, expiresAt, idle, renewedAt, graceUntil⟩

variable {hash : H} {v : View}

omit [DecidableEq H] in
theorem ViewSound.of_same {chg : View} (same : SameSession chg v)
    (viewSound : ViewSound ht bound st hash v) :
    ViewSound ht bound st hash chg := by
  obtain ⟨issued, row, idle⟩ := viewSound
  refine ⟨?_, ?_, ?_⟩
  · rw [same.id]
    exact issued
  · rw [same.id, same.tenantID, same.userID, same.createdAt, same.expiresAt]
    exact row
  · rw [same.idle]
    exact idle

omit [DecidableEq H] in
theorem revoked_congr {chg : View} (same : SameSession chg v) : st.revoked chg = st.revoked v := by
  unfold State.revoked
  rw [same.id, same.userID, same.tenantID, same.createdAt]

omit [DecidableEq H] in
/-- A live mark that covers a view refuses it. -/
theorem revoked_of_mark {subj : Subject} {markedAt : Int}
    (read : st.marks.get st.now subj = some markedAt)
    (covers : Covers v markedAt subj) : st.revoked v = true := by
  unfold State.revoked
  cases subj with
  | session id =>
    cases covers
    simp [read]
  | user id | tenant id =>
    obtain ⟨rfl, dated⟩ := covers
    simp [read, dated]

variable {row : Store.Session H}

omit [DecidableEq H] in
/-- A cached view of a revoked session is refused for its expiry or by a mark. -/
theorem Consistent.cached_refused (consistent : Consistent ht life bound st)
    (cached : st.getView hash = some v) (mem : row ∈ st.sessions)
    (sameID : row.id = v.id) (wasRevoked : row.revokedAt.isSome) :
    v.expiresAt ≤ st.now ∨ st.revoked v = true := by
  obtain ⟨e, stored, alive, rfl⟩ := (ExpiringMap.get_eq_some_iff _ _ _ _).mp cached
  rcases consistent.ended row mem wasRevoked hash e stored sameID.symm
    with expired | ⟨subj, mark, ins, markStored, covers, exp, outlives⟩
  · left
    obtain ⟨⟨-, ⟨owner, ownerMem, id, -, -, -, within⟩, -⟩, -⟩ :=
      consistent.views hash e stored
    have isOwner : row = owner :=
      eq_of_uniqueKey consistent.ids mem ownerMem (sameID.trans id.symm)
    subst isOwner
    omega
  · right
    refine revoked_of_mark ?_ covers
    rw [ExpiringMap.get_eq_some_iff]
    refine ⟨mark, markStored, ?_, rfl⟩
    obtain ⟨-, deadline, markExpires, retained, -⟩ := consistent.marks subj mark markStored
    simp only [Entry.live, exp, decide_eq_true_eq] at alive
    simp only [Entry.live, markExpires, decide_eq_true_eq]
    omega

/-- Admitting a view of an unrevoked session, or one the checks refuse, keeps consistency. -/
theorem Consistent.admitView (consistent : Consistent ht life bound st)
    (short : bound ≤ revocationRetention) (writable : fs.FeedWritable)
    (viewSound : ViewSound ht bound st hash v)
    (live : ∀ row ∈ st.sessions, row.id = v.id → row.revokedAt.isSome →
      v.expiresAt ≤ st.now ∨ st.revoked v = true) :
    Consistent ht life bound (st.admitView fs hash v).1 := by
  unfold State.admitView
  split_ifs with expired idle revoked touching
  · exact consistent.expire short writable v hash .expired
  · exact consistent.expire short writable v hash .idleTimeout
  · exact consistent.evictView hash
  · simp_all
    apply (consistent.touch v.tenantID v.id).putView
    · obtain ⟨row, mem, id, tid, uid, createdAt, expiresAt⟩ := viewSound.row
      obtain ⟨chg, changedMem, same⟩ :=
        exists_mem_updateWhere_sameIdentity
          (fun row => row.tenantID == v.tenantID && row.id == v.id)
          (sameIdentity_touch st.now) mem
      refine ⟨viewSound.issued, ⟨chg, changedMem, ?_⟩, viewSound.idle⟩
      rw [same.id, same.tenantID, same.userID, same.createdAt, same.expiresAt]
      exact ⟨id, tid, uid, createdAt, expiresAt⟩
    grind [touchSession]
  · apply consistent.putView viewSound
    simp_all

/-! ### Resolving from the database -/

omit [DecidableEq H] in
theorem activePolicy_eq_ok {tid : TenantID} {tn : Store.Tenant} {pol : Tenant.Policy}
    (active : st.activePolicy fs tid = .ok (tn, pol)) :
    st.tenants tid = some tn ∧ tn.status = .active
      ∧ Tenant.parsePolicy tn.policy tn.kind = .ok pol := by
  grind [State.activePolicy]

omit [DecidableEq H] in
theorem viewOfRow_eq_ok (built : st.viewOfRow fs row = .ok v) :
    row.revokedAt = none ∧ ∃ tn pol, st.activePolicy fs row.tenantID = .ok (tn, pol)
        ∧ v.id = row.id ∧ v.tenantID = row.tenantID ∧ v.userID = row.userID
        ∧ v.createdAt = row.createdAt ∧ v.lastSeen = row.lastSeen
        ∧ v.expiresAt = row.expiresAt ∧ v.idle = pol.idleTimeout
        ∧ v.graceUntil = none := by
  unfold State.viewOfRow at built
  by_cases wasRevoked : row.revokedAt.isSome
  · rw [if_pos wasRevoked] at built
    cases built
  rw [if_neg wasRevoked] at built
  cases active : st.activePolicy fs row.tenantID with
  | error failure => simp [active] at built
  | ok found =>
    obtain ⟨tn, pol⟩ := found
    rw [active] at built
    dsimp only at built
    split_ifs at built
    cases built
    have same := loadProfile_same fs st (State.rowView st row tn pol)
    exact ⟨by simpa using wasRevoked, tn, pol, rfl, same.id, same.tenantID,
      same.userID, same.createdAt, same.lastSeen, same.expiresAt, same.idle,
      same.graceUntil⟩

omit [DecidableEq H] in
theorem Sound.viewOfRow (sound : Sound ht life bound st)
    (mem : row ∈ st.sessions) (built : st.viewOfRow fs row = .ok v) :
    ViewSound ht bound st row.secretHash v := by
  obtain ⟨-, tn, pol, active, id, tid, uid, createdAt, -, expiresAt, idle, -⟩ :=
    viewOfRow_eq_ok built
  obtain ⟨found, -, parsed⟩ := activePolicy_eq_ok active
  refine ⟨?_, ⟨row, mem, id.symm, tid.symm, uid.symm, createdAt.symm, le_of_eq expiresAt⟩, ?_⟩
  · rw [id]
    exact sound.current row mem
  · rw [idle, (Tenant.parsePolicy_eq_ok parsed).2.2]
    exact (sound.tenants row.tenantID tn found).2.1

/-! ### Resolving a secret -/

/-- Everything but rows, views, marks and feed. -/
structure SameFrame (next st : State H) : Prop where
  now : next.now = st.now
  tenants : next.tenants = st.tenants
  issued : next.issued = st.issued

omit [DecidableEq H] in
theorem revokeOne_frame (fs : Faults) (st : State H) (tid : TenantID)
    (id : SessionID) (why : Reason) :
    SameFrame (st.revokeOne fs tid id why).1 st := by
  unfold State.revokeOne State.publish
  split_ifs <;> exact ⟨rfl, rfl, rfl⟩

theorem expire_frame (fs : Faults) (st : State H) (v : View) (hash : H)
    (why : Reason) : SameFrame (st.expire fs v hash why) st := by
  obtain ⟨now, tns, issued⟩ :=
    revokeOne_frame fs (st.evictView hash) v.tenantID v.id why
  exact ⟨now, tns, issued⟩

theorem admitView_frame (fs : Faults) (st : State H) (hash : H) (v : View) :
    SameFrame (st.admitView fs hash v).1 st := by
  unfold State.admitView
  split_ifs
  · exact expire_frame fs st v hash .expired
  · exact expire_frame fs st v hash .idleTimeout
  · exact ⟨rfl, rfl, rfl⟩
  · exact ⟨rfl, rfl, rfl⟩
  · exact ⟨rfl, rfl, rfl⟩

theorem admitView_eq_ok {a : Actor} (admitted : (st.admitView fs hash v).2 = .ok a) :
    a = v.actor ∧ st.now < v.expiresAt ∧ st.now - v.lastSeen ≤ v.idle ∧ st.revoked v = false := by
  unfold State.admitView at admitted
  grind

/-- The two ways a resolution can go on to admitView a view: a cached one within its grace, or
one built from an unrevoked row. -/
theorem resolve_cases (fs : Faults) (st : State H) (sec : Secret) :
    (∃ failure, st.resolve ht fs sec = (st, .error failure))
      ∨ st.resolve ht fs sec = (st.evictView (ht sec), .error .noSession)
      ∨ (∃ v, st.getView (ht sec) = some v
          ∧ v.graceUntil.any (fun deadline => decide (deadline ≤ st.now)) = false
          ∧ st.resolve ht fs sec = st.admitView fs (ht sec) (st.refreshIfStale fs v))
      ∨ (∃ row v, st.getView (ht sec) = none ∧ getSessionByHash st.sessions (ht sec) = some row
          ∧ st.viewOfRow fs row = .ok v
          ∧ st.resolve ht fs sec = st.admitView fs (ht sec) v) := by
  unfold State.resolve
  by_cases empty : sec = []
  · left
    exact ⟨.noSession, if_pos empty⟩
  grind

theorem Consistent.resolve (consistent : Consistent ht life bound st)
    (short : bound ≤ revocationRetention) (writable : fs.FeedWritable) (sec : Secret) :
    Consistent ht life bound (st.resolve ht fs sec).1 := by
  rcases resolve_cases fs st sec with ⟨failure, out⟩ | out | ⟨v, cached, -, out⟩
      | ⟨row, v, -, found, built, out⟩
  · rw [out]
    exact consistent
  · rw [out]
    exact consistent.evictView _
  · rw [out]
    have same := refreshIfStale_same fs st v
    obtain ⟨e, stored, -, isView⟩ := (ExpiringMap.get_eq_some_iff _ _ _ _).mp cached
    have viewSound := (consistent.views (ht sec) e stored).1
    rw [isView] at viewSound
    apply consistent.admitView short writable (viewSound.of_same same)
    intro row mem sameID wasRevoked
    rw [same.expiresAt, revoked_congr same]
    exact consistent.cached_refused cached mem (sameID.trans same.id) wasRevoked
  · rw [out]
    obtain ⟨mem, sameHash⟩ := getSessionByHash_eq_some found
    rw [← sameHash]
    apply consistent.admitView short writable (consistent.viewOfRow mem built)
    intro other otherMem same wasRevoked
    obtain ⟨unrevoked, -, -, -, id, -⟩ := viewOfRow_eq_ok built
    have isRow : other = row :=
      eq_of_uniqueKey consistent.ids otherMem mem (same.trans id)
    rw [isRow, unrevoked] at wasRevoked
    cases wasRevoked

theorem resolve_frame (fs : Faults) (st : State H) (sec : Secret) :
    SameFrame (st.resolve ht fs sec).1 st := by
  rcases resolve_cases fs st sec with ⟨failure, out⟩ | out | ⟨v, -, -, out⟩ | ⟨row, v, -, -, -, out⟩
  · rw [out]
    exact ⟨rfl, rfl, rfl⟩
  · rw [out]
    exact ⟨rfl, rfl, rfl⟩
  · rw [out]
    exact admitView_frame fs st _ _
  · rw [out]
    exact admitView_frame fs st _ _

/-- The actor's session is one the presented secret was issued for. -/
theorem Sound.resolve_issued (sound : Sound ht life bound st) {sec : Secret}
    {a : Actor} (resolved : (st.resolve ht fs sec).2 = .ok a) :
    ∃ issuedSecret, (issuedSecret, a.sessionID) ∈ st.issued ∧ ht issuedSecret = ht sec := by
  rcases resolve_cases fs st sec with ⟨failure, out⟩ | out | ⟨v, cached, -, out⟩
      | ⟨row, v, -, found, built, out⟩
  · rw [out] at resolved
    cases resolved
  · rw [out] at resolved
    cases resolved
  · rw [out] at resolved
    obtain ⟨rfl, -⟩ := admitView_eq_ok resolved
    obtain ⟨e, stored, -, rfl⟩ := (ExpiringMap.get_eq_some_iff _ _ _ _).mp cached
    have issued := (sound.views _ e stored).1.issued
    rw [← (refreshIfStale_same fs st e.value).id] at issued
    exact issued
  · rw [out] at resolved
    obtain ⟨rfl, -⟩ := admitView_eq_ok resolved
    obtain ⟨mem, sameHash⟩ := getSessionByHash_eq_some found
    have issued := (sound.viewOfRow mem built).issued
    rw [sameHash] at issued
    exact issued

end Caching

end TangraAuth.Session

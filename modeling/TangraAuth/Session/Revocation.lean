import TangraAuth.Session.Runs

/-!
Contract: a revoked session does not resolve again.

Owns: that each revocation that succeeds marks the rows it covers, that a marked
row of a consistent state resolves under no secret issued for it, and the exact
policies for which this holds in every run.

Does not own: operations that interleave.
-/

namespace TangraAuth.Session

open Library Store

variable {H : Type}

theorem publish_sessions (fs : Faults) (st : State H) (revocation : Revocation) :
    (st.publish fs revocation).1.sessions = st.sessions := by
  unfold State.publish
  split_ifs <;> rfl

variable [DecidableEq H]

theorem publishOthers_sessions (fs : Faults) (tid : TenantID) (why : Reason)
    (keepID : SessionID) (listed : List (Store.Session H)) (st : State H) :
    (State.publishOthers fs tid why keepID st listed).1.sessions = st.sessions := by
  induction listed generalizing st with
  | nil => rfl
  | cons head rest ih =>
    unfold State.publishOthers
    grind [State.publish, State.evictView]

/-! ### Revocations mark the rows they cover -/

def RowRevoked (st : State H) (id : SessionID) : Prop :=
  ∃ row ∈ st.sessions, row.id = id ∧ row.revokedAt.isSome

variable {st : State H} {id : SessionID}

omit [DecidableEq H] in
theorem RowRevoked.persists {later : State H} (revoked : RowRevoked st id)
    (persists : Persists st.sessions later.sessions) : RowRevoked later id := by
  grind [RowRevoked, Persists]

variable {row : Store.Session H}

omit [DecidableEq H] in
theorem exists_revoked_of_selected (sel : Store.Session H → Bool) (now : Int)
    (why : Reason) {rs : List (Store.Session H)} (mem : row ∈ rs)
    (isSelected : sel row = true) :
    ∃ chg ∈ revokeWhere sel now why rs, chg.id = row.id ∧ chg.revokedAt.isSome := by
  refine ⟨_, mem_updateWhere.mpr ⟨row, mem, rfl⟩, ?_⟩
  cases held : row.revokedAt with
  | none => simp [isSelected]
  | some ins => simp [held]

variable {fs : Faults} {tid : TenantID} {why : Reason}

omit [DecidableEq H] in
theorem revokeOne_rowRevoked {next : State H} (mem : row ∈ st.sessions)
    (sameTenant : row.tenantID = tid) (sameID : row.id = id)
    (out : st.revokeOne fs tid id why = (next, .ok ())) :
    RowRevoked next id := by
  unfold State.revokeOne at out
  split_ifs at out
  · cases out
  · obtain ⟨chg, changedMem, changedID, revoked⟩ :=
      exists_revoked_of_selected (fun row => row.tenantID == tid && row.id == id)
        st.now why mem (by simp [sameTenant, sameID])
    have sessions := publish_sessions fs
      { st with sessions := revokeSession st.sessions st.now tid id why }
      ⟨st.now, .session id, tid, why⟩
    rw [out] at sessions
    refine ⟨chg, ?_, changedID.trans sameID, revoked⟩
    rw [sessions]
    exact changedMem

theorem revokeUser_rowRevoked {uid : UserID} {keepID : Option SessionID}
    (mem : row ∈ st.sessions) (sameTenant : row.tenantID = tid)
    (sameUser : row.userID = uid) (notKept : keepID ≠ some row.id)
    (succeeded : (st.revokeUser fs tid uid why keepID).2 = .ok ()) :
    RowRevoked (st.revokeUser fs tid uid why keepID).1 row.id := by
  obtain ⟨chg, changedMem, changedID, revoked⟩ :=
    exists_revoked_of_selected (fun row => row.tenantID == tid && row.userID == uid
        && decide (some row.id ≠ keepID)) st.now why mem
      (by simp [sameTenant, sameUser, Ne.symm notKept])
  unfold State.revokeUser at succeeded ⊢
  split_ifs at succeeded with listing marking
  rw [if_neg listing, if_neg marking]
  refine ⟨chg, ?_, changedID, revoked⟩
  grind [publishOthers_sessions, revokeUserSessions, State.publish]

omit [DecidableEq H] in
theorem revokeTenant_rowRevoked (mem : row ∈ st.sessions) (sameTenant : row.tenantID = tid)
    (succeeded : (st.revokeTenant fs tid why).2 = .ok ()) :
    RowRevoked (st.revokeTenant fs tid why).1 row.id := by
  obtain ⟨chg, changedMem, changedID, revoked⟩ :=
    exists_revoked_of_selected (fun row => row.tenantID == tid) st.now why mem
      (by simp [sameTenant])
  unfold State.revokeTenant at succeeded ⊢
  split_ifs at succeeded with marking
  rw [if_neg marking]
  grind [RowRevoked, State.publish, revokeTenantSessions]

theorem rowRevoked_of_revokes {ht : Secret → H} {next : State H}
    {op : Operation} (revokes : Revokes st id op)
    (taken : step ht st op = some next) : RowRevoked next id := by
  cases op with
  | revoke fs tid target why =>
    obtain ⟨rfl, succeeded⟩ := revokes
    cases taken
    unfold State.revoke at succeeded ⊢
    split_ifs at succeeded with failed
    rw [if_neg failed]
    cases found : getSession st.sessions tid target with
    | none => simp [found] at succeeded
    | some row =>
      rw [found] at succeeded
      obtain ⟨mem, sameTenant, sameID⟩ := getSession_eq_some found
      rcases out : st.revokeOne fs tid target why with ⟨next, failure | ⟨⟩⟩
      · simp [out] at succeeded
      · obtain ⟨chg, changedMem, facts⟩ :=
          revokeOne_rowRevoked mem sameTenant sameID out
        exact ⟨chg, changedMem, facts⟩
  | revokeUser fs tid uid why keepID =>
    grind [revokeUser_rowRevoked, Revokes, step]
  | revokeTenant fs tid why =>
    grind [revokeTenant_rowRevoked, Revokes, step]
  | create _ _ _ _ _ _ _ | resolve _ _ | renew _ _ _ _ | byID _ _ _ | refreshUser _ _ _
  | directory _ _ _ _ | advance _ => exact revokes.elim

/-! ### A marked row resolves under none of its secrets -/

variable {ht : Secret → H} {life : TenantID → Int} {bound : Int}

variable {sec : Secret}

theorem Consistent.resolve_unrevoked (consistent : Consistent ht life bound st)
    {a : Actor} (resolved : (st.resolve ht fs sec).2 = .ok a) :
    ∃ row ∈ st.sessions, row.id = a.sessionID ∧ row.tenantID = a.tenantID
      ∧ row.userID = a.userID ∧ row.revokedAt = none := by
  rcases resolve_cases fs st sec with ⟨failure, out⟩ | out | ⟨v, cached, -, out⟩
      | ⟨row, v, -, found, built, out⟩
  · rw [out] at resolved
    cases resolved
  · rw [out] at resolved
    cases resolved
  · rw [out] at resolved
    obtain ⟨rfl, unexpired, -, unmarked⟩ := admitView_eq_ok resolved
    have same := refreshIfStale_same fs st v
    rw [same.expiresAt] at unexpired
    rw [revoked_congr same] at unmarked
    obtain ⟨e, stored, -, rfl⟩ := (ExpiringMap.get_eq_some_iff _ _ _ _).mp cached
    obtain ⟨row, mem, id, tid, uid, -, -⟩ := (consistent.views _ e stored).1.row
    refine ⟨row, mem, id.trans same.id.symm, tid.trans same.tenantID.symm,
      uid.trans same.userID.symm, ?_⟩
    by_contra wasRevoked
    rcases consistent.cached_refused cached mem id
      (Option.isSome_iff_ne_none.mpr wasRevoked) with expired | marked
    · omega
    · rw [marked] at unmarked
      cases unmarked
  · rw [out] at resolved
    obtain ⟨rfl, -⟩ := admitView_eq_ok resolved
    obtain ⟨unrevoked, -, -, -, id, tid, uid, -⟩ := viewOfRow_eq_ok built
    exact ⟨row, (getSessionByHash_eq_some found).1, id.symm, tid.symm, uid.symm, unrevoked⟩

theorem Consistent.revoked_never_resolves (consistent : Consistent ht life bound st)
    (revoked : RowRevoked st id) (issued : (sec, id) ∈ st.issued) (fs : Faults)
    (a : Actor) : (st.resolve ht fs sec).2 ≠ .ok a := by
  intro resolved
  obtain ⟨row, mem, rfl, wasRevoked⟩ := revoked
  obtain ⟨held, heldIssued, sameHash⟩ := consistent.toSound.resolve_issued resolved
  obtain ⟨live, liveMember, liveID, -, -, unrevoked⟩ := consistent.resolve_unrevoked resolved
  have sameID : row.id = a.sessionID :=
    consistent.issuedOnce (sec, row.id) issued (held, a.sessionID) heldIssued sameHash.symm
  have isRow : row = live :=
    eq_of_uniqueKey consistent.ids mem liveMember (sameID.trans liveID.symm)
  rw [isRow, unrevoked] at wasRevoked
  cases wasRevoked

/-! ### Every run -/

/-- Along every run of permitted operations: once a revocation that covers a session has
succeeded, no later resolution of a secret issued for it yields an actor. -/
def RevocationEnds (ht : Secret → H) (permitted : Operation → Prop) (init : State H) : Prop :=
  ∀ (pre post : List Operation) (revocation : Operation) (st marked fin : State H) (id : SessionID),
    (∀ op ∈ pre ++ revocation :: post, permitted op) →
    run (step ht) init pre = some st →
    Revokes st id revocation →
    step ht st revocation = some marked →
    run (step ht) marked post = some fin →
    ∀ (sec : Secret) (fs : Faults) (a : Actor), (sec, id) ∈ fin.issued →
      (fin.resolve ht fs sec).2 ≠ .ok a

/-- Where no view outlives a mark, a revocation ends its sessions for good. -/
theorem revocationEnds_of_short {init : State H} (short : bound ≤ revocationRetention)
    (consistent : Consistent ht life bound init) :
    RevocationEnds ht Operation.FeedWritable init := by
  intro pre post revocation st marked fin id permitted reaches revokes taken continues
    sec fs a issued
  have reached : run (step ht) init (pre ++ revocation :: post) = some fin := by
    rw [run_append_eq_some]
    exact ⟨st, reaches, run_cons_eq_some.mpr ⟨marked, taken, continues⟩⟩
  have finalConsistent := run_preserves (step_preserves_consistent short) consistent
    (everyStep_of_forall_mem permitted init) reached
  have revoked := (rowRevoked_of_revokes revokes taken).persists (run_persists continues)
  exact finalConsistent.revoked_never_resolves revoked issued fs a

/-! ### Where a view outlives the mark -/

/-- A cached view that `resolve` turns into an actor. -/
structure Usable (st : State H) (v : View) : Prop where
  inGrace : v.graceUntil.any (fun deadline => decide (deadline ≤ st.now)) = false
  unexpired : st.now < v.expiresAt
  active : st.now - v.lastSeen ≤ v.idle
  unmarked : st.revoked v = false

/-- For a secret with a cached view the database is not asked. -/
theorem resolve_cached_iff {v : View} (nonempty : sec ≠ [])
    (cached : st.getView (ht sec) = some v) (fs : Faults) :
    (∃ a, (st.resolve ht fs sec).2 = .ok a) ↔ Usable st v := by
  have same := refreshIfStale_same fs st v
  unfold State.resolve
  rw [if_neg nonempty, cached]
  dsimp only
  constructor
  · rintro ⟨a, resolved⟩
    split_ifs at resolved with pastGrace
    obtain ⟨-, unexpired, active, unmarked⟩ := admitView_eq_ok resolved
    rw [same.expiresAt] at unexpired
    rw [same.lastSeen, same.idle] at active
    rw [revoked_congr same] at unmarked
    exact ⟨by simpa using pastGrace, unexpired, active, unmarked⟩
  · intro usable
    rw [if_neg (by rw [usable.inGrace]; exact Bool.false_ne_true)]
    unfold State.admitView
    rw [same.expiresAt, same.lastSeen, same.idle, revoked_congr same,
      if_neg (not_le.mpr usable.unexpired), if_neg (not_lt.mpr usable.active),
      if_neg (by rw [usable.unmarked]; exact Bool.false_ne_true)]
    split_ifs
    · exact ⟨_, rfl⟩
    · exact ⟨_, rfl⟩

theorem viewTTL_eq_idle {now : Int} {v : View} (noGrace : v.graceUntil = none)
    (within : v.idle ≤ v.expiresAt - now) : State.viewTTL now v = v.idle := by
  unfold State.viewTTL
  rw [noGrace]
  exact if_neg (not_lt.mpr within)

theorem create_cached (ht : Secret → H) (st : State H)
    (params : State.CreateParams) (valid : params.policy.Valid) (id : SessionID)
    (sec : Secret) :
    ∃ v, SameSession v (State.newView st.now (st.versions params.tenantID) params id)
      ∧ (st.create ht noFaults params id sec).1.views (ht sec)
        = some ⟨v, some (st.now + params.policy.idleTimeout)⟩ := by
  have idle_le := valid.idle_le
  have idle_pos := valid.idle_pos
  unfold State.create
  simp only [noFaults_apply, Bool.false_eq_true, if_false]
  have same := loadProfile_same noFaults
    { st with
      sessions := st.sessions ++ [State.newRow ht st.now params id sec]
      issued := st.issued ++ [(sec, id)] }
    (State.newView st.now (st.versions params.tenantID) params id)
  revert same
  generalize State.loadProfile noFaults
    { st with
      sessions := st.sessions ++ [State.newRow ht st.now params id sec]
      issued := st.issued ++ [(sec, id)] }
    (State.newView st.now (st.versions params.tenantID) params id) = v
  intro same
  refine ⟨v, same, ?_⟩
  have ttl : State.viewTTL st.now v = params.policy.idleTimeout := by
    rw [viewTTL_eq_idle same.graceUntil, same.idle]
    · rfl
    · rw [same.idle, same.expiresAt]
      grind [State.newView]
  unfold State.putView
  simp_all

theorem not_revocationEnds_of_long (ht : Secret → H) (now : Int)
    (tns : TenantID → Option Store.Tenant) (roles : TenantID → UserID → List Slug)
    (users : TenantID → UserID → Option Profile) {tn : Store.Tenant}
    (found : tns tid = some tn) (valid : tn.policy.Valid)
    (long : revocationRetention < tn.policy.idleTimeout) :
    ¬ RevocationEnds ht Operation.FeedWritable (initial now tns roles users) := by
  intro ends
  obtain ⟨pol, parsed⟩ := Tenant.parsePolicy_of_valid valid tn.kind
  obtain ⟨policyValid, -, sameIdle⟩ := Tenant.parsePolicy_eq_ok parsed
  have retained := revocationRetention_pos
  have idle_le := policyValid.idle_le
  rw [← sameIdle] at long
  let params : State.CreateParams :=
    { tenantID := tid, userID := 0, roles := [], amr := []
      operator := decide (tn.kind = .platform), policy := pol }
  obtain ⟨v, same, cached⟩ :=
    create_cached ht (initial now tns roles users) params policyValid 0 [0]
  let created := ((initial now tns roles users).create ht noFaults params 0 [0]).1
  let marked := (created.revokeUser noFaults tid 0 .adminRevoked none).1
  let fin := { marked with now := marked.now + revocationRetention.toNat }
  have makes : step ht (initial now tns roles users)
      (.create noFaults tid 0 [] [] 0 [0]) = some created := by
    simp [step, State.freshID, State.freshSecret, State.createFor, initial, found, parsed]
    rfl
  have laterNow : fin.now = now + revocationRetention := by
    show now + (revocationRetention.toNat : Int) = now + revocationRetention
    rw [Int.toNat_of_nonneg (le_of_lt retained)]
  have finalView : fin.getView (ht [0]) = some v := by
    refine (ExpiringMap.get_eq_some_iff _ _ _ _).mpr ⟨_, cached, ?_, rfl⟩
    rw [laterNow]
    exact decide_eq_true (show now + revocationRetention < now + pol.idleTimeout by omega)
  have isMarks : fin.marks = (ExpiringMap.empty.set now (.user 0) now revocationRetention) :=
    rfl
  have unmarked : ∀ subj, fin.marks.get fin.now subj = none := by
    intro subj
    rw [isMarks, laterNow]
    by_cases isUser : subj = .user 0
    · subst isUser
      simp [ExpiringMap.get, Entry.live, retained]
    · rw [ExpiringMap.get_set_of_ne _ _ _ isUser]
      rfl
  have usable : Usable fin v := by
    refine ⟨?_, ?_, ?_, ?_⟩
    · rw [same.graceUntil]
      rfl
    · rw [same.expiresAt, laterNow]
      show now + revocationRetention < now + pol.sessionLifetime
      omega
    · rw [same.lastSeen, same.idle, laterNow]
      show now + revocationRetention - now ≤ pol.idleTimeout
      omega
    · simp [State.revoked, unmarked]
  obtain ⟨a, resolved⟩ :=
    (resolve_cached_iff (List.cons_ne_nil _ _) finalView noFaults).mpr usable
  refine ends [.create noFaults tid 0 [] [] 0 [0]] [.advance revocationRetention.toNat]
    (.revokeUser noFaults tid 0 .adminRevoked none) created marked fin 0 ?_ ?_ ?_ ?_ ?_
    [0] noFaults a ?_ resolved
  · intro op mem
    simp only [List.cons_append, List.nil_append, List.mem_cons, List.not_mem_nil, or_false] at mem
    rcases mem with rfl | rfl | rfl
    · exact fun _ => rfl
    · exact fun _ => rfl
    · trivial
  · exact run_cons_eq_some.mpr ⟨created, makes, rfl⟩
  · exact ⟨⟨State.newRow ht now params 0 [0], List.mem_singleton.mpr rfl, rfl, rfl, rfl⟩,
      Option.some_ne_none 0 |>.symm, rfl⟩
  · rfl
  · rfl
  · exact List.mem_singleton.mpr rfl

omit [DecidableEq H] in
/-- Accepted policies with a short idle time, each tenant with the lifetime of its own. -/
theorem tenantsSound_of_short {tns : TenantID → Option Store.Tenant}
    (accepted : ∀ tid tn, tns tid = some tn → tn.policy.validate = .ok ())
    (short : ∀ tid tn, tns tid = some tn → tn.policy.idleTimeout ≤ revocationRetention) :
    TenantsSound
      (fun tid => ((tns tid).map fun tn =>
        tn.policy.sessionLifetime).getD 0) revocationRetention tns := by
  intro tid tn found
  refine ⟨(Tenant.Policy.validate_eq_ok_iff _).mp (accepted tid tn found), short tid tn found, ?_⟩
  simp [found]


/-- In every run whose feed insertions succeed a revocation ends its sessions for good, exactly
when no tenant's idle timeout exceeds the retention of a mark. -/
theorem revocation_ends_iff_idle_le_retention (ht : Secret → H) (now : Int)
    (tns : TenantID → Option Store.Tenant) (roles : TenantID → UserID → List Slug)
    (users : TenantID → UserID → Option Profile)
    (accepted : ∀ tid tn, tns tid = some tn → tn.policy.validate = .ok ()) :
    RevocationEnds ht Operation.FeedWritable (initial now tns roles users) ↔
      ∀ tid tn, tns tid = some tn → tn.policy.idleTimeout ≤ revocationRetention := by
  constructor
  · intro ends tid tn found
    by_contra long
    exact not_revocationEnds_of_long ht now tns roles users found
      ((Tenant.Policy.validate_eq_ok_iff _).mp (accepted tid tn found))
      (not_le.mp long) ends
  · intro short
    exact revocationEnds_of_short (le_refl _)
      (consistent_initial now roles users (tenantsSound_of_short accepted short))

theorem revocation_ends_under_default_policy :
    RevocationEnds (fun sec : Secret => sec) Operation.FeedWritable
      (initial 0 (fun _ => some ⟨.customer, .active, Tenant.defaultPolicy⟩) (fun _ _ => [])
        (fun _ _ => none)) := by
  refine (revocation_ends_iff_idle_le_retention (fun sec => sec) 0
    (fun _ => some ⟨.customer, .active, Tenant.defaultPolicy⟩) (fun _ _ => []) (fun _ _ => none)
    ?_).mpr ?_
  · intro _ tn found
    cases found
    rfl
  · intro _ tn found
    cases found
    decide

/-- A policy the ranges allow, with views that outlive marks. -/
def twoHourIdle : Tenant.Policy := { Tenant.defaultPolicy with idleTimeout := 2 * hour }

/-- Create, revoke the user's sessions at once, wait for the mark to expire: the cached view
still resolves. -/
theorem revoked_session_resolves_after_retention : twoHourIdle.validate = .ok ()
      ∧ ¬ RevocationEnds (fun sec : Secret => sec) (fun _ => True)
        (initial 0 (fun _ => some ⟨.customer, .active, twoHourIdle⟩) (fun _ _ => [])
          (fun _ _ => none)) := by
  refine ⟨rfl, ?_⟩
  intro ends
  exact ends [.create noFaults 1 7 [] [] 5 [1]] [.advance 3600000000000]
    (.revokeUser noFaults 1 7 .adminRevoked none) _ _ _ 5 (fun _ _ => trivial) rfl
    ⟨⟨_, List.mem_singleton.mpr rfl, rfl, rfl, rfl⟩, by decide, rfl⟩ rfl rfl
    [1] noFaults _ (List.mem_singleton.mpr rfl) rfl

/-- Without the condition on the feed the default policy is no help: an insertion fails after
the row was marked, and a later call that keeps another session lists only unmarked rows. -/
theorem failed_insertion_hides_session : ¬ RevocationEnds (fun sec : Secret => sec) (fun _ => True)
      (initial 0 (fun _ => some ⟨.customer, .active, Tenant.defaultPolicy⟩) (fun _ _ => [])
        (fun _ _ => none)) := by
  intro ends
  exact ends [.create noFaults 1 7 [] [] 5 [1], .create noFaults 1 7 [] [] 6 [2],
      .revoke (fun c => c = .insertRevocation (.session 5)) 1 5 .signout]
    [] (.revokeUser noFaults 1 7 .passwordChanged (some 6)) _ _ _ 5 (fun _ _ => trivial) rfl
    ⟨⟨_, List.mem_cons_self, rfl, rfl, rfl⟩, by decide, rfl⟩ rfl rfl
    [1] noFaults _ List.mem_cons_self rfl

end TangraAuth.Session

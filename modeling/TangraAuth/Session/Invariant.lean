import TangraAuth.Session.System

/-!
Contract: what holds in every state the session manager reaches.

Owns: `Ledger`, the agreement of rows, issued secrets and marks; `Sound`, which
adds the cached views; `Consistent`, which adds that every view of a revoked
session is outlived by a mark that covers it; and the preservation of all three
by the parts every operation is composed of.

Does not own: the operations themselves.

`bound` limits every idle timeout, and so how long a view can stay cached.
`Consistent` is kept when `bound` is at most the retention of a mark.
-/

namespace TangraAuth.Session

open Library Store

variable {H : Type}

/-- The view stored under a hash is the projection of a row that was issued under it. -/
structure ViewSound (ht : Secret → H) (bound : Int) (st : State H) (hash : H)
    (v : View) : Prop where
  issued : ∃ sec, (sec, v.id) ∈ st.issued ∧ ht sec = hash
  row : ∃ row ∈ st.sessions, row.id = v.id ∧ row.tenantID = v.tenantID
    ∧ row.userID = v.userID ∧ row.createdAt = v.createdAt
    ∧ v.expiresAt ≤ row.expiresAt
  idle : v.idle ≤ bound

/-- The tenants a run may meet: valid policies of a fixed lifetime and a bounded idle time. -/
def TenantsSound (life : TenantID → Int) (bound : Int)
    (tns : TenantID → Option Store.Tenant) : Prop :=
  ∀ tid tn, tns tid = some tn → tn.policy.Valid ∧ tn.policy.idleTimeout ≤ bound
      ∧ tn.policy.sessionLifetime = life tid

/-- What the session table and the issued secrets say of each other: a session has one row, a
secret one session. -/
structure Issuance (ht : Secret → H) (st : State H) : Prop where
  ids : UniqueKey Store.Session.id st.sessions
  current : ∀ row ∈ st.sessions, ∃ sec, (sec, row.id) ∈ st.issued ∧ ht sec = row.secretHash
  issuedOnce : ∀ left ∈ st.issued, ∀ right ∈ st.issued, ht left.1 = ht right.1 → left.2 = right.2

/-- And what the marks say; it holds whatever the policies are and whichever calls fail. -/
structure Ledger (ht : Secret → H) (st : State H) : Prop extends Issuance ht st where
  nonempty : ∀ pair ∈ st.issued, pair.1 ≠ []
  marks : ∀ subj mark, st.marks subj = some mark →
    mark.value ≤ st.now ∧ ∃ ins, mark.expires = some ins ∧ mark.value + revocationRetention ≤ ins
      ∧ ins ≤ st.now + revocationRetention

structure Sound (ht : Secret → H) (life : TenantID → Int) (bound : Int)
    (st : State H) : Prop extends Ledger ht st where
  tenants : TenantsSound life bound st.tenants
  created : ∀ row ∈ st.sessions, row.createdAt ≤ st.now
  expiry : ∀ row ∈ st.sessions, row.expiresAt ≤ st.now + life row.tenantID
  views : ∀ hash e, st.views hash = some e → ViewSound ht bound st hash e.value
      ∧ ∃ ins, e.expires = some ins ∧ ins ≤ st.now + bound

/-- A mark on the subject, set at `markedAt`, ends the session of the view. -/
def Covers (v : View) (markedAt : Int) : Subject → Prop
  | .session id => id = v.id
  | .user id => id = v.userID ∧ v.createdAt ≤ markedAt
  | .tenant id => id = v.tenantID ∧ v.createdAt ≤ markedAt

/-- Some mark covers the view and lives at least as long as its entry. -/
def Marked (st : State H) (e : Entry View) : Prop :=
  ∃ subj mark ins, st.marks subj = some mark ∧ Covers e.value mark.value subj ∧ e.expires = some ins
    ∧ ins ≤ mark.value + revocationRetention

/-- No cached view of the row's session can be admitted any more. -/
def Withdrawn (st : State H) (row : Store.Session H) : Prop :=
  ∀ hash e, st.views hash = some e → e.value.id = row.id → row.expiresAt ≤ st.now ∨ Marked st e

structure Consistent (ht : Secret → H) (life : TenantID → Int) (bound : Int)
    (st : State H) : Prop extends Sound ht life bound st where
  ended : ∀ row ∈ st.sessions, row.revokedAt.isSome → Withdrawn st row

variable {ht : Secret → H} {life : TenantID → Int} {bound : Int}

variable (now : Int) (tns : TenantID → Option Store.Tenant)
   (roles : TenantID → UserID → List Slug) (users : TenantID → UserID → Option Profile)

theorem ledger_initial : Ledger ht (initial now tns roles users) where
  ids := by simp [initial, UniqueKey]
  current := by simp [initial]
  issuedOnce := by simp [initial]
  nonempty := by simp [initial]
  marks := by simp [initial]

theorem consistent_initial {tns : TenantID → Option Store.Tenant}
    (sound : TenantsSound life bound tns) :
    Consistent ht life bound (initial now tns roles users) where
  toLedger := ledger_initial now tns roles users
  tenants := sound
  created := by simp [initial]
  expiry := by simp [initial]
  views := by simp [initial]
  ended := by simp [initial]

variable {st : State H} {hash : H} {e : Entry View} {v : View}

section Views

variable [DecidableEq H]

/-! ### Evicting and caching a view -/

theorem evictView_apply {other : H} (stored : (st.evictView hash).views other = some e) :
    st.views other = some e :=
  (ExpiringMap.del_apply_eq_some stored).2

theorem Sound.evictView (sound : Sound ht life bound st) (hash : H) :
    Sound ht life bound (st.evictView hash) :=
  { sound with
    views := by
      intro other e stored
      obtain ⟨⟨issued, row, idle⟩, exp⟩ := sound.views other e (evictView_apply stored)
      exact ⟨⟨issued, row, idle⟩, exp⟩ }

theorem Consistent.evictView (consistent : Consistent ht life bound st) (hash : H) :
    Consistent ht life bound (st.evictView hash) :=
  { consistent.toSound.evictView hash with
    ended := by
      intro row mem revoked other e stored same
      exact consistent.ended row mem revoked other e (evictView_apply stored) same }

theorem viewTTL_le_idle (now : Int) (v : View) : State.viewTTL now v ≤ v.idle := by
  grind [State.viewTTL]

theorem putView_apply {other : H} (stored : (st.putView hash v).views other = some e) :
    (other = hash ∧ e = ⟨v, some (st.now + State.viewTTL st.now v)⟩) ∨ st.views other = some e := by
  unfold State.putView at stored
  grind

theorem Sound.putView (sound : Sound ht life bound st) (viewSound : ViewSound ht bound st hash v) :
    Sound ht life bound (st.putView hash v) :=
  { sound with
    views := by
      intro other e stored
      rcases putView_apply stored with ⟨rfl, rfl⟩ | kept
      · refine ⟨⟨viewSound.issued, viewSound.row, viewSound.idle⟩, _, rfl, ?_⟩
        have short := viewTTL_le_idle st.now v
        have bounded := viewSound.idle
        change st.now + _ ≤ st.now + _
        omega
      · obtain ⟨⟨issued, row, idle⟩, exp⟩ := sound.views other e kept
        exact ⟨⟨issued, row, idle⟩, exp⟩ }

/-- Caching is harmless while the session's row is not revoked. -/
theorem Consistent.putView (consistent : Consistent ht life bound st)
    (viewSound : ViewSound ht bound st hash v)
    (live : ∀ row ∈ st.sessions, row.id = v.id → row.revokedAt = none) :
    Consistent ht life bound (st.putView hash v) :=
  { consistent.toSound.putView viewSound with
    ended := by
      intro row mem revoked other e stored same
      rcases putView_apply stored with ⟨rfl, rfl⟩ | kept
      · rw [live row mem same.symm] at revoked
        cases revoked
      · exact consistent.ended row mem revoked other e kept same }

end Views

/-! ### Publishing a mark -/

theorem revocationRetention_pos : 0 < revocationRetention := by decide

/-- The state after a successful publication of a revocation dated now. -/
def State.withMark (st : State H) (subj : Subject) (tid : TenantID) (why : Reason) : State H :=
  { st with
    feed := st.feed ++ [⟨st.now, subj, tid, why⟩]
    marks := st.marks.set st.now subj st.now revocationRetention }

theorem publish_cases (fs : Faults) (st : State H) (subj : Subject)
    (tid : TenantID) (why : Reason) :
    (fs (.insertRevocation subj) = true
        ∧ st.publish fs ⟨st.now, subj, tid, why⟩ = (st, .error .store))
      ∨ (fs (.insertRevocation subj) = false ∧ st.publish fs ⟨st.now, subj, tid, why⟩
          = (st.withMark subj tid why, .ok ())) := by
  grind [State.publish, State.withMark]

theorem withMark_marks_self (st : State H) (subj : Subject) (tid : TenantID) (why : Reason) :
    (st.withMark subj tid why).marks subj = some ⟨st.now, some (st.now + revocationRetention)⟩ := by
  simp [State.withMark, revocationRetention_pos]

/-- A mark is set with the retention to live, whenever its revocation is dated. -/
def State.setMark (st : State H) (subj : Subject) (markedAt : Int) : State H :=
  { st with marks := st.marks.set st.now subj markedAt revocationRetention }

theorem setMark_marks_self (st : State H) (subj : Subject) (markedAt : Int) :
    (st.setMark subj markedAt).marks subj
      = some ⟨markedAt, some (st.now + revocationRetention)⟩ := by
  simp [State.setMark, revocationRetention_pos]

theorem Ledger.setMark (lg : Ledger ht st) (subj : Subject) {markedAt : Int}
    (dated : markedAt ≤ st.now) : Ledger ht (st.setMark subj markedAt) :=
  { lg with
    marks := by
      intro other mark stored
      rcases ExpiringMap.set_apply_eq_some stored with ⟨-, rfl⟩ | ⟨-, kept⟩
      · rw [if_pos revocationRetention_pos]
        grind [State.setMark]
      · exact lg.marks other mark kept }

theorem Ledger.withMark (lg : Ledger ht st) (subj : Subject) (tid : TenantID)
    (why : Reason) : Ledger ht (st.withMark subj tid why) :=
  { lg.setMark subj (le_refl st.now) with }

theorem Sound.withMark (sound : Sound ht life bound st) (subj : Subject)
    (tid : TenantID) (why : Reason) :
    Sound ht life bound (st.withMark subj tid why) :=
  { sound with
    toLedger := sound.toLedger.withMark subj tid why
    views := by
      intro hash e stored
      obtain ⟨⟨issued, row, idle⟩, exp⟩ := sound.views hash e stored
      exact ⟨⟨issued, row, idle⟩, exp⟩ }

variable {subj : Subject}

theorem Covers.mono {earlier later : Int} (order : earlier ≤ later)
    (covers : Covers v earlier subj) : Covers v later subj := by
  cases subj with
  | session id => exact covers
  | user id | tenant id => exact ⟨covers.1, le_trans covers.2 order⟩

/-- A new mark replaces at most an older one of the same subject. -/
theorem Marked.withMark (lg : Ledger ht st) (marked : Marked st e)
    (subj : Subject) (tid : TenantID) (why : Reason) :
    Marked (st.withMark subj tid why) e := by
  obtain ⟨held, mark, ins, stored, covers, exp, outlives⟩ := marked
  by_cases same : held = subj
  · subst same
    have dated := (lg.marks held mark stored).1
    refine ⟨held, _, ins, withMark_marks_self st held tid why, covers.mono dated, exp, ?_⟩
    show ins ≤ st.now + revocationRetention
    omega
  · refine ⟨held, mark, ins, ?_, covers, exp, outlives⟩
    rw [← stored]
    exact ExpiringMap.set_apply_of_ne _ _ same _ _

/-- A mark set now outlives every view it covers, when views are cached no longer than marks
are kept. -/
theorem Sound.marked_withMark (sound : Sound ht life bound st)
    (short : bound ≤ revocationRetention) (stored : st.views hash = some e)
    (covers : Covers e.value st.now subj) (tid : TenantID) (why : Reason) :
    Marked (st.withMark subj tid why) e := by
  obtain ⟨ins, exp, within⟩ := (sound.views hash e stored).2
  exact ⟨subj, _, ins, withMark_marks_self st subj tid why, covers, exp, by dsimp only; omega⟩

variable {chg : Store.Session H}

theorem Withdrawn.mono {later : State H} {row : Store.Session H}
    (withdrawn : Withdrawn st row) (sameID : chg.id = row.id)
    (sameExpiry : chg.expiresAt = row.expiresAt) (order : st.now ≤ later.now)
    (views : ∀ hash e, later.views hash = some e → st.views hash = some e)
    (marks : ∀ e, Marked st e → Marked later e) : Withdrawn later chg := by
  intro hash e stored same
  rcases withdrawn hash e (views hash e stored) (same.trans sameID) with expired | marked
  · left
    rw [sameExpiry]
    exact le_trans expired order
  · exact Or.inr (marks e marked)

/-! ### Statements on the rows -/

/-- Two versions of one row, of equal expiry. -/
structure SameIdentity (chg row : Store.Session H) : Prop where
  id : chg.id = row.id
  tenantID : chg.tenantID = row.tenantID
  userID : chg.userID = row.userID
  secretHash : chg.secretHash = row.secretHash
  createdAt : chg.createdAt = row.createdAt
  expiresAt : chg.expiresAt = row.expiresAt

theorem SameIdentity.refl (row : Store.Session H) : SameIdentity row row :=
  ⟨rfl, rfl, rfl, rfl, rfl, rfl⟩

variable {change : Store.Session H → Store.Session H} {rs : List (Store.Session H)}

theorem sameIdentity_of_mem_updateWhere {matching : Store.Session H → Bool}
    (keeps : ∀ row, SameIdentity (change row) row)
    (mem : chg ∈ updateWhere matching change rs) :
    ∃ row ∈ rs, SameIdentity chg row := by
  grind [SameIdentity.refl, updateWhere]

theorem exists_mem_updateWhere_sameIdentity (matching : Store.Session H → Bool)
    (keeps : ∀ row, SameIdentity (change row) row) {row : Store.Session H} (mem : row ∈ rs) :
    ∃ chg ∈ updateWhere matching change rs, SameIdentity chg row := by
  refine ⟨_, mem_updateWhere.mpr ⟨row, mem, rfl⟩, ?_⟩
  grind [SameIdentity.refl]

theorem Ledger.updateRows (lg : Ledger ht st) (matching : Store.Session H → Bool)
    (keeps : ∀ row, SameIdentity (change row) row) :
    Ledger ht { st with sessions := updateWhere matching change st.sessions } :=
  { lg with
    ids := uniqueKey_updateWhere (fun row => (keeps row).id) lg.ids
    current := by
      have current := lg.current
      grind [SameIdentity.id, SameIdentity.secretHash, updateWhere] }

theorem Sound.updateRows (sound : Sound ht life bound st)
    (matching : Store.Session H → Bool) (keeps : ∀ row, SameIdentity (change row) row) :
    Sound ht life bound
      { st with sessions := updateWhere matching change st.sessions } :=
  { sound with
    toLedger := sound.toLedger.updateRows matching keeps
    created := by
      intro chg mem
      obtain ⟨row, rowMem, same⟩ := sameIdentity_of_mem_updateWhere keeps mem
      rw [same.createdAt]
      exact sound.created row rowMem
    expiry := by
      intro chg mem
      obtain ⟨row, rowMem, same⟩ := sameIdentity_of_mem_updateWhere keeps mem
      rw [same.expiresAt, same.tenantID]
      exact sound.expiry row rowMem
    views := by
      intro hash e stored
      obtain ⟨⟨issued, ⟨row, mem, id, tid, uid, createdAt, expiresAt⟩, idle⟩,
        exp⟩ := sound.views hash e stored
      obtain ⟨chg, changedMem, same⟩ :=
        exists_mem_updateWhere_sameIdentity matching keeps mem
      refine ⟨⟨issued, ⟨chg, changedMem, ?_⟩, idle⟩, exp⟩
      rw [same.id, same.tenantID, same.userID, same.createdAt, same.expiresAt]
      exact ⟨id, tid, uid, createdAt, expiresAt⟩ }

theorem sameIdentity_touch (now : Int) (row : Store.Session H) :
    SameIdentity { row with lastSeen := now } row := ⟨rfl, rfl, rfl, rfl, rfl, rfl⟩

theorem sameIdentity_revoke (now : Int) (why : Reason) (row : Store.Session H) :
    SameIdentity { row with revokedAt := some now, revokedReason := some why } row :=
  ⟨rfl, rfl, rfl, rfl, rfl, rfl⟩

theorem Consistent.touch (consistent : Consistent ht life bound st)
    (tid : TenantID) (id : SessionID) :
    Consistent ht life bound
      { st with sessions := touchSession st.sessions st.now tid id } :=
  { consistent.toSound.updateRows _ (sameIdentity_touch st.now) with
    ended := by
      intro chg mem revoked
      obtain ⟨row, rowMem, ⟨-, rfl⟩ | ⟨-, rfl⟩⟩ := of_mem_updateWhere mem
      · exact (consistent.ended row rowMem revoked).mono rfl rfl (le_refl _)
          (fun _ _ stored => stored) (fun _ marked => marked)
      · exact (consistent.ended chg rowMem revoked).mono rfl rfl (le_refl _)
          (fun _ _ stored => stored) (fun _ marked => marked) }

/-- A revoked row was revoked before, or is one the statement selected. -/
theorem of_mem_revokeWhere {sel : Store.Session H → Bool} {now : Int} {why : Reason}
    (mem : chg ∈ revokeWhere sel now why rs) (revoked : chg.revokedAt.isSome) :
    ∃ row ∈ rs, SameIdentity chg row
      ∧ (row.revokedAt.isSome ∨ (sel row = true ∧ row.revokedAt = none)) := by
  obtain ⟨row, rowMem, ⟨matched, rfl⟩ | ⟨-, rfl⟩⟩ := of_mem_updateWhere mem
  · rw [Bool.and_eq_true, Option.isNone_iff_eq_none] at matched
    grind [sameIdentity_revoke]
  grind [SameIdentity.refl]

end TangraAuth.Session

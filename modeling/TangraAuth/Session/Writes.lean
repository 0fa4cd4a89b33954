import Mathlib.Logic.Relation
import TangraAuth.Session.Preservation

/-!
Contract: what an operation of the session manager can write.

Owns: the single writes to the session table, the feed, the marks and the cached
views; each operation as a sequence of them; under which hashes an operation
caches a view; and what every sequence of writes keeps, whichever calls fail.

Does not own: consistency of views with marks, which depends on the order of the
writes inside an operation.
-/

namespace TangraAuth.Session

open Library Store
open Relation

variable {H : Type}

/-! ### Fresh identifiers -/

variable {st : State H} {id : SessionID}

theorem freshID_eq_true (fresh : st.freshID id = true) : ∀ row ∈ st.sessions, row.id ≠ id := by
  simpa [State.freshID] using fresh

variable [DecidableEq H] {ht : Secret → H}

variable {sec : Secret}

theorem freshSecret_eq_true (fresh : st.freshSecret ht sec = true) :
    sec ≠ [] ∧ ∀ pair ∈ st.issued, ht pair.1 ≠ ht sec := by
  simpa [State.freshSecret] using fresh

/-! ### Single writes -/

/-- The table and the issued secrets after a row was added. -/
def State.inserted (st : State H) (row : Store.Session H) (sec : Secret) : State H :=
  { st with
    sessions := st.sessions ++ [row]
    issued := st.issued ++ [(sec, row.id)] }

/-- The rows and the issued secrets of a rotation. -/
def State.rotated (ht : Secret → H) (st : State H) (row : Store.Session H)
    (next : Secret) (exp : Int) : State H :=
  { st with
    sessions := updateWhere (renewable row.tenantID row.id)
      (fun old =>
        { old with
          secretHash := ht next, expiresAt := exp, lastSeen := st.now })
      st.sessions
    issued := st.issued ++ [(next, row.id)] }

/-- One write. Views are cached only under the hashes that `cacheable` names. -/
inductive Write (ht : Secret → H) (cacheable : H → Prop) :
    State H → State H → Prop
  | evict (st : State H) (hash : H) :
      Write ht cacheable st (st.evictView hash)
  | cache (st : State H) (hash : H) (v : View) (allowed : cacheable hash) :
      Write ht cacheable st (st.putView hash v)
  | append (st : State H) (revocation : Revocation) :
      Write ht cacheable st { st with feed := st.feed ++ [revocation] }
  | mark (st : State H) (subj : Subject) :
      Write ht cacheable st (st.setMark subj st.now)
  | markSession (st : State H) (id : SessionID) (markedAt : Int)
      (dated : markedAt ≤ st.now) :
      Write ht cacheable st (st.setMark (.session id) markedAt)
  | revoke (st : State H) (sel : Store.Session H → Bool) (why : Reason) :
      Write ht cacheable st
        { st with sessions := revokeWhere sel st.now why st.sessions }
  | touch (st : State H) (tid : TenantID) (id : SessionID) :
      Write ht cacheable st
        { st with sessions := touchSession st.sessions st.now tid id }
  | insert (st : State H) (row : Store.Session H) (sec : Secret)
      (isHash : row.secretHash = ht sec) (freshID : st.freshID row.id = true)
      (freshSecret : st.freshSecret ht sec = true) :
      Write ht cacheable st (st.inserted row sec)
  | rotate (st : State H) (row : Store.Session H) (next : Secret) (exp : Int)
      (freshSecret : st.freshSecret ht next = true) :
      Write ht cacheable st (st.rotated ht row next exp)
  | directory (st : State H) (status : TenantID → TenantStatus)
      (roles : TenantID → UserID → List Slug) (users : TenantID → UserID → Option Profile)
      (versions : TenantID → Int) :
      Write ht cacheable st (st.withDirectory status roles users versions)
  | advance (st : State H) (elapsed : Nat) :
      Write ht cacheable st { st with now := st.now + elapsed }

abbrev Writes (ht : Secret → H) (cacheable : H → Prop) : State H → State H → Prop :=
  ReflTransGen (Write ht cacheable)

variable {next : State H}

theorem Write.mono {cacheable wider : H → Prop} (widens : ∀ hash, cacheable hash → wider hash)
    (write : Write ht cacheable st next) : Write ht wider st next := by
  cases write with
  | evict hash => exact .evict st hash
  | cache hash v allowed => exact .cache st hash v (widens hash allowed)
  | append revocation => exact .append st revocation
  | mark subj => exact .mark st subj
  | markSession id markedAt dated => exact .markSession st id markedAt dated
  | revoke sel why => exact .revoke st sel why
  | touch tid id => exact .touch st tid id
  | insert row sec isHash freshID freshSecret =>
    exact .insert st row sec isHash freshID freshSecret
  | rotate row next exp freshSecret => exact .rotate st row next exp freshSecret
  | directory status roles users versions => exact .directory st status roles users versions
  | advance elapsed => exact .advance st elapsed

theorem Writes.mono {cacheable wider : H → Prop} (widens : ∀ hash, cacheable hash → wider hash)
    (writes : Writes ht cacheable st next) : Writes ht wider st next :=
  ReflTransGen.mono (fun _ _ write => Write.mono widens write) _ _ writes

theorem Writes.preserves {cacheable : H → Prop} {inv : State H → Prop}
    (writePreserves : ∀ st next, Write ht cacheable st next → inv st →
      inv next) (writes : Writes ht cacheable st next) (holds : inv st) :
    inv next := by
  induction writes with
  | refl => exact holds
  | tail _ write ih => exact writePreserves _ _ write ih

/-! ### The writes of an operation -/

variable {cacheable : H → Prop}

theorem withMark_writes (st : State H) (subj : Subject) (tid : TenantID) (why : Reason) :
    Writes ht cacheable st (st.withMark subj tid why) :=
  .head (.append st ⟨st.now, subj, tid, why⟩) (.single (.mark _ subj))

variable (resolving fs : Faults)

theorem publish_writes (st : State H) (subj : Subject) (tid : TenantID) (why : Reason) :
    Writes ht cacheable st (st.publish fs ⟨st.now, subj, tid, why⟩).1 := by
  grind [publish_cases, withMark_writes, State.publish]

theorem revokeOne_writes (st : State H) (tid : TenantID) (id : SessionID) (why : Reason) :
    Writes ht cacheable st (st.revokeOne fs tid id why).1 := by
  unfold State.revokeOne
  split_ifs
  · exact .refl
  · refine .head (.revoke st (fun row => row.tenantID == tid && row.id == id) why) ?_
    exact publish_writes fs _ (.session id) tid why

theorem revoke_writes (st : State H) (tid : TenantID) (id : SessionID) (why : Reason) :
    Writes ht cacheable st (st.revoke fs tid id why).1 := by
  have writes : Writes ht cacheable st (st.revokeOne fs tid id why).1 :=
    revokeOne_writes fs st tid id why
  unfold State.revoke
  split_ifs
  · exact .refl
  · cases getSession st.sessions tid id with
    | none => exact .refl
    | some row =>
      rcases out : st.revokeOne fs tid id why with ⟨next, failure | ⟨⟩⟩
      · rw [out] at writes
        exact writes
      · rw [out] at writes
        exact writes.tail (.evict next row.secretHash)

theorem publishOthers_writes (tid : TenantID) (why : Reason) (keepID : SessionID)
    (listed : List (Store.Session H)) (st : State H) :
    Writes ht cacheable st (State.publishOthers fs tid why keepID st listed).1 := by
  induction listed generalizing st with
  | nil => exact .refl
  | cons head rest ih =>
    unfold State.publishOthers
    split_ifs with kept
    · exact ih st
    · rcases publish_cases fs st (.session head.id) tid why
        with ⟨-, out⟩ | ⟨-, out⟩
      · rw [out]
      · rw [out]
        refine (withMark_writes st (.session head.id) tid why).trans ?_
        exact .head (.evict _ head.secretHash) (ih _)

section

variable (st : State H)

theorem revokeUser_writes (tid : TenantID) (uid : UserID) (why : Reason)
    (keepID : Option SessionID) :
    Writes ht cacheable st (st.revokeUser fs tid uid why keepID).1 := by
  unfold State.revokeUser
  split_ifs
  · exact .refl
  · exact .refl
  · refine .head (.revoke st (fun row => row.tenantID == tid && row.userID == uid
      && decide (some row.id ≠ keepID)) why) ?_
    cases keepID with
    | none => exact publish_writes fs _ (.user uid) tid why
    | some keep => exact publishOthers_writes fs tid why keep _ _

theorem revokeTenant_writes (tid : TenantID) (why : Reason) :
    Writes ht cacheable st (st.revokeTenant fs tid why).1 := by
  unfold State.revokeTenant
  split_ifs
  · exact .refl
  · refine .head (.revoke st (fun row => row.tenantID == tid) why) ?_
    exact publish_writes fs _ (.tenant tid) tid why

theorem refreshUser_writes (tid : TenantID) (uid : UserID) :
    Writes ht cacheable st (st.refreshUser fs tid uid) := by
  unfold State.refreshUser
  split_ifs
  · exact .refl
  · generalize listUserSessions st.sessions st.now tid uid = listed
    induction listed generalizing st with
    | nil => exact .refl
    | cons head rest ih =>
      exact .head (.evict st head.secretHash) (ih _)

theorem expire_writes (v : View) (hash : H) (why : Reason) :
    Writes ht cacheable st (st.expire fs v hash why) :=
  .head (.evict st hash) (revokeOne_writes fs _ v.tenantID v.id why)

/-- A view is cached only where it yields an actor. -/
theorem admitView_writes (hash : H) (v : View) : Writes ht
      (fun other => other = hash ∧ ∃ a, (st.admitView fs hash v).2 = .ok a)
      st (st.admitView fs hash v).1 := by
  unfold State.admitView
  split_ifs
  · exact expire_writes fs st v hash .expired
  · exact expire_writes fs st v hash .idleTimeout
  · exact .single (.evict st hash)
  · refine .head (.touch st v.tenantID v.id) (.single ?_)
    exact .cache _ hash _ ⟨rfl, _, rfl⟩
  · exact .single (.cache st hash v ⟨rfl, _, rfl⟩)

theorem resolve_writes (sec : Secret) : Writes ht (fun hash => hash = ht sec
        ∧ ∃ a, (st.resolve ht fs sec).2 = .ok a)
      st (st.resolve ht fs sec).1 := by
  rcases resolve_cases fs st sec with ⟨failure, out⟩ | out | ⟨v, -, -, out⟩ | ⟨row, v, -, -, -, out⟩
  · rw [out]
  · rw [out]
    exact .single (.evict st _)
  · rw [out]
    exact admitView_writes fs st _ _
  · rw [out]
    exact admitView_writes fs st _ _

theorem create_writes (params : State.CreateParams) (freshID : st.freshID id = true)
    (freshSecret : st.freshSecret ht sec = true) :
    Writes ht (fun hash => hash = ht sec) st (st.create ht fs params id sec).1 := by
  unfold State.create
  split_ifs
  · exact .refl
  · exact .refl
  · refine .head (.insert st (State.newRow ht st.now params id sec) sec rfl
      freshID freshSecret) (.single ?_)
    exact .cache _ (ht sec) _ rfl

theorem rotate_writes (row : Store.Session H) (pol : Tenant.Policy) (v : View)
    (sec : Secret) {next : Secret} (fresh : st.freshSecret ht next = true) :
    Writes ht (fun hash => hash = ht sec ∨ hash = ht next ∨ hash = row.secretHash)
      st (st.rotate ht fs row pol v sec next).1 := by
  unfold State.rotate renewSession
  split_ifs
  · exact .refl
  · exact .refl
  · refine .tail (.tail (.tail (.single ?_) (.cache _ _ _ (Or.inl rfl)))
      (.cache _ _ _ (Or.inr (Or.inr rfl)))) (.cache _ _ _ (Or.inr (Or.inl rfl)))
    exact .rotate st row next (st.now + pol.sessionLifetime) fresh
  · exact .refl

end

/-- The hashes under which an operation may cache a view: of a secret it hands out or that it
resolved, and, when a refresh replaces it, the current one of an unrevoked row. -/
def Operation.Caches (ht : Secret → H) (st : State H) : Operation → H → Prop
  | .create _ _ _ _ _ _ sec, hash => hash = ht sec
  | .resolve fs sec, hash =>
    hash = ht sec ∧ ∃ a, (st.resolve ht fs sec).2 = .ok a
  | .renew resolving _ sec next, hash =>
    (∃ a, (st.resolve ht resolving sec).2 = .ok a) ∧ (hash = ht sec ∨ hash = ht next
        ∨ ∃ row ∈ (st.resolve ht resolving sec).1.sessions,
            row.secretHash = hash ∧ row.revokedAt = none)
  | _, _ => False

theorem renew_writes (st : State H) (sec : Secret) {next : Secret}
    (fresh : st.freshSecret ht next = true) :
    Writes ht ((Operation.renew resolving fs sec next).Caches ht st) st
      (st.renew ht resolving fs sec next).1 := by
  have frame : SameFrame (st.resolve ht resolving sec).1 st :=
    resolve_frame resolving st sec
  have first : Writes ht ((Operation.renew resolving fs sec next).Caches ht st) st
      (st.resolve ht resolving sec).1 :=
    (resolve_writes resolving st sec).mono fun hash allowed =>
      ⟨allowed.2, Or.inl allowed.1⟩
  unfold State.renew
  rcases out : st.resolve ht resolving sec with ⟨resolved, failure | a⟩
  · rw [out] at first
    exact first
  rw [out] at first frame
  dsimp only at first frame ⊢
  have freshNext : resolved.freshSecret ht next = true := by
    unfold State.freshSecret
    rw [frame.issued]
    exact fresh
  by_cases failed : fs .get = true
  · rw [if_pos failed]
    exact first
  rw [if_neg failed]
  cases found : getSession resolved.sessions a.tenantID a.sessionID with
  | none => exact first
  | some row =>
    dsimp only
    by_cases wasRevoked : row.revokedAt.isSome = true
    · rw [if_pos wasRevoked]
      exact first
    rw [if_neg wasRevoked]
    rcases resolved.activePolicy fs row.tenantID with failure | ⟨tn, pol⟩
    · exact first
    · dsimp only
      split_ifs
      · exact first
      · refine first.trans ((rotate_writes fs resolved row pol _ sec
          freshNext).mono ?_)
        intro hash allowed
        have resolves : ∃ a, (st.resolve ht resolving sec).2 = .ok a := by
          rw [out]
          exact ⟨a, rfl⟩
        refine ⟨resolves, allowed.imp_right (Or.imp_right fun isHash => ?_)⟩
        rw [out]
        exact ⟨row, (getSession_eq_some found).1, isHash.symm, by simpa using wasRevoked⟩

theorem step_writes {op : Operation} (taken : step ht st op = some next) :
    Writes ht (op.Caches ht st) st next := by
  cases op with
  | create fs tid uid roles amr id sec =>
    simp only [step] at taken
    split_ifs at taken with fresh
    rw [Bool.and_eq_true] at fresh
    unfold State.createFor at taken
    repeat' split at taken
    all_goals cases taken
    exact create_writes fs st _ fresh.1 fresh.2
  | resolve fs sec =>
    cases taken
    exact resolve_writes fs st sec
  | renew resolving fs sec next =>
    grind [renew_writes, step]
  | byID fs tid id =>
    cases taken
    exact .refl
  | revoke fs tid id why =>
    cases taken
    exact revoke_writes fs st tid id why
  | revokeUser fs tid uid why keepID =>
    grind [revokeUser_writes, step]
  | revokeTenant fs tid why =>
    grind [revokeTenant_writes, step]
  | refreshUser fs tid uid =>
    cases taken
    exact refreshUser_writes fs st tid uid
  | directory status roles users versions =>
    cases taken
    exact .single (.directory st status roles users versions)
  | advance elapsed =>
    cases taken
    exact .single (.advance st elapsed)

/-! ### The ledger -/

omit [DecidableEq H] in
theorem issuedOnce_append {issued : List (Secret × SessionID)}
    (once : ∀ left ∈ issued, ∀ right ∈ issued, ht left.1 = ht right.1 → left.2 = right.2)
    (fresh : ∀ pair ∈ issued, ht pair.1 ≠ ht sec) (id : SessionID) :
    ∀ left ∈ issued ++ [(sec, id)], ∀ right ∈ issued ++ [(sec, id)],
      ht left.1 = ht right.1 → left.2 = right.2 := by
  grind

theorem nonempty_append {issued : List (Secret × SessionID)}
    (nonempty : ∀ pair ∈ issued, pair.1 ≠ []) (fresh : sec ≠ []) (id : SessionID) :
    ∀ pair ∈ issued ++ [(sec, id)], pair.1 ≠ [] := by
  intro pair mem
  rcases List.mem_append.mp mem with old | new
  · exact nonempty pair old
  · cases List.mem_singleton.mp new
    exact fresh

omit [DecidableEq H] in
/-- The statement of a rotation on the rows: which row a row of the new table was. -/
theorem of_mem_renewed {rs : List (Store.Session H)} {tid : TenantID} {hash : H}
    {now exp : Int} {chg : Store.Session H}
    (mem : chg ∈ updateWhere (renewable tid id)
      (fun row => { row with secretHash := hash, expiresAt := exp, lastSeen := now }) rs) :
    ∃ row ∈ rs, chg.id = row.id ∧ chg.tenantID = row.tenantID
      ∧ chg.userID = row.userID ∧ chg.createdAt = row.createdAt
      ∧ chg.revokedAt = row.revokedAt
      ∧ ((row.id = id ∧ row.tenantID = tid ∧ row.revokedAt = none
          ∧ chg.secretHash = hash ∧ chg.expiresAt = exp) ∨ chg = row) := by
  obtain ⟨row, rowMem, ⟨matched, rfl⟩ | ⟨-, rfl⟩⟩ := of_mem_updateWhere mem
  · simp only [renewable, Bool.and_eq_true, beq_iff_eq, Option.isNone_iff_eq_none] at matched
    grind
  grind

theorem Issuance.inserted (issuance : Issuance ht st) (row : Store.Session H)
    (isHash : row.secretHash = ht sec) (freshID : st.freshID row.id = true)
    (freshSecret : st.freshSecret ht sec = true) : Issuance ht (st.inserted row sec) where
  ids := uniqueKey_append_singleton issuance.ids (freshID_eq_true freshID)
  current := by
    intro other mem
    rcases List.mem_append.mp mem with old | new
    · grind [current, State.inserted]
    · cases List.mem_singleton.mp new
      exact ⟨sec, List.mem_append_right _ (List.mem_singleton.mpr rfl), isHash.symm⟩
  issuedOnce := issuedOnce_append issuance.issuedOnce (freshSecret_eq_true freshSecret).2 row.id

theorem Issuance.rotated (issuance : Issuance ht st) (row : Store.Session H) {next : Secret}
    (fresh : st.freshSecret ht next = true) (exp : Int) :
    Issuance ht (st.rotated ht row next exp) where
  ids := by
    grind [uniqueKey_updateWhere, ids, State.rotated]
  current := by
    intro chg changedMem
    obtain ⟨old, oldMem, sameID, -, -, -, -, ⟨isID, -, -, isHash, -⟩ | rfl⟩ :=
      of_mem_renewed changedMem
    · refine ⟨next, List.mem_append_right _ (List.mem_singleton.mpr ?_), isHash.symm⟩
      rw [sameID, isID]
    grind [current, State.rotated]
  issuedOnce := issuedOnce_append issuance.issuedOnce (freshSecret_eq_true fresh).2 row.id

section

variable (lg : Ledger ht st)

include lg

theorem Ledger.insert (row : Store.Session H) (isHash : row.secretHash = ht sec)
    (freshID : st.freshID row.id = true)
    (freshSecret : st.freshSecret ht sec = true) :
    Ledger ht (st.inserted row sec) where
  toIssuance := lg.toIssuance.inserted row isHash freshID freshSecret
  nonempty := nonempty_append lg.nonempty (freshSecret_eq_true freshSecret).1 row.id
  marks := lg.marks

theorem Ledger.rotated (row : Store.Session H) {next : Secret}
    (fresh : st.freshSecret ht next = true) (exp : Int) :
    Ledger ht (st.rotated ht row next exp) where
  toIssuance := lg.toIssuance.rotated row fresh exp
  nonempty := nonempty_append lg.nonempty (freshSecret_eq_true fresh).1 row.id
  marks := lg.marks

omit [DecidableEq H] in
theorem Ledger.withDirectory (status : TenantID → TenantStatus)
    (roles : TenantID → UserID → List Slug) (users : TenantID → UserID → Option Profile)
    (versions : TenantID → Int) :
    Ledger ht (st.withDirectory status roles users versions) :=
  { lg with }

omit [DecidableEq H] in
theorem Ledger.advance (elapsed : Nat) : Ledger ht { st with now := st.now + elapsed } :=
  { lg with
    marks := by
      intro subj mark stored
      obtain ⟨dated, ins, exp, retained, within⟩ := lg.marks subj mark stored
      grind }

theorem Ledger.write (write : Write ht cacheable st next) : Ledger ht next := by
  cases write with
  | evict hash | cache hash v allowed | append revocation => exact { lg with }
  | mark subj => exact lg.setMark subj (le_refl _)
  | markSession id markedAt dated => exact lg.setMark (.session id) dated
  | revoke sel why =>
    exact lg.updateRows _ (sameIdentity_revoke st.now why)
  | touch tid id => exact lg.updateRows _ (sameIdentity_touch st.now)
  | insert row sec isHash freshID freshSecret =>
    exact lg.insert row isHash freshID freshSecret
  | rotate row next exp freshSecret => exact lg.rotated row freshSecret exp
  | directory status roles users versions =>
    exact lg.withDirectory status roles users versions
  | advance elapsed => exact lg.advance elapsed

theorem Ledger.writes (writes : Writes ht cacheable st next) : Ledger ht next :=
  writes.preserves (fun _ _ write held => held.write write) lg

end

variable {fin : State H} {operations : List Operation}

/-- Every state of a run has a ledger, whatever the policies and the failures. -/
theorem run_preserves_ledger (lg : Ledger ht st)
    (reaches : run (step ht) st operations = some fin) : Ledger ht fin :=
  run_preserves_always (fun _ _ _ held taken => held.writes (step_writes taken)) lg reaches

/-! ### Rows stay, and stay revoked -/

/-- Every row is still there, with its owner, and revoked if it was. -/
def Persists (rs later : List (Store.Session H)) : Prop :=
  ∀ row ∈ rs, ∃ kept ∈ later, kept.id = row.id ∧ kept.tenantID = row.tenantID
    ∧ kept.userID = row.userID ∧ (row.revokedAt.isSome → kept.revokedAt.isSome)

variable (sel : Store.Session H → Bool) (now : Int) (why : Reason) (rs : List (Store.Session H))

omit [DecidableEq H] in
theorem Persists.refl : Persists rs rs := by
  grind [Persists]

omit [DecidableEq H] in
theorem Persists.trans {first second third : List (Store.Session H)}
    (left : Persists first second) (right : Persists second third) : Persists first third := by
  grind [Persists]

omit [DecidableEq H] in
theorem persists_updateWhere (matching : Store.Session H → Bool)
    {change : Store.Session H → Store.Session H}
    (id : ∀ row, (change row).id = row.id) (tid : ∀ row, (change row).tenantID = row.tenantID)
    (uid : ∀ row, (change row).userID = row.userID)
    (revoked : ∀ row, row.revokedAt.isSome → (change row).revokedAt.isSome)
    (rs : List (Store.Session H)) : Persists rs (updateWhere matching change rs) := by
  intro row mem
  grind

omit [DecidableEq H] in
theorem persists_revokeWhere : Persists rs (revokeWhere sel now why rs) := by
  unfold revokeWhere
  apply persists_updateWhere
  · exact fun _ => rfl
  · exact fun _ => rfl
  · exact fun _ => rfl
  · exact fun _ _ => rfl

omit [DecidableEq H] in
theorem persists_touch (tid : TenantID) (id : SessionID) (rs : List (Store.Session H)) :
    Persists rs (touchSession rs now tid id) := by
  unfold touchSession
  apply persists_updateWhere
  · exact fun _ => rfl
  · exact fun _ => rfl
  · exact fun _ => rfl
  · exact fun _ revoked => revoked

omit [DecidableEq H] in
theorem persists_append (row : Store.Session H) : Persists rs (rs ++ [row]) := by
  grind [Persists]

theorem Write.persists (write : Write ht cacheable st next) :
    Persists st.sessions next.sessions := by
  cases write with
  | evict hash | cache hash v allowed | append revocation | mark subj
  | markSession id markedAt dated | directory status roles users versions | advance elapsed =>
    exact Persists.refl _
  | revoke sel why => exact persists_revokeWhere sel st.now why _
  | touch tid id => exact persists_touch st.now tid id _
  | insert row sec isHash freshID freshSecret => exact persists_append _ row
  | rotate row next exp freshSecret =>
    apply persists_updateWhere
    · exact fun _ => rfl
    · exact fun _ => rfl
    · exact fun _ => rfl
    · exact fun _ revoked => revoked

theorem Writes.persists (writes : Writes ht cacheable st next) :
    Persists st.sessions next.sessions := by
  induction writes with
  | refl => exact Persists.refl _
  | tail _ write ih => exact ih.trans write.persists

theorem run_persists (reaches : run (step ht) st operations = some fin) :
    Persists st.sessions fin.sessions := by
  induction operations generalizing st with
  | nil =>
    cases reaches
    exact Persists.refl _
  | cons op rest ih =>
    obtain ⟨next, taken, continues⟩ := run_cons_eq_some.mp reaches
    exact (step_writes taken).persists.trans (ih continues)

end TangraAuth.Session

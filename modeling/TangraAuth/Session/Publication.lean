import TangraAuth.Session.Writes

/-!
Contract: which revoked rows the feed tells of.

Owns: what it means that a feed row is about a session, that every row revoked
before its expiry has such an entry of the same date, and that what was live at
an instant has no revocation dated earlier.

Does not own: who reads the feed.
-/

namespace TangraAuth.Session

open Library Store

variable {H : Type}

/-- The entry is about the row's session, user or tenant. -/
def About (row : Store.Session H) (e : Revocation) : Prop :=
  match e.subject with
  | .session id => id = row.id
  | .user id => id = row.userID ∧ e.tenantID = row.tenantID
  | .tenant id => id = row.tenantID

/-- The feed has an entry of that date about the row, or the row had expired by then. -/
def Announced (feed : List Revocation) (row : Store.Session H) (date : Int) : Prop :=
  row.expiresAt ≤ date ∨ ∃ e ∈ feed, About row e ∧ e.ts = date

/-- Every revocation of a row is announced. -/
def Published (st : State H) : Prop :=
  ∀ row ∈ st.sessions, ∀ date, row.revokedAt = some date →
    date ≤ st.now ∧ Announced st.feed row date

theorem Announced.mono {feed later : List Revocation} {row : Store.Session H} {date : Int}
    (announced : Announced feed row date) (grows : ∀ e ∈ feed, e ∈ later) :
    Announced later row date := by
  grind [Announced]

theorem Published.mono {st next : State H} (published : Published st)
    (sessions : next.sessions = st.sessions) (grows : ∀ e ∈ st.feed, e ∈ next.feed)
    (later : st.now ≤ next.now) : Published next := by
  grind [Announced.mono, Published]

theorem Published.update {st next : State H} (published : Published st)
    {matching : Store.Session H → Bool} {change : Store.Session H → Store.Session H}
    (sessions : next.sessions = updateWhere matching change st.sessions)
    (kept : ∀ row, matching row = true → (change row).revokedAt = none
      ∨ (change row).revokedAt = row.revokedAt ∧ ∀ date, Announced st.feed row date →
        Announced st.feed (change row) date)
    (feed : next.feed = st.feed) (now : next.now = st.now) : Published next := by
  grind [Published]

/-- A revocation of the selected rows, with entries dated now about those not yet expired. -/
theorem Published.revokeWhere {st next : State H} (published : Published st)
    {sel : Store.Session H → Bool} {why : Reason}
    (sessions : next.sessions = revokeWhere sel st.now why st.sessions)
    (grows : ∀ e ∈ st.feed, e ∈ next.feed)
    (told : ∀ row ∈ st.sessions, sel row = true → row.revokedAt = none →
      st.now < row.expiresAt → ∃ e ∈ next.feed, About row e ∧ e.ts = st.now)
    (now : next.now = st.now) : Published next := by
  intro row mem date revoked
  rw [sessions] at mem
  rw [now]
  obtain ⟨old, oldMem, ⟨matched, rfl⟩ | ⟨-, rfl⟩⟩ := of_mem_updateWhere mem
  · cases revoked
    rw [Bool.and_eq_true, Option.isNone_iff_eq_none] at matched
    refine ⟨le_refl _, ?_⟩
    by_cases expired : old.expiresAt ≤ st.now
    · exact Or.inl expired
    · exact Or.inr (told old oldMem matched.1 matched.2 (not_le.mp expired))
  grind [Announced, Published]

/-! ### Revocations -/

section

variable {fs : Faults} {st : State H}

theorem publish_of_writable (writable : fs.FeedWritable) (subj : Subject)
    (tid : TenantID) (why : Reason) :
    st.publish fs ⟨st.now, subj, tid, why⟩ = (st.withMark subj tid why, .ok ()) := by
  grind [State.publish, State.withMark, Faults.FeedWritable]

theorem mem_withMark_feed (subj : Subject) (tid : TenantID) (why : Reason) :
    ⟨st.now, subj, tid, why⟩ ∈ (st.withMark subj tid why).feed :=
  List.mem_append_right _ (List.mem_singleton.mpr rfl)

variable [DecidableEq H]

omit [DecidableEq H] in
theorem Published.revokeOne (published : Published st) (writable : fs.FeedWritable)
    (tid : TenantID) (id : SessionID) (why : Reason) :
    Published (st.revokeOne fs tid id why).1 := by
  unfold State.revokeOne
  split_ifs
  · exact published
  · rw [publish_of_writable writable]
    refine published.revokeWhere rfl (fun _ mem => List.mem_append_left _ mem) ?_ rfl
    intro row _ sel _ _
    simp only [Bool.and_eq_true, beq_iff_eq] at sel
    exact ⟨_, mem_withMark_feed (.session id) tid why, sel.2.symm, rfl⟩

theorem Published.evictView (published : Published st) (hash : H) : Published (st.evictView hash) :=
  published.mono rfl (fun _ mem => mem) (le_refl _)

theorem Published.putView (published : Published st) (hash : H) (v : View) :
    Published (st.putView hash v) :=
  published.mono rfl (fun _ mem => mem) (le_refl _)

theorem Published.revoke (published : Published st) (writable : fs.FeedWritable)
    (tid : TenantID) (id : SessionID) (why : Reason) :
    Published (st.revoke fs tid id why).1 := by
  grind [revokeOne, evictView, State.revoke]

/-- The fan-out over the listed sessions leaves the rows and announces every one but the kept. -/
theorem publishOthers_announces (writable : fs.FeedWritable) (tid : TenantID)
    (why : Reason) (keepID : SessionID) (listed : List (Store.Session H))
    (st : State H) :
    (State.publishOthers fs tid why keepID st listed).1.sessions = st.sessions
      ∧ (State.publishOthers fs tid why keepID st listed).1.now = st.now
      ∧ (∀ e ∈ st.feed, e ∈ (State.publishOthers fs tid why keepID st listed).1.feed)
      ∧ ∀ row ∈ listed, row.id ≠ keepID → ⟨st.now, .session row.id, tid, why⟩
          ∈ (State.publishOthers fs tid why keepID st listed).1.feed := by
  induction listed generalizing st with
  | nil => grind [State.publishOthers]
  | cons head rest ih =>
    unfold State.publishOthers
    split_ifs with isKept
    · grind
    · rw [publish_of_writable writable]
      obtain ⟨sessions, now, grows, told⟩ := ih
        ((st.withMark (.session head.id) tid why).evictView head.secretHash)
      refine ⟨sessions, now, ?_, ?_⟩
      · exact fun e mem => grows e (List.mem_append_left _ mem)
      · intro row mem notKept
        rcases List.mem_cons.mp mem with rfl | later
        · exact grows _ (mem_withMark_feed (.session row.id) tid why)
        · exact told row later notKept

theorem Published.revokeUser (published : Published st) (writable : fs.FeedWritable)
    (tid : TenantID) (uid : UserID) (why : Reason) (keepID : Option SessionID) :
    Published (st.revokeUser fs tid uid why keepID).1 := by
  unfold State.revokeUser
  split_ifs
  · exact published
  · exact published
  · cases keepID with
    | none =>
      dsimp only
      rw [publish_of_writable writable]
      refine published.revokeWhere rfl (fun _ mem => List.mem_append_left _ mem) ?_ rfl
      intro row _ sel _ _
      simp only [Bool.and_eq_true, beq_iff_eq, decide_eq_true_eq] at sel
      exact ⟨_, mem_withMark_feed (.user uid) tid why, ⟨sel.1.2.symm, sel.1.1.symm⟩, rfl⟩
    | some keep =>
      obtain ⟨sessions, now, grows, told⟩ := publishOthers_announces writable tid why
        keep (listUserSessions st.sessions st.now tid uid)
        { st with
          sessions :=
            revokeUserSessions st.sessions st.now tid uid why (some keep) }
      refine published.revokeWhere sessions grows ?_ now
      intro row mem sel unrevoked unexpired
      simp only [Bool.and_eq_true, beq_iff_eq, decide_eq_true_eq] at sel
      have listed : row ∈ listUserSessions st.sessions st.now tid uid :=
        mem_listUserSessions.mpr ⟨mem, sel.1.1, sel.1.2, unrevoked, unexpired⟩
      exact ⟨_, told row listed fun isKept => sel.2 (congrArg some isKept), rfl, rfl⟩

omit [DecidableEq H] in
theorem Published.revokeTenant (published : Published st) (writable : fs.FeedWritable)
    (tid : TenantID) (why : Reason) :
    Published (st.revokeTenant fs tid why).1 := by
  unfold State.revokeTenant
  split_ifs
  · exact published
  · rw [publish_of_writable writable]
    refine published.revokeWhere rfl (fun _ mem => List.mem_append_left _ mem) ?_ rfl
    intro row _ sel _ _
    rw [beq_iff_eq] at sel
    exact ⟨_, mem_withMark_feed (.tenant tid) tid why, sel.symm, rfl⟩

/-! ### The other operations -/

omit [DecidableEq H] in
theorem Published.touch (published : Published st) (tid : TenantID) (id : SessionID) :
    Published { st with sessions := touchSession st.sessions st.now tid id } :=
  published.update rfl (fun _ _ => Or.inr ⟨rfl, fun _ announced => announced⟩) rfl rfl

theorem Published.admitView (published : Published st) (writable : fs.FeedWritable)
    (hash : H) (v : View) : Published (st.admitView fs hash v).1 := by
  unfold State.admitView
  split_ifs
  · grind [evictView, revokeOne, State.expire]
  · grind [evictView, revokeOne, State.expire]
  · exact published.evictView hash
  · exact (published.touch v.tenantID v.id).putView hash _
  · exact published.putView hash v

variable {ht : Secret → H}

theorem Published.resolve (published : Published st) (writable : fs.FeedWritable)
    (sec : Secret) : Published (st.resolve ht fs sec).1 := by
  grind [resolve_cases, evictView, admitView]

theorem Published.rotate (published : Published st) (fs : Faults)
    (row : Store.Session H) (pol : Tenant.Policy) (v : View) (sec next : Secret) :
    Published (st.rotate ht fs row pol v sec next).1 := by
  unfold State.rotate renewSession
  split_ifs
  · exact published
  · exact published
  · have rotated : Published
        (st.rotated ht row next (st.now + pol.sessionLifetime)) := by
      refine published.update rfl ?_ rfl rfl
      intro old matched
      simp only [renewable, Bool.and_eq_true, Option.isNone_iff_eq_none] at matched
      exact Or.inl matched.2
    exact ((rotated.putView _ _).putView _ _).putView _ _
  · exact published

theorem Published.renew (published : Published st) {resolving : Faults}
    (writable : resolving.FeedWritable) (fs : Faults) (sec next : Secret) :
    Published (st.renew ht resolving fs sec next).1 := by
  have first : Published (st.resolve ht resolving sec).1 :=
    published.resolve writable sec
  unfold State.renew
  rcases out : st.resolve ht resolving sec with ⟨resolved, failure | a⟩
  · rw [out] at first
    exact first
  rw [out] at first
  dsimp only at first ⊢
  by_cases failed : fs .get = true
  · rw [if_pos failed]
    exact first
  rw [if_neg failed]
  cases getSession resolved.sessions a.tenantID a.sessionID with
  | none => exact first
  | some row =>
    dsimp only
    by_cases wasRevoked : row.revokedAt.isSome = true
    · rw [if_pos wasRevoked]
      exact first
    rw [if_neg wasRevoked]
    grind [rotate]

theorem Published.create (published : Published st) (fs : Faults)
    (params : State.CreateParams) (id : SessionID) (sec : Secret) :
    Published (st.create ht fs params id sec).1 := by
  unfold State.create
  split_ifs
  · exact published
  · exact published
  · apply Published.putView
    intro row mem date revoked
    rcases List.mem_append.mp mem with old | new
    · exact published row old date revoked
    · cases List.mem_singleton.mp new
      cases revoked

theorem Published.refreshUser (published : Published st) (fs : Faults)
    (tid : TenantID) (uid : UserID) :
    Published (st.refreshUser fs tid uid) := by
  unfold State.refreshUser
  split_ifs
  · exact published
  · generalize listUserSessions st.sessions st.now tid uid = listed
    induction listed generalizing st with
    | nil => exact published
    | cons head rest ih =>
      exact ih (published.evictView head.secretHash)

/-- Every step whose feed insertions succeed keeps the feed complete. -/
theorem Published.step (published : Published st) {op : Operation}
    (writable : op.FeedWritable) {next : State H}
    (taken : step ht st op = some next) : Published next := by
  cases op with
  | create fs tid uid roles amr id sec =>
    simp only [Session.step] at taken
    grind [create, State.createFor]
  | resolve fs sec =>
    cases taken
    exact published.resolve writable sec
  | renew resolving fs sec next =>
    simp only [Session.step] at taken
    split_ifs at taken
    cases taken
    exact published.renew writable.1 fs sec next
  | byID fs tid id =>
    cases taken
    exact published
  | revoke fs tid id why =>
    cases taken
    exact published.revoke writable tid id why
  | revokeUser fs tid uid why keepID =>
    cases taken
    exact published.revokeUser writable tid uid why keepID
  | revokeTenant fs tid why =>
    cases taken
    exact published.revokeTenant writable tid why
  | refreshUser fs tid uid =>
    cases taken
    exact published.refreshUser fs tid uid
  | directory status roles users versions =>
    cases taken
    exact published.mono rfl (fun _ mem => mem) (le_refl _)
  | advance elapsed =>
    grind [Published, Session.step]

end

/-! ### The feed only grows -/

section

variable [DecidableEq H] {ht : Secret → H}

theorem Write.feed_grows {cacheable : H → Prop} {st next : State H}
    (write : Write ht cacheable st next) : ∀ e ∈ st.feed, e ∈ next.feed := by
  cases write with
  | append revocation => exact fun _ mem => List.mem_append_left _ mem
  | evict | cache | mark | markSession | revoke | touch | insert | rotate | directory | advance =>
    exact fun _ mem => mem

theorem step_feed_grows {st next : State H} {op : Operation} (taken : step ht st op = some next) :
    ∀ e ∈ st.feed, e ∈ next.feed := by
  intro e mem
  have kept : ∀ first last : State H, Write ht (op.Caches ht st) first last →
      e ∈ first.feed → e ∈ last.feed :=
    fun _ _ write => write.feed_grows e
  exact (step_writes taken).preserves kept mem

end

/-! ### What was live at an instant -/

/-- The session of that user and tenant was live at `checkedAt`: its row is there, and is not
revoked with an earlier date. -/
def LiveAt (st : State H) (tid : TenantID) (uid : UserID) (id : SessionID)
    (checkedAt : Int) : Prop :=
  checkedAt ≤ st.now ∧ ∃ row ∈ st.sessions, row.id = id ∧ row.tenantID = tid
    ∧ row.userID = uid ∧ ∀ date, row.revokedAt = some date → checkedAt ≤ date

section

variable [DecidableEq H] {ht : Secret → H} {tid : TenantID} {uid : UserID}
  {id : SessionID} {checkedAt : Int}

omit [DecidableEq H] in
theorem LiveAt.update {st next : State H} (live : LiveAt st tid uid id checkedAt)
    {matching : Store.Session H → Bool} {change : Store.Session H → Store.Session H}
    (sessions : next.sessions = updateWhere matching change st.sessions)
    (now : next.now = st.now)
    (same : ∀ row, (change row).id = row.id ∧ (change row).tenantID = row.tenantID
      ∧ (change row).userID = row.userID)
    (dated : ∀ row date, (change row).revokedAt = some date →
      row.revokedAt = some date ∨ date = st.now) :
    LiveAt next tid uid id checkedAt := by
  obtain ⟨pre, row, mem, isID, isT, isUser, fresh⟩ := live
  rw [LiveAt, now, sessions]
  grind

omit [DecidableEq H] in
theorem LiveAt.mono {st next : State H} (live : LiveAt st tid uid id checkedAt)
    (kept : ∀ row ∈ st.sessions, row ∈ next.sessions) (later : st.now ≤ next.now) :
    LiveAt next tid uid id checkedAt := by
  grind [LiveAt]

/-- No write dates a revocation earlier than now. -/
theorem LiveAt.write {cacheable : H → Prop} {st next : State H}
    (live : LiveAt st tid uid id checkedAt)
    (write : Write ht cacheable st next) :
    LiveAt next tid uid id checkedAt := by
  cases write with
  | evict | cache | append | mark | markSession | directory =>
    exact live.mono (fun _ mem => mem) (le_refl _)
  | revoke sel why =>
    refine live.update rfl rfl (fun _ => ⟨rfl, rfl, rfl⟩) ?_
    grind
  | touch tid id | rotate row next exp freshSecret =>
    exact live.update rfl rfl (fun _ => ⟨rfl, rfl, rfl⟩) (fun _ _ revoked => Or.inl revoked)
  | insert row sec isHash freshID freshSecret =>
    grind [LiveAt, State.inserted]
  | advance elapsed =>
    grind [LiveAt]

theorem LiveAt.step {st next : State H} (live : LiveAt st tid uid id checkedAt)
    {op : Operation} (taken : step ht st op = some next) :
    LiveAt next tid uid id checkedAt := by
  have kept : ∀ first last : State H, Write ht (op.Caches ht st) first last →
      LiveAt first tid uid id checkedAt → LiveAt last tid uid id checkedAt :=
    fun _ _ write held => held.write write
  exact (step_writes taken).preserves kept live

end

end TangraAuth.Session
